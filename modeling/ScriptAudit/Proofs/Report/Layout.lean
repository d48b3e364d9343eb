import ScriptAudit.Report.Reporter

/-!
# What a console writes for a passage

A console splits a passage at its line feeds, expands the tabs of each line, and writes the lines
with a line feed behind each. Without colours a line is written as its characters. So the line feeds
of a passage are all written, with one more at the end, and no tab adds any; a start without tabs
and line feeds is the start of what is written; and a passage without tabs is written as it is.
-/

set_option autoImplicit false

namespace ScriptAudit.Report

namespace Line

/-! ## Tabs -/

/-- A line without tabs is left as it is. -/
theorem expandTabsFrom_append {line : Line} (h : ∀ g ∈ line, g.char ≠ '\t') (part rest : Line) :
    expandTabsFrom part 0 (line ++ rest) = expandTabsFrom (part ++ line) 0 rest := by
  induction line generalizing part with
  | nil => rw [List.nil_append, List.append_nil]
  | cons g line ih =>
    obtain ⟨hg, hline⟩ := List.forall_mem_cons.mp h
    rw [List.cons_append, expandTabsFrom, if_neg hg, ih hline, List.append_assoc]
    rfl

/-- A line without tabs stays as it is. -/
theorem expandTabs_of_no_tab {line : Line} (h : ∀ g ∈ line, g.char ≠ '\t') :
    line.expandTabs = line := by
  have hwhole := expandTabsFrom_append h [] []
  rw [List.append_nil, List.nil_append] at hwhole
  rw [expandTabs, hwhole, expandTabsFrom]

/-- What is expanded already stays in front. -/
theorem prefix_expandTabsFrom (part : Line) (tabs : Nat) (line : Line) :
    part <+: expandTabsFrom part tabs line := by
  fun_induction expandTabsFrom part tabs line with
  | case1 part tabs => exact List.prefix_rfl
  | case2 part tabs g rest _ htab ih =>
    rw [List.append_assoc]
    exact List.prefix_append part _
  | case3 part tabs g rest _ htab ih =>
    exact (List.prefix_append part _).trans ih

/-- What holds of a blank and of all characters of a line holds of all characters when the tabs are
expanded. -/
theorem forall_mem_expandTabsFrom {p : Char → Prop} (hblank : p ' ') {part line : Line} {tabs : Nat}
    (hpart : ∀ g ∈ part, p g.char) (hline : ∀ g ∈ line, p g.char) :
    ∀ g ∈ expandTabsFrom part tabs line, p g.char := by
  fun_induction expandTabsFrom part tabs line with
  | case1 part tabs => exact hpart
  | case2 part tabs g rest g' htab ih =>
    obtain ⟨-, hrest⟩ := List.forall_mem_cons.mp hline
    intro x hx
    rw [List.mem_append, List.mem_append] at hx
    rcases hx with (hx | hx) | hx
    · exact hpart x hx
    · rw [(List.mem_replicate.mp hx).2]
      exact hblank
    · exact ih (List.forall_mem_nil _) hrest x hx
  | case3 part tabs g rest g' htab ih =>
    obtain ⟨hg, hrest⟩ := List.forall_mem_cons.mp hline
    apply ih _ hrest
    intro x hx
    rcases List.mem_append.mp hx with hx | hx
    · exact hpart x hx
    · rw [List.mem_singleton.mp hx]
      exact hg

/-! ## Line feeds -/

/-- There is at least one line. -/
theorem exists_split_eq_cons (gs : List Glyph) : ∃ line lines, split gs = line :: lines := by
  cases gs with
  | nil => exact ⟨[], [], rfl⟩
  | cons g rest =>
    rw [split]
    split
    · exact ⟨_, _, rfl⟩
    · split
      · exact ⟨_, _, rfl⟩
      · exact ⟨_, _, rfl⟩

/-- A line feed ends a line. -/
theorem split_newline {g : Glyph} (h : g.char = '\n') (rest : List Glyph) :
    split (g :: rest) = [] :: split rest := by
  rw [split, if_pos h]

/-- Any other character belongs to the first line. -/
theorem split_cons {g : Glyph} (h : g.char ≠ '\n') {rest : List Glyph} {line : Line}
    {lines : List Line} (hrest : split rest = line :: lines) :
    split (g :: rest) = (g :: line) :: lines := by
  rw [split, if_neg h, hrest]

/-- The lines with a line feed behind each are the text with one more line feed. -/
theorem flatMap_split (gs : List Glyph) :
    (split gs).flatMap (fun line => line.map Glyph.char ++ ['\n']) =
      gs.map Glyph.char ++ ['\n'] := by
  induction gs with
  | nil => rfl
  | cons g rest ih =>
    by_cases hg : g.char = '\n'
    · rw [split_newline hg, List.flatMap_cons, ih, List.map_cons, hg]
      rfl
    · obtain ⟨line, lines, hrest⟩ := exists_split_eq_cons rest
      rw [hrest, List.flatMap_cons] at ih
      rw [split_cons hg hrest, List.flatMap_cons, List.map_cons, List.map_cons, List.cons_append,
        List.cons_append, List.cons_append, ih]

/-- There is one line more than there are line feeds. -/
theorem length_split (gs : List Glyph) :
    (split gs).length = (gs.map Glyph.char).count '\n' + 1 := by
  induction gs with
  | nil => rfl
  | cons g rest ih =>
    by_cases hg : g.char = '\n'
    · rw [split_newline hg, List.length_cons, ih, List.map_cons, hg, List.count_cons_self]
    · obtain ⟨line, lines, hrest⟩ := exists_split_eq_cons rest
      rw [hrest, List.length_cons] at ih
      rw [split_cons hg hrest, List.length_cons, ih, List.map_cons, List.count_cons_of_ne hg]

/-- A line holds glyphs of the text, but no line feeds. -/
theorem of_mem_split {gs : List Glyph} {line : Line} (hline : line ∈ split gs) {g : Glyph}
    (hg : g ∈ line) : g ∈ gs ∧ g.char ≠ '\n' := by
  induction gs generalizing line with
  | nil =>
    rw [split, List.mem_singleton] at hline
    rw [hline] at hg
    cases hg
  | cons x rest ih =>
    by_cases hx : x.char = '\n'
    · rw [split_newline hx, List.mem_cons] at hline
      rcases hline with rfl | hline
      · cases hg
      · obtain ⟨hmem, hne⟩ := ih hline hg
        exact ⟨List.mem_cons_of_mem x hmem, hne⟩
    · obtain ⟨first, lines, hrest⟩ := exists_split_eq_cons rest
      rw [hrest] at ih
      rw [split_cons hx hrest, List.mem_cons] at hline
      rcases hline with rfl | hline
      · rcases List.mem_cons.mp hg with rfl | hg
        · exact ⟨List.mem_cons_self, hx⟩
        · obtain ⟨hmem, hne⟩ := ih List.mem_cons_self hg
          exact ⟨List.mem_cons_of_mem x hmem, hne⟩
      · obtain ⟨hmem, hne⟩ := ih (List.mem_cons_of_mem first hline) hg
        exact ⟨List.mem_cons_of_mem x hmem, hne⟩

/-- Lines that end in line feeds hold as many as there are lines. -/
theorem count_newline_flatMap {lines : List Line} (h : ∀ line ∈ lines, ∀ g ∈ line, g.char ≠ '\n') :
    (lines.flatMap fun line => line.map Glyph.char ++ ['\n']).count '\n' = lines.length := by
  induction lines with
  | nil => rfl
  | cons line lines ih =>
    obtain ⟨hfirst, hrest⟩ := List.forall_mem_cons.mp h
    have hnone : '\n' ∉ line.map Glyph.char := by
      intro hmem
      obtain ⟨g, hg, hnewline⟩ := List.mem_map.mp hmem
      exact hfirst g hg hnewline
    rw [List.flatMap_cons, List.count_append, List.count_append, List.count_eq_zero.mpr hnone,
      ih hrest, List.length_cons, List.count_singleton_self, Nat.zero_add, Nat.add_comm]

/-- What stands before the first line feed begins the first line. -/
theorem exists_split_append {start : List Glyph} (h : ∀ g ∈ start, g.char ≠ '\n')
    (rest : List Glyph) : ∃ line lines, split (start ++ rest) = (start ++ line) :: lines := by
  induction start with
  | nil => exact exists_split_eq_cons rest
  | cons g start ih =>
    obtain ⟨hg, hstart⟩ := List.forall_mem_cons.mp h
    obtain ⟨line, lines, hsplit⟩ := ih hstart
    exact ⟨line, lines, split_cons hg hsplit⟩

end Line

/-! ## Consoles without colours -/

namespace Console

variable {console : Console}

/-- Without colours a markup is shown as its lines, each with a line feed. -/
theorem toList_shown (hcolour : console.colour = false) (markup : String) :
    (console.shown markup).toList =
      (Line.ofMarkup markup).flatMap fun line => line.map Glyph.char ++ ['\n'] := by
  simp [shown, Line.shown, hcolour, String.toList_join, List.flatMap_map]

/-- What is shown ends in a line feed. -/
theorem newline_suffix_shown (hcolour : console.colour = false) (markup : String) :
    ['\n'] <:+ (console.shown markup).toList := by
  obtain ⟨line, lines, hsplit⟩ := Line.exists_split_eq_cons (Passage.ofMarkup markup).glyphs
  have hne : Line.ofMarkup markup ≠ [] := by
    rw [Line.ofMarkup, hsplit]
    exact List.cons_ne_nil _ _
  rw [toList_shown hcolour, ← List.dropLast_concat_getLast hne, List.flatMap_append,
    List.flatMap_singleton]
  exact (List.suffix_append _ _).trans (List.suffix_append _ _)

/-- A passage without tabs is written as it is, with a line feed at the end. -/
theorem toList_shown_of_no_tab (hcolour : console.colour = false) {markup : String}
    (h : '\t' ∉ (Passage.ofMarkup markup).text) :
    (console.shown markup).toList = (Passage.ofMarkup markup).text ++ ['\n'] := by
  have hexpand : ∀ line ∈ Line.split (Passage.ofMarkup markup).glyphs, line.expandTabs = line := by
    intro line hline
    apply Line.expandTabs_of_no_tab
    intro g hg htab
    apply h
    rw [← Passage.map_char_glyphs, List.mem_map]
    exact ⟨g, (Line.of_mem_split hline hg).1, htab⟩
  have hlines : Line.ofMarkup markup = Line.split (Passage.ofMarkup markup).glyphs := by
    rw [Line.ofMarkup, List.map_congr_left hexpand, List.map_id']
  rw [toList_shown hcolour, hlines, Line.flatMap_split, Passage.map_char_glyphs]

/-- Every line feed of a passage is written, and one at the end. -/
theorem count_newline_shown (hcolour : console.colour = false) (markup : String) :
    (console.shown markup).toList.count '\n' = (Passage.ofMarkup markup).text.count '\n' + 1 := by
  have hlines : ∀ line ∈ Line.ofMarkup markup, ∀ g ∈ line, g.char ≠ '\n' := by
    intro line hline
    obtain ⟨raw, hraw, rfl⟩ := List.mem_map.mp hline
    have hblank : ' ' ≠ '\n' := by decide
    exact Line.forall_mem_expandTabsFrom (p := (· ≠ '\n')) hblank (List.forall_mem_nil _)
      fun g hg => (Line.of_mem_split hraw hg).2
  rw [toList_shown hcolour, Line.count_newline_flatMap hlines, Line.ofMarkup, List.length_map,
    Line.length_split, Passage.map_char_glyphs]

/-- What is written starts like the passage, as far as that has no tab and no line feed. -/
theorem prefix_shown (hcolour : console.colour = false) {markup : String} {start rest : List Char}
    (htext : (Passage.ofMarkup markup).text = start ++ rest) (htab : '\t' ∉ start)
    (hnewline : '\n' ∉ start) : start <+: (console.shown markup).toList := by
  rw [← Passage.map_char_glyphs] at htext
  obtain ⟨first, behind, hglyphs, hfirst, -⟩ := List.map_eq_append_iff.mp htext
  have hchar : ∀ g ∈ first, g.char ≠ '\n' ∧ g.char ≠ '\t' := by
    intro g hg
    have hmem : g.char ∈ start := by
      rw [← hfirst]
      exact List.mem_map_of_mem hg
    exact ⟨fun h => hnewline (h ▸ hmem), fun h => htab (h ▸ hmem)⟩
  obtain ⟨line, lines, hsplit⟩ := Line.exists_split_append (fun g hg => (hchar g hg).1) behind
  have hexpand : first <+: Line.expandTabs (first ++ line) := by
    rw [Line.expandTabs, Line.expandTabsFrom_append fun g hg => (hchar g hg).2]
    exact Line.prefix_expandTabsFrom _ _ _
  rw [toList_shown hcolour, Line.ofMarkup, hglyphs, hsplit, List.map_cons, List.flatMap_cons,
    List.append_assoc, ← hfirst]
  exact (hexpand.map Glyph.char).trans (List.prefix_append _ _)

end Console

end ScriptAudit.Report
