import Mathlib.Data.List.SplitBy
import ScriptAudit.Proofs.Text.Columns
import ScriptAudit.Report.Layout

/-!
# Wrapping loses nothing but blanks

A line that is too long for a frame is wrapped at its words, and a word that fits on no line is cut
into chunks. What a line then still has too much is cut off. The claim is that only blanks are cut
off, if there is room for one wide character and no character acts on its neighbours.

What carries the argument is that everything but blanks ends within the room of its line. A word is
put on a line only if it does so, blanks behind it apart; a chunk takes no more than the room; and
where this holds, whatever does not fit any more is blank.
-/

set_option autoImplicit false

namespace ScriptAudit.Report.Line

open ScriptAudit.Text

/-! ## Lines of inert characters -/

/-- No character of the line acts on its neighbours. -/
def IsInert (line : Line) : Prop := ∀ g ∈ line, Text.IsInert g.char

/-- A part of an inert line is inert. -/
theorem IsInert.of_subset {part line : Line} (h : line.IsInert) (hpart : part ⊆ line) :
    part.IsInert := fun g hg => h g (hpart hg)

/-- Two inert lines make an inert line. -/
theorem IsInert.append {line more : Line} (h : line.IsInert) (hmore : more.IsInert) :
    IsInert (line ++ more) := by
  intro g hg
  rcases List.mem_append.mp hg with hg | hg
  · exact h g hg
  · exact hmore g hg

/-- An inert line takes the columns of its characters. -/
theorem width_of_inert {line : Line} (h : line.IsInert) :
    line.width = total (line.map fun g => columnsOf g.char) := by
  have hchars : ∀ c ∈ line.map Glyph.char, Text.IsInert c := by
    intro c hc
    obtain ⟨g, hg, rfl⟩ := List.mem_map.mp hc
    exact h g hg
  rw [width, columns_of_inert hchars, List.map_map]
  rfl

/-- Columns of inert lines add up. -/
theorem width_append {line more : Line} (h : line.IsInert) (hmore : more.IsInert) :
    width (line ++ more) = line.width + more.width := by
  rw [width_of_inert (h.append hmore), width_of_inert h, width_of_inert hmore, List.map_append,
    total_append]

/-- The start of an inert line is not wider than the line. -/
theorem IsInert.width_le {part line : Line} (h : line.IsInert) (hpart : part <+: line) :
    part.width ≤ line.width := by
  obtain ⟨rest, rfl⟩ := hpart
  rw [width_append (h.of_subset (List.subset_append_left _ _))
    (h.of_subset (List.subset_append_right _ _))]
  omega

/-! ## Blanks at the end -/

/-- A line is its bare part with blanks behind it. -/
theorem exists_bare_append (line : Line) :
    ∃ blanks, line = line.bare ++ blanks ∧ (∀ g ∈ blanks, isBlankGlyph g = true) ∧
      blanks.length = (line.reverse.takeWhile isBlankGlyph).length := by
  refine ⟨(line.reverse.takeWhile isBlankGlyph).reverse, ?_, ?_, List.length_reverse⟩
  · rw [bare, ← List.reverse_append, List.takeWhile_append_dropWhile, List.reverse_reverse]
  · intro g hg
    exact List.all_eq_true.mp List.all_takeWhile g (List.mem_reverse.mp hg)

/-- The start of two lines up to a glyph ends in the first line or behind it. -/
theorem concat_prefix_append_cases {part line more : Line} {g : Glyph}
    (h : part ++ [g] <+: line ++ more) :
    part ++ [g] <+: line ∨ ∃ inner, part = line ++ inner ∧ inner ++ [g] <+: more := by
  rcases List.prefix_or_prefix_of_prefix h (List.prefix_append line more) with hpart | ⟨rest, hrest⟩
  · exact Or.inl hpart
  · rcases List.eq_nil_or_concat rest with rfl | ⟨inner, last, rfl⟩
    · rw [List.append_nil] at hrest
      exact Or.inl ⟨[], by rw [hrest, List.append_nil]⟩
    · rw [List.concat_eq_append] at hrest
      rw [← hrest, List.prefix_append_right_inj] at h
      rw [← List.append_assoc] at hrest
      obtain ⟨hpart, hlast⟩ := List.append_inj' hrest rfl
      obtain rfl : last = g := by simpa using hlast
      exact Or.inr ⟨inner, hpart.symm, h⟩

/-- The start of a line up to a glyph that is not blank is a start of its bare part. -/
theorem prefix_bare {part line : Line} {g : Glyph} (h : part ++ [g] <+: line)
    (hg : isBlankGlyph g = false) : part ++ [g] <+: line.bare := by
  obtain ⟨blanks, hline, hblank, -⟩ := exists_bare_append line
  rw [hline] at h
  rcases concat_prefix_append_cases h with hbare | ⟨inner, -, hinner⟩
  · exact hbare
  · rw [hblank g (hinner.subset (by simp))] at hg
    cases hg

/-- Too many blanks at the end are all that is trimmed. -/
theorem exists_trimExcess_append (limit : Nat) (line : Line) :
    ∃ blanks, line = trimExcess limit line ++ blanks ∧ ∀ g ∈ blanks, isBlankGlyph g = true := by
  obtain ⟨blanks, hline, hblank, hlength⟩ := exists_bare_append line
  let count := min (line.reverse.takeWhile isBlankGlyph).length (line.length - limit)
  refine ⟨line.drop (line.length - count), (List.take_append_drop _ line).symm, ?_⟩
  intro g hg
  have hlong : line.length = line.bare.length + blanks.length := by
    rw [← List.length_append, ← hline]
  have hcount : count ≤ blanks.length := by
    rw [hlength]
    exact Nat.min_le_left _ _
  have hdrop (n : Nat) (hn : line.bare.length ≤ n) :
      line.drop n = blanks.drop (n - line.bare.length) := by
    calc
      line.drop n = (line.bare ++ blanks).drop n := by rw [← hline]
      _ = blanks.drop (n - line.bare.length) := by
        rw [List.drop_append, List.drop_eq_nil_of_le hn, List.nil_append]
  rw [hdrop _ (by omega)] at hg
  exact hblank g (List.mem_of_mem_drop hg)

/-! ## Room for everything but blanks -/

/-- Everything but blanks ends within so many columns. -/
def EndsWithin (limit : Nat) (line : Line) : Prop :=
  ∀ part g, part ++ [g] <+: line → isBlankGlyph g = false → width (part ++ [g]) ≤ limit

/-- The empty line has room. -/
theorem endsWithin_nil (limit : Nat) : EndsWithin limit [] := by
  intro part g hpart
  exact absurd (List.prefix_nil.mp hpart) (by simp)

/-- The start of a line ends where the line does. -/
theorem EndsWithin.of_prefix {limit : Nat} {part line : Line} (h : EndsWithin limit line)
    (hpart : part <+: line) : EndsWithin limit part :=
  fun before g hg => h before g (hg.trans hpart)

/-- A line with a bare part that has room has room. -/
theorem endsWithin_of_bare {limit : Nat} {line : Line} (h : line.IsInert)
    (hbare : line.bare.width ≤ limit) : EndsWithin limit line := by
  intro part g hpart hg
  obtain ⟨blanks, hline, -, -⟩ := exists_bare_append line
  have hsubset : line.bare ⊆ line := fun x hx => hline ▸ List.mem_append_left blanks hx
  have hinert : line.bare.IsInert := h.of_subset hsubset
  exact (hinert.width_le (prefix_bare hpart hg)).trans hbare

/-- A line that has room has room. -/
theorem endsWithin_of_width {limit : Nat} {line : Line} (h : line.IsInert)
    (hwidth : line.width ≤ limit) : EndsWithin limit line :=
  fun _ _ hpart _ => (h.width_le hpart).trans hwidth

/-- A line goes on with a word as far as there is room for its bare part. -/
theorem EndsWithin.append {limit : Nat} {line word : Line} (h : EndsWithin limit line)
    (hline : line.IsInert) (hword : word.IsInert) (hroom : line.width + word.bare.width ≤ limit) :
    EndsWithin limit (line ++ word) := by
  intro part g hpart hg
  rcases concat_prefix_append_cases hpart with hbefore | ⟨inner, rfl, hinner⟩
  · exact h part g hbefore hg
  · have hbare := endsWithin_of_bare hword (Nat.le_refl _) inner g hinner hg
    rw [List.append_assoc, width_append hline (hword.of_subset hinner.subset)]
    omega

/-! ## Cutting off -/

variable {shows : Char → Bool}

/-- What is shown of a line, if some characters are not. -/
def spelled (shows : Char → Bool) (line : Line) : List Char := (line.map Glyph.char).filter shows

/-- What is shown of a line in two parts is shown of both. -/
theorem spelled_append (line more : Line) :
    spelled shows (line ++ more) = spelled shows line ++ spelled shows more := by
  simp [spelled]

/-- Nothing is shown of blanks. -/
theorem spelled_of_blank (hblank : ∀ c, isBlank c = true → shows c = false) {line : Line}
    (h : ∀ g ∈ line, isBlankGlyph g = true) : spelled shows line = [] := by
  rw [spelled, List.filter_eq_nil_iff]
  intro c hc
  obtain ⟨g, hg, rfl⟩ := List.mem_map.mp hc
  rw [hblank g.char (h g hg)]
  exact Bool.false_ne_true

/-- A cluster of inert characters has the width of its members. -/
theorem width_members {cluster : Cluster Glyph} (h : cluster.IsMarked Glyph.char)
    (hinert : IsInert cluster.members) : width cluster.members = cluster.width := by
  rw [width_of_inert hinert, h.total_columnsOf]

/-- If already the first cluster of a line has too little room, the line is blank. -/
theorem isBlankGlyph_of_wide_start {limit : Nat} {cluster : Cluster Glyph} {line : Line}
    (hcluster : cluster.IsMarked Glyph.char) (hstart : cluster.members <+: line)
    (hinert : line.IsInert) (hends : EndsWithin limit line) (hwide : limit < cluster.width) :
    ∀ g ∈ line, isBlankGlyph g = true := by
  intro g hg
  by_contra hshown
  rw [Bool.not_eq_true] at hshown
  obtain ⟨before, behind, hsplit⟩ := List.append_of_mem hg
  have hpart : before ++ [g] <+: line := ⟨behind, by rw [hsplit]; simp⟩
  -- the first character of the cluster takes its columns and stands before the end of `g`
  have hfirst : cluster.width ≤ width (before ++ [g]) := by
    obtain ⟨a, marks, hmembers, -, hwidth⟩ := hcluster
    have ha : [a] <+: line := List.IsPrefix.trans ⟨marks, by rw [hmembers]; rfl⟩ hstart
    have hinside : [a] <+: before ++ [g] := List.prefix_of_prefix_length_le ha hpart (by simp)
    have hle := (hinert.of_subset hpart.subset).width_le hinside
    rw [width_of_inert (hinert.of_subset ha.subset)] at hle
    simpa [hwidth] using hle
  have hlate := hends before g hpart hshown
  omega

/-- Clusters are cut off only if they are blank. -/
theorem spelled_takeClusters (hblank : ∀ c, isBlank c = true → shows c = false) {limit : Nat}
    {clusters : List (Cluster Glyph)} (hmarked : ∀ cluster ∈ clusters, cluster.IsMarked Glyph.char)
    (hinert : IsInert (clusters.flatMap Cluster.members))
    (hends : EndsWithin limit (clusters.flatMap Cluster.members)) :
    spelled shows (takeClusters limit clusters) =
      spelled shows (clusters.flatMap Cluster.members) := by
  induction clusters generalizing limit with
  | nil => rfl
  | cons cluster rest ih =>
    obtain ⟨hcluster, hrest⟩ := List.forall_mem_cons.mp hmarked
    rw [List.flatMap_cons] at hinert hends ⊢
    have hmembers : IsInert cluster.members := hinert.of_subset (List.subset_append_left _ _)
    have hothers : IsInert (rest.flatMap Cluster.members) :=
      hinert.of_subset (List.subset_append_right _ _)
    by_cases hfits : cluster.width ≤ limit
    · have hrestEnds : EndsWithin (limit - cluster.width) (rest.flatMap Cluster.members) := by
        intro part g hpart hg
        have hwhole := hends (cluster.members ++ part) g
          (by rw [List.append_assoc]; exact List.prefix_append_right_inj _ |>.mpr hpart) hg
        rw [List.append_assoc, width_append hmembers (hothers.of_subset hpart.subset),
          width_members hcluster hmembers] at hwhole
        omega
      rw [takeClusters, if_pos hfits, spelled_append, spelled_append,
        ih hrest hothers hrestEnds]
    · have hall := isBlankGlyph_of_wide_start hcluster (List.prefix_append _ _) hinert hends
        (Nat.lt_of_not_le hfits)
      have htaken : spelled shows (takeClusters limit (cluster :: rest)) = [] := by
        rw [takeClusters, if_neg hfits]
        split
        · rfl
        · apply spelled_of_blank hblank
          intro g hg
          obtain ⟨g', -, rfl⟩ := List.mem_map.mp hg
          show isBlank ' ' = true
          decide
      rw [htaken, spelled_of_blank hblank hall]

/-- A line that has room for everything but blanks loses nothing else. -/
theorem spelled_cut (hblank : ∀ c, isBlank c = true → shows c = false) {limit : Nat} {line : Line}
    (h : line.IsInert) (hends : EndsWithin limit line) :
    spelled shows (cut limit line) = spelled shows line := by
  unfold cut
  split
  · rfl
  · have hmembers : line.clusters.flatMap Cluster.members = line := flatMap_members_clusters _ _
    have hmarked : ∀ cluster ∈ line.clusters, cluster.IsMarked Glyph.char :=
      fun _ hcluster => isMarked_of_mem_clusters h hcluster
    rw [spelled_takeClusters hblank hmarked, hmembers]
    · rwa [hmembers]
    · rwa [hmembers]

/-- What is trimmed and cut off of such a line is blank. -/
theorem spelled_cut_trimExcess (hblank : ∀ c, isBlank c = true → shows c = false) {limit : Nat}
    {line : Line} (h : line.IsInert) (hends : EndsWithin limit line) :
    spelled shows (cut limit (trimExcess limit line)) = spelled shows line := by
  obtain ⟨blanks, hline, hblanks⟩ := exists_trimExcess_append limit line
  have htrimmed : trimExcess limit line <+: line := ⟨blanks, hline.symm⟩
  have hwhole : spelled shows line = spelled shows (trimExcess limit line ++ blanks) := by
    rw [← hline]
  rw [spelled_cut hblank (h.of_subset htrimmed.subset) (hends.of_prefix htrimmed), hwhole,
    spelled_append, spelled_of_blank hblank hblanks, List.append_nil]

/-! ## Filling lines with words -/

/-- Chunks behind a chunk that is begun make up the word, and none is too wide. -/
theorem chunksFrom_spec {limit : Nat} {clusters : List (Cluster Glyph)}
    (hmarked : ∀ cluster ∈ clusters, cluster.IsMarked Glyph.char)
    (hinert : IsInert (clusters.flatMap Cluster.members)) (hwide : 2 ≤ limit) {chunk : Line}
    (hchunk : chunk.IsInert) (hused : chunk.width ≤ limit) :
    (chunksFrom limit chunk chunk.width clusters).flatten =
        chunk ++ clusters.flatMap Cluster.members ∧
      ∀ piece ∈ chunksFrom limit chunk chunk.width clusters,
        piece.IsInert ∧ piece.width ≤ limit := by
  induction clusters generalizing chunk with
  | nil => simp [chunksFrom, hchunk, hused]
  | cons cluster rest ih =>
    obtain ⟨hcluster, hrest⟩ := List.forall_mem_cons.mp hmarked
    rw [List.flatMap_cons] at hinert
    have hmembers : IsInert cluster.members := hinert.of_subset (List.subset_append_left _ _)
    have hothers : IsInert (rest.flatMap Cluster.members) :=
      hinert.of_subset (List.subset_append_right _ _)
    have hwidth := width_members hcluster hmembers
    have hsmall : cluster.width ≤ 2 := by
      obtain ⟨a, -, -, -, ha⟩ := hcluster
      rw [ha]
      exact columnsOf_le_two a.char
    rw [chunksFrom, ← hwidth]
    split
    · obtain ⟨hflat, hall⟩ := ih hrest hothers hmembers (by omega)
      exact ⟨by simp [hflat], List.forall_mem_cons.mpr ⟨⟨hchunk, hused⟩, hall⟩⟩
    · have hsum := width_append hchunk hmembers
      rw [← hsum]
      obtain ⟨hflat, hall⟩ := ih hrest hothers (hchunk.append hmembers) (by omega)
      exact ⟨by simp [hflat], hall⟩

/-- The chunks of a word make up the word, and none is too wide. -/
theorem chop_spec {limit : Nat} (hwide : 2 ≤ limit) {word : Line} (h : word.IsInert) :
    (chop limit word).flatten = word ∧
      ∀ piece ∈ chop limit word, piece.IsInert ∧ piece.width ≤ limit := by
  have hmembers : word.clusters.flatMap Cluster.members = word := flatMap_members_clusters _ _
  have hmarked : ∀ cluster ∈ word.clusters, cluster.IsMarked Glyph.char :=
    fun _ hcluster => isMarked_of_mem_clusters h hcluster
  have hempty : IsInert [] := List.forall_mem_nil _
  obtain ⟨hflat, hall⟩ := chunksFrom_spec hmarked (by rwa [hmembers]) hwide hempty (Nat.zero_le _)
  rw [hmembers] at hflat
  exact ⟨hflat, hall⟩

namespace Filling

/-- What filling lines keeps: every line has room for everything but blanks, and the columns that
count as used are those of the line that is being filled. -/
structure Roomy (limit : Nat) (f : Filling) : Prop where
  full : ∀ line ∈ f.full, line.IsInert ∧ EndsWithin limit line
  inert : f.current.IsInert
  current : EndsWithin limit f.current
  used : f.used = f.current.width

variable {limit : Nat} {f : Filling}

/-- At the start there is room. -/
theorem roomy_nil (limit : Nat) : Roomy limit {} :=
  ⟨List.forall_mem_nil _, List.forall_mem_nil _, endsWithin_nil limit, rfl⟩

/-- A piece that has room of its own is put on a new line. -/
theorem Roomy.begin (h : f.Roomy limit) {piece : Line} (hpiece : piece.IsInert)
    (hends : EndsWithin limit piece) :
    (f.begin piece).Roomy limit ∧ (f.begin piece).lines.flatten = f.lines.flatten ++ piece := by
  unfold Filling.begin next
  split
  · rename_i hempty
    exact ⟨⟨h.full, hpiece, hends, rfl⟩, by simp [lines, hempty]⟩
  · refine ⟨⟨?_, hpiece, hends, rfl⟩, by simp [lines]⟩
    intro line hline
    rcases List.mem_append.mp hline with hline | hline
    · exact h.full line hline
    · rw [List.mem_singleton.mp hline]
      exact ⟨h.inert, h.current⟩

/-- So are any number of them, one after the other. -/
theorem Roomy.foldl_begin (h : f.Roomy limit) {pieces : List Line}
    (hpieces : ∀ piece ∈ pieces, piece.IsInert ∧ piece.width ≤ limit) :
    (pieces.foldl Filling.begin f).Roomy limit ∧
      (pieces.foldl Filling.begin f).lines.flatten = f.lines.flatten ++ pieces.flatten := by
  induction pieces generalizing f with
  | nil => exact ⟨h, by simp⟩
  | cons piece pieces ih =>
    obtain ⟨⟨hpiece, hwidth⟩, hrest⟩ := List.forall_mem_cons.mp hpieces
    obtain ⟨hbegun, hflat⟩ := h.begin hpiece (endsWithin_of_width hpiece hwidth)
    obtain ⟨hroomy, hall⟩ := ih hbegun hrest
    refine ⟨hroomy, ?_⟩
    rw [List.foldl_cons, hall, hflat, List.append_assoc, List.flatten_cons]

/-- A word is added with room for everything but its blanks. -/
theorem Roomy.add (h : f.Roomy limit) (hwide : 2 ≤ limit) {word : Line} (hword : word.IsInert) :
    (f.add limit word).Roomy limit ∧
      (f.add limit word).lines.flatten = f.lines.flatten ++ word := by
  unfold Filling.add
  split
  · rename_i hfits
    rw [h.used] at hfits
    have hcurrent := h.current.append h.inert hword hfits
    refine ⟨⟨h.full, h.inert.append hword, hcurrent, ?_⟩, by simp [lines]⟩
    show f.used + word.width = width (f.current ++ word)
    rw [width_append h.inert hword, h.used]
  · split
    · obtain ⟨hflat, hpieces⟩ := chop_spec hwide hword
      obtain ⟨hroomy, hall⟩ := h.foldl_begin hpieces
      exact ⟨hroomy, by rw [hall, hflat]⟩
    · rename_i hshort
      exact h.begin hword (endsWithin_of_bare hword (Nat.le_of_not_lt hshort))

/-- So is any number of words. -/
theorem Roomy.foldl_add (h : f.Roomy limit) (hwide : 2 ≤ limit) {words : List Line}
    (hwords : ∀ word ∈ words, word.IsInert) :
    (words.foldl (Filling.add limit) f).Roomy limit ∧
      (words.foldl (Filling.add limit) f).lines.flatten = f.lines.flatten ++ words.flatten := by
  induction words generalizing f with
  | nil => exact ⟨h, by simp⟩
  | cons word words ih =>
    obtain ⟨hword, hrest⟩ := List.forall_mem_cons.mp hwords
    obtain ⟨hadded, hflat⟩ := h.add hwide hword
    obtain ⟨hroomy, hall⟩ := ih hadded hrest
    refine ⟨hroomy, ?_⟩
    rw [List.foldl_cons, hall, hflat, List.append_assoc, List.flatten_cons]

end Filling

/-! ## Wrapping -/

/-- The words of a line that has any make up the line. -/
theorem flatten_words {line : Line} (h : line.words ≠ []) : line.words.flatten = line := by
  have hflat := List.flatten_splitBy (fun g h => !(isBlankGlyph g && !isBlankGlyph h)) line
  unfold words at h ⊢
  split
  · rename_i first second rest hsplit
    rw [hsplit] at hflat
    split
    · rw [← hflat]
      simp
    · exact hflat
  · rename_i only hsplit
    rw [hsplit] at hflat h
    split
    · rename_i hall
      simp [hall] at h
    · exact hflat
  · rename_i hsplit
    rw [hsplit] at h
    exact absurd rfl h

/-- A line without words is blank. -/
theorem isBlankGlyph_of_words_eq_nil {line : Line} (h : line.words = []) :
    ∀ g ∈ line, isBlankGlyph g = true := by
  have hflat := List.flatten_splitBy (fun g h => !(isBlankGlyph g && !isBlankGlyph h)) line
  unfold words at h
  split at h
  · split at h <;> cases h
  · rename_i only hsplit
    rw [hsplit, List.flatten_singleton] at hflat
    rw [← hflat]
    split at h
    · rename_i hall
      exact List.all_eq_true.mp hall
    · cases h
  · rename_i hsplit
    rw [hsplit] at hflat
    rw [← hflat]
    exact List.forall_mem_nil _

/-- Lines with room for everything but blanks show what they show when they are trimmed and cut. -/
theorem flatMap_spelled_map_cut (hblank : ∀ c, isBlank c = true → shows c = false) {limit : Nat}
    {lines : List Line} (h : ∀ line ∈ lines, line.IsInert ∧ EndsWithin limit line) :
    (lines.map fun line => cut limit (trimExcess limit line)).flatMap (spelled shows) =
      spelled shows lines.flatten := by
  induction lines with
  | nil => rfl
  | cons line lines ih =>
    obtain ⟨⟨hline, hends⟩, hrest⟩ := List.forall_mem_cons.mp h
    rw [List.map_cons, List.flatMap_cons, ih hrest, spelled_cut_trimExcess hblank hline hends,
      List.flatten_cons, spelled_append]

/-- **Wrapping loses nothing but blanks.** The wrapped lines show what the line shows, if no blank
is shown and there is room for a wide character. -/
theorem flatMap_spelled_wrap (hblank : ∀ c, isBlank c = true → shows c = false) {limit : Nat}
    (hwide : 2 ≤ limit) {line : Line} (h : line.IsInert) :
    (wrap limit line).flatMap (spelled shows) = spelled shows line := by
  unfold wrap
  cases hwords : line.words with
  | nil =>
    have hends : EndsWithin limit line := by
      intro part g hpart hg
      rw [isBlankGlyph_of_words_eq_nil hwords g (hpart.subset (by simp))] at hg
      cases hg
    have hlines := flatMap_spelled_map_cut hblank (List.forall_mem_singleton.mpr ⟨h, hends⟩)
    rwa [List.flatten_singleton] at hlines
  | cons word words =>
    have hflat := flatten_words (by rw [hwords]; exact List.cons_ne_nil _ _)
    rw [hwords] at hflat
    have hinert : ∀ part ∈ word :: words, part.IsInert := by
      intro part hpart g hg
      exact h g (hflat ▸ List.mem_flatten_of_mem hpart hg)
    obtain ⟨hroomy, hall⟩ := (Filling.roomy_nil limit).foldl_add hwide hinert
    have hlines : ∀ part ∈ ((word :: words).foldl (Filling.add limit) {}).lines,
        part.IsInert ∧ EndsWithin limit part := by
      intro part hpart
      rcases List.mem_append.mp hpart with hpart | hpart
      · exact hroomy.full part hpart
      · rw [List.mem_singleton.mp hpart]
        exact ⟨hroomy.inert, hroomy.current⟩
    have hwrapped := flatMap_spelled_map_cut hblank hlines
    rw [hall, hflat] at hwrapped
    exact hwrapped

end ScriptAudit.Report.Line
