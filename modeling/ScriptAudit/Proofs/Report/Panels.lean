import ScriptAudit.Proofs.Report.Layout
import ScriptAudit.Proofs.Report.Legibility
import ScriptAudit.Proofs.Report.Wrapping

/-!
# What panels show

A panel shows its title and its text, and otherwise only blanks and the characters of its frame. So
whoever looks only at characters that are neither sees the title and then the text, in order, if the
panel has room for them. The header of a file shows its path in this way, and a summary its numbers
with the words behind them.

The argument follows the text on its way into the panel: the markup is read, lines are split and
tabs become blanks, the lines are wrapped, and each is put between the sides of the frame. Each step
adds and drops nothing but blanks and parts of the frame.
-/

set_option autoImplicit false

namespace ScriptAudit.Report

open ScriptAudit.Text

/-! ## The text of a markup -/

namespace Markup

/-- The characters that a markup stands for. -/
def plainText (cs : List Char) : List Char := (tokensFrom 0 (pieces cs)).filterMap Token.char?

/-- The text of a passage is that of its markup. -/
theorem text_ofMarkup (markup : String) :
    (Passage.ofMarkup markup).text = plainText markup.toList := rfl

/-- No characters stand for none. -/
theorem plainText_nil : plainText [] = [] := by
  simp [plainText, pieces, tokensFrom]

/-- The characters of plain tokens. -/
theorem filterMap_char?_plainTokens (cs : List Char) :
    (plainTokens cs).filterMap Token.char? = cs.filter fun c => !isCursorControl c := by
  rw [plainTokens, List.filterMap_map]
  exact List.filterMap_some

/-- A tag stands for no characters. -/
theorem plainText_tag {body : List Char} (h : IsBody body) (rest : List Char) :
    plainText ((Piece.tag 0 body).text ++ rest) = plainText rest := by
  rw [plainText, pieces_tag h, tokensFrom]
  exact filterMap_char?_tokensFrom _ 0 _

/-- Plain characters stand for themselves. -/
theorem plainText_append {cs : List Char} (h : Avoids '\\' '[' cs) (rest : List Char) :
    plainText (cs ++ rest) = cs.filter (fun c => !isCursorControl c) ++ plainText rest := by
  rw [plainText, pieces_append_of_plain h, tokensFrom_append_of_plain h, List.filterMap_append,
    filterMap_char?_plainTokens, filterMap_char?_tokensFrom _ 0, plainText]

/-- An escaped text without backslashes stands for itself in front of a tag. -/
theorem plainText_escape_tag {s : String} (hslash : '\\' ∉ s.toList) {body : List Char}
    (hbody : IsBody body) (rest : List Char) :
    plainText ((escape s).toList ++ ((Piece.tag 0 body).text ++ rest)) =
      s.toList.filter (fun c => !isCursorControl c) ++ plainText rest := by
  have hliteral : ∀ p ∈ (pieces s.toList).map Piece.guarded, p.IsLiteral := by
    intro p hp
    obtain ⟨q, -, rfl⟩ := List.mem_map.mp hp
    exact q.isLiteral_guarded
  obtain ⟨behind, htokens⟩ := tokensFrom_append_tag hliteral 0 0 body (pieces rest)
  rw [plainText, toList_escape_of_no_slash hslash, pieces_escapedPieces_tag hslash hbody, htokens,
    List.filterMap_append, filterMap_char?_plainTokens, shownPieces_map_guarded_pieces hslash,
    tokensFrom]
  congr 1
  exact filterMap_char?_tokensFrom _ 0 _

end Markup

/-! ## Lines of a text -/

namespace Line

variable {shows : Char → Bool}

/-- A line feed is not shown, so nothing shown is lost when a text is split. -/
theorem flatMap_spelled_split (hblank : ∀ c, isBlank c = true → shows c = false) (gs : List Glyph) :
    (split gs).flatMap (spelled shows) = spelled shows gs := by
  have hnewline : shows '\n' = false := hblank '\n' (by decide)
  have hlines := congrArg (List.filter shows) (flatMap_split gs)
  show (split gs).flatMap (fun line => (line.map Glyph.char).filter shows) =
    (gs.map Glyph.char).filter shows
  simpa [List.filter_flatMap, hnewline] using hlines

/-- A tab becomes blanks, so nothing shown is lost when tabs are expanded. -/
theorem spelled_expandTabsFrom (hblank : ∀ c, isBlank c = true → shows c = false) (part : Line)
    (tabs : Nat) (line : Line) :
    spelled shows (expandTabsFrom part tabs line) = spelled shows part ++ spelled shows line := by
  have htab : shows '\t' = false := hblank '\t' (by decide)
  fun_induction expandTabsFrom part tabs line with
  | case1 => simp [spelled]
  | case2 part tabs g rest g' hg ih =>
    have hblanks : spelled shows (tabBlanks part g') = [] := by
      apply spelled_of_blank hblank
      intro x hx
      rw [(List.mem_replicate.mp hx).2]
      show isBlank ' ' = true
      decide
    have hg : g.char = '\t' := hg
    rw [spelled_append, spelled_append, hblanks, ih]
    simp [spelled, hg, htab]
  | case3 part tabs g rest g' hg ih =>
    rw [ih, spelled_append, List.append_assoc]
    congr 1
    simp only [spelled, List.map_cons, List.map_nil, List.filter_cons, List.filter_nil]
    split <;> rfl

/-- The lines of a text of inert characters are inert. -/
theorem isInert_of_mem_ofMarkup {markup : String}
    (h : ∀ c ∈ (Passage.ofMarkup markup).text, Text.IsInert c) {line : Line}
    (hline : line ∈ ofMarkup markup) : line.IsInert := by
  obtain ⟨raw, hraw, rfl⟩ := List.mem_map.mp hline
  have hblank : Text.IsInert ' ' := by decide
  apply forall_mem_expandTabsFrom hblank (List.forall_mem_nil _)
  intro g hg
  apply h
  rw [← Passage.map_char_glyphs]
  exact List.mem_map_of_mem (of_mem_split hraw hg).1

/-- The lines of a markup show its text. -/
theorem flatMap_spelled_ofMarkup (hblank : ∀ c, isBlank c = true → shows c = false)
    (markup : String) :
    (ofMarkup markup).flatMap (spelled shows) = (Passage.ofMarkup markup).text.filter shows := by
  have hexpand (line : Line) : spelled shows line.expandTabs = spelled shows line := by
    rw [expandTabs, spelled_expandTabsFrom hblank]
    rfl
  rw [ofMarkup, List.flatMap_map]
  simp only [hexpand]
  rw [flatMap_spelled_split hblank, spelled, Passage.map_char_glyphs]

end Line

/-! ## Frames -/

/-- What is shown of a text, if some characters are not. -/
def seen (shows : Char → Bool) (s : String) : List Char := s.toList.filter shows

variable {shows : Char → Bool}

/-- What is shown of two texts is shown of both together. -/
theorem seen_append (s t : String) : seen shows (s ++ t) = seen shows s ++ seen shows t := by
  simp [seen, String.toList_append]

/-- What is shown of texts is shown of them together. -/
theorem seen_join (texts : List String) :
    seen shows (String.join texts) = texts.flatMap (seen shows) := by
  rw [seen, String.toList_join, List.filter_flatMap]
  rfl

/-- Nothing of the frame is shown. -/
def Box.IsHidden (shows : Char → Bool) (box : Box) : Prop :=
  ∀ part ∈ [box.topLeft, box.top, box.topRight, box.left, box.right, box.bottomLeft, box.bottom,
    box.bottomRight], seen shows part = []

instance (shows : Char → Bool) (box : Box) : Decidable (box.IsHidden shows) :=
  inferInstanceAs (Decidable (∀ part ∈ _, seen shows part = []))

namespace Panel

/-- Without colours a part of the frame is written as it is. -/
theorem frame_plain (panel : Panel) (s : String) : panel.frame false s = s := by
  simp [frame, Line.shown, Line.ofText, Function.comp_def]

/-- Nothing is shown of a text repeated if nothing is shown of it once. -/
theorem seen_repeated {s : String} (h : seen shows s = []) (n : Nat) :
    seen shows (repeated n s) = [] := by
  rw [repeated, seen_join, List.flatMap_eq_nil_iff]
  intro t ht
  rw [(List.mem_replicate.mp ht).2, h]

/-- Nothing is shown of an edge. -/
theorem seen_edge (panel : Panel) (width : Nat) {left middle right : String}
    (hleft : seen shows left = []) (hmiddle : seen shows middle = [])
    (hright : seen shows right = []) :
    seen shows (panel.edge width false left middle right) = [] := by
  have hfull : seen shows (left ++ repeated (width - 2) middle ++ right) = [] := by
    rw [seen_append, seen_append, hleft, hright, seen_repeated hmiddle]
    rfl
  have htake := ((List.take_sublist width
    (left ++ repeated (width - 2) middle ++ right).toList).filter shows)
  rw [edge, frame_plain, seen, String.toList_ofList]
  exact List.sublist_nil.mp (hfull ▸ htake)

/-- A line between the sides of the frame shows what the line shows. -/
theorem seen_middle {panel : Panel} (hbox : panel.box.IsHidden shows)
    (hblank : ∀ c, isBlank c = true → shows c = false) (width : Nat) (line : Line) :
    seen shows (panel.middle width false line) = line.spelled shows := by
  have hspace : seen shows " " = [] := by simp [seen, hblank ' ' (by decide)]
  have hleft : seen shows panel.box.left = [] := hbox _ (by simp)
  have hright : seen shows panel.box.right = [] := hbox _ (by simp)
  have hline : seen shows (line.shown false) = line.spelled shows := by
    simp [seen, Line.shown, Line.spelled]
  simp [middle, frame_plain, seen_append, hleft, hright, hspace, hline, seen_repeated hspace]

/-- **A panel shows its text.** Without colours all that is shown of a panel is what its upper edge
shows and, behind it, the text of its markup, if nothing of the frame and no blank is shown, no
character of the text acts on its neighbours, and there is room for a wide one. -/
theorem seen_shown {panel : Panel} (hbox : panel.box.IsHidden shows)
    (hblank : ∀ c, isBlank c = true → shows c = false) {width : Nat} (hroom : margin + 2 ≤ width)
    (hinert : ∀ c ∈ (Passage.ofMarkup panel.text).text, Text.IsInert c) :
    seen shows (panel.shown width false) =
      seen shows (panel.upper width false) ++ (Passage.ofMarkup panel.text).text.filter shows := by
  have hfeed : seen shows "\n" = [] := by simp [seen, hblank '\n' (by decide)]
  have hlower : seen shows (panel.lower width false) = [] :=
    panel.seen_edge width (hbox _ (by simp)) (hbox _ (by simp)) (hbox _ (by simp))
  have hcontent : (panel.content width).flatMap (Line.spelled shows) =
      (Passage.ofMarkup panel.text).text.filter shows := by
    have hwide : 2 ≤ width - margin := Nat.le_sub_of_add_le' hroom
    rw [content, if_neg (by omega), List.flatMap_assoc, ← Line.flatMap_spelled_ofMarkup hblank]
    apply List.flatMap_congr
    intro line hline
    exact Line.flatMap_spelled_wrap hblank hwide (Line.isInert_of_mem_ofMarkup hinert hline)
  rw [shown, seen_join, List.flatMap_map, lines, List.flatMap_cons, List.flatMap_append,
    List.flatMap_map, List.flatMap_singleton]
  simp only [seen_append, hfeed, hlower, List.append_nil, seen_middle hbox hblank, hcontent]

/-- Nothing is shown of an upper edge without a title. -/
theorem seen_upper_of_none {panel : Panel} (hbox : panel.box.IsHidden shows)
    (htitle : panel.title = none) (width : Nat) : seen shows (panel.upper width false) = [] := by
  rw [upper, htitle]
  exact panel.seen_edge width (hbox _ (by simp)) (hbox _ (by simp)) (hbox _ (by simp))

/-- An upper edge shows a title for which there is room. -/
theorem seen_upper_of_some {panel : Panel} (hbox : panel.box.IsHidden shows)
    (hblank : ∀ c, isBlank c = true → shows c = false) {title : String}
    (htitle : panel.title = some title) {width : Nat} (hmargin : margin < width)
    (hroom : (Line.ofText {} (" " ++ title ++ " ")).width ≤ width - margin) :
    seen shows (panel.upper width false) = seen shows title := by
  have hspace : seen shows " " = [] := by simp [seen, hblank ' ' (by decide)]
  have htop : seen shows panel.box.top = [] := hbox _ (by simp)
  have hleft : seen shows panel.box.topLeft = [] := hbox _ (by simp)
  have hright : seen shows panel.box.topRight = [] := hbox _ (by simp)
  have hplain : (Line.ofText {} (" " ++ title ++ " ")).shown false = " " ++ title ++ " " := by
    simp [Line.shown, Line.ofText, Function.comp_def, String.append_assoc]
  rw [upper, htitle]
  simp only [hmargin, if_true, titled, Line.cut, hroom, hplain, seen_join]
  simp [frame_plain, seen_append, hspace, htop, hleft, hright, seen_repeated htop]

end Panel

/-! ## Headers -/

/-- A character that leaves a mark on a line: neither a blank nor one that would move the cursor. -/
def isMark (c : Char) : Bool := !isBlank c && !Markup.isCursorControl c

/-- **A header shows the path of its file.** Without colours the marks of a header are those of the
path as it is shown, if that holds no backslash and no character that acts on its neighbours. -/
theorem Console.seen_header (console : Console) (path : Path) {width : Nat}
    (hroom : Panel.margin + 2 ≤ width)
    (hplain : ∀ c ∈ (Path.shownFrom console.workingDirectory path).toList,
      c ≠ '\\' ∧ Text.IsInert c) :
    seen isMark ((console.header path).shown width false) =
      seen isMark (Path.shownFrom console.workingDirectory path) := by
  let name := Path.shownFrom console.workingDirectory path
  have hblank (c : Char) (hc : isBlank c = true) : isMark c = false := by simp [isMark, hc]
  have hslash : '\\' ∉ name.toList := fun h => (hplain _ h).1 rfl
  have hbox : (console.header path).box.IsHidden isMark := by
    show Box.blank.IsHidden isMark
    decide
  have hopening : Markup.IsBody "bold cyan".toList := ⟨'b', _, rfl, by decide, by decide⟩
  have hclosing : Markup.IsBody "/bold cyan".toList := ⟨'/', _, rfl, by decide, by decide⟩
  have hmarkup : (console.header path).text.toList =
      (Markup.Piece.tag 0 "bold cyan".toList).text ++
        ((Markup.escape name).toList ++ ((Markup.Piece.tag 0 "/bold cyan".toList).text ++ [])) := by
    show ("[bold cyan]" ++ Markup.escape name ++ "[/bold cyan]").toList = _
    simp [String.toList_append, Markup.Piece.text]
  have htext : (Passage.ofMarkup (console.header path).text).text =
      name.toList.filter fun c => !Markup.isCursorControl c := by
    rw [Markup.text_ofMarkup, hmarkup, Markup.plainText_tag hopening,
      Markup.plainText_escape_tag hslash hclosing, Markup.plainText_nil, List.append_nil]
  have hinert : ∀ c ∈ (Passage.ofMarkup (console.header path).text).text, Text.IsInert c := by
    intro c hc
    rw [htext] at hc
    exact (hplain c (List.mem_of_mem_filter hc)).2
  rw [Panel.seen_shown hbox hblank hroom hinert, Panel.seen_upper_of_none hbox rfl, List.nil_append,
    htext, List.filter_filter]
  apply List.filter_congr
  intro c _
  simp [isMark]

/-! ## Summaries -/

namespace Markup

/-- Plain characters between an opening and a closing tag. -/
def styled (opening closing : String) (cs : List Char) : List Char :=
  (Piece.tag 0 opening.toList).text ++ (cs ++ (Piece.tag 0 closing.toList).text)

/-- Tags around plain characters stand for no characters. -/
theorem plainText_styled {opening closing : String} (hopening : IsBody opening.toList)
    (hclosing : IsBody closing.toList) {cs : List Char} (h : Avoids '\\' '[' cs)
    (rest : List Char) :
    plainText (styled opening closing cs ++ rest) =
      cs.filter (fun c => !isCursorControl c) ++ plainText rest := by
  rw [styled, List.append_assoc, List.append_assoc, plainText_tag hopening, plainText_append h,
    plainText_tag hclosing]

end Markup

namespace Counts

/-- How many findings there are. -/
def findings (counts : Counts) : List Char :=
  (toString counts.total).toList ++
    if counts.total = 1 then " finding".toList else " findings".toList

/-- How many findings of a severity there are. -/
def share (counts : Counts) (severity : Severity) : List Char :=
  (toString (counts.of severity)).toList ++ (" ".toList ++ severity.name.toList)

/-- A share behind a bar, unless there is none. -/
def barred (counts : Counts) (severity : Severity) (form : List Char → List Char) : List Char :=
  if counts.of severity = 0 then [] else " | ".toList ++ form (counts.share severity)

/-- The markup of a summary. -/
theorem toList_summary (counts : Counts) :
    counts.summary.text.toList =
      Markup.styled "bold" "/bold" counts.findings ++
        (counts.barred .warning (Markup.styled "red" "/") ++
          (counts.barred .info (Markup.styled "yellow" "/") ++ [])) := by
  by_cases hwarning : counts.of .warning = 0 <;> by_cases hinfo : counts.of .info = 0 <;>
    by_cases hone : counts.total = 1 <;>
    simp [summary, barred, hwarning, hinfo, hone, findings, share, Markup.styled, Markup.Piece.text,
      String.toList_append]

/-- The characters that a summary is written with. -/
def alphabet : List Char := "0123456789 |abcdefghijklmnopqrstuvwxyz".toList

/-- A number is written with characters of the alphabet. -/
theorem toString_subset_alphabet (n : Nat) : (toString n).toList ⊆ alphabet := by
  intro c hc
  rw [toList_toString] at hc
  apply of_isDigitOf_ten (isDigitOf_of_mem_toDigits (by decide) (by decide) hc)
  decide

/-- The number of findings is written with characters of the alphabet. -/
theorem findings_subset_alphabet (counts : Counts) : counts.findings ⊆ alphabet := by
  refine List.append_subset.mpr ⟨toString_subset_alphabet _, ?_⟩
  have hword : " finding".toList ⊆ alphabet ∧ " findings".toList ⊆ alphabet := by decide
  split
  · exact hword.1
  · exact hword.2

/-- The share of a severity is written with characters of the alphabet. -/
theorem share_subset_alphabet (counts : Counts) (severity : Severity) :
    counts.share severity ⊆ alphabet := by
  refine List.append_subset.mpr ⟨toString_subset_alphabet _, ?_⟩
  cases severity <;> decide

/-- Characters of the alphabet are written as they are. -/
theorem filter_of_subset_alphabet {cs : List Char} (h : cs ⊆ alphabet) :
    cs.filter (fun c => !Markup.isCursorControl c) = cs := by
  have halphabet : alphabet.all (!Markup.isCursorControl ·) = true := by decide
  exact List.filter_eq_self.mpr fun c hc => List.all_eq_true.mp halphabet c (h hc)

/-- Characters of the alphabet between two tags stand for themselves. -/
theorem plainText_styled {opening closing : String} (hopening : Markup.IsBody opening.toList)
    (hclosing : Markup.IsBody closing.toList) {cs : List Char} (h : cs ⊆ alphabet)
    (rest : List Char) :
    Markup.plainText (Markup.styled opening closing cs ++ rest) = cs ++ Markup.plainText rest := by
  have halphabet : Avoids '\\' '[' alphabet := by decide
  rw [Markup.plainText_styled hopening hclosing fun c hc => halphabet c (h hc),
    filter_of_subset_alphabet h]

/-- A share stands for itself and the bar. -/
theorem plainText_barred (counts : Counts) (severity : Severity) {style : String}
    (hstyle : Markup.IsBody style.toList) (rest : List Char) :
    Markup.plainText (counts.barred severity (Markup.styled style "/") ++ rest) =
      counts.barred severity id ++ Markup.plainText rest := by
  have hbar : " | ".toList ⊆ alphabet ∧ Avoids '\\' '[' " | ".toList := by decide
  have hclosing : Markup.IsBody "/".toList := ⟨'/', [], rfl, by decide, by decide⟩
  unfold barred
  split
  · rfl
  · rw [List.append_assoc, Markup.plainText_append hbar.2, filter_of_subset_alphabet hbar.1,
      plainText_styled hstyle hclosing (counts.share_subset_alphabet severity), id,
      List.append_assoc]

/-- The text of a summary. -/
theorem text_summary (counts : Counts) :
    (Passage.ofMarkup counts.summary.text).text =
      counts.findings ++ (counts.barred .warning id ++ counts.barred .info id) := by
  have hbold : Markup.IsBody "bold".toList := ⟨'b', _, rfl, by decide, by decide⟩
  have hplain : Markup.IsBody "/bold".toList := ⟨'/', _, rfl, by decide, by decide⟩
  have hred : Markup.IsBody "red".toList := ⟨'r', _, rfl, by decide, by decide⟩
  have hyellow : Markup.IsBody "yellow".toList := ⟨'y', _, rfl, by decide, by decide⟩
  rw [Markup.text_ofMarkup, toList_summary,
    plainText_styled hbold hplain counts.findings_subset_alphabet,
    plainText_barred counts .warning hred, plainText_barred counts .info hyellow,
    Markup.plainText_nil, List.append_nil]

/-- No blank is a letter or a digit. -/
theorem isAlphanum_of_isBlank {c : Char} (h : isBlank c = true) : c.isAlphanum = false := by
  -- Letters and digits lie between the blanks of ASCII and those behind it.
  have hblank : c.toNat < 48 ∨ 122 < c.toNat := by
    simp only [isBlank, blanks, RangeTable.has, List.any_cons, List.any_nil, Bool.or_eq_true,
      Bool.and_eq_true, decide_eq_true_eq, Bool.false_eq_true, or_false] at h
    omega
  have hupper : c.isUpper = true ↔ 65 ≤ c.toNat ∧ c.toNat ≤ 90 := decide_eq_true_iff
  have hlower : c.isLower = true ↔ 97 ≤ c.toNat ∧ c.toNat ≤ 122 := by
    show (decide (97 ≤ c.toNat) && decide (c.toNat ≤ 122)) = true ↔ _
    rw [Bool.and_eq_true, decide_eq_true_iff, decide_eq_true_iff]
  have hdigit : c.isDigit = true ↔ 48 ≤ c.toNat ∧ c.toNat ≤ 57 := Char.isDigit_iff_toNat
  refine Bool.eq_false_iff.mpr fun halphanum => ?_
  change (c.isUpper || c.isLower || c.isDigit) = true at halphanum
  rw [Bool.or_eq_true, Bool.or_eq_true, hupper, hlower, hdigit] at halphanum
  omega

/-- The words of a summary without the blanks and bars between them. -/
def words (counts : Counts) : List String :=
  ["Summary", toString counts.total, if counts.total = 1 then "finding" else "findings"] ++
    [.warning, .info].flatMap fun severity : Severity =>
      if counts.of severity = 0 then [] else [toString (counts.of severity), severity.name]

/-- Of a share the number and the name are letters and digits. -/
theorem filter_barred (counts : Counts) (severity : Severity) :
    (counts.barred severity id).filter Char.isAlphanum =
      (if counts.of severity = 0 then []
        else [toString (counts.of severity), severity.name]).flatMap (seen Char.isAlphanum) := by
  unfold barred
  split
  · rfl
  · simp [share, seen]

/-- A summary is written with characters that leave their neighbours alone. -/
theorem isInert_text_summary (counts : Counts) :
    ∀ c ∈ (Passage.ofMarkup counts.summary.text).text, Text.IsInert c := by
  have halphabet : alphabet.all (decide <| Text.IsInert ·) = true := by decide
  have hbarred (severity : Severity) : counts.barred severity id ⊆ alphabet := by
    have hbar : " | ".toList ⊆ alphabet := by decide
    unfold barred
    split
    · exact List.nil_subset _
    · exact List.append_subset.mpr ⟨hbar, counts.share_subset_alphabet severity⟩
  intro c hc
  rw [text_summary] at hc
  have hmem : c ∈ alphabet := List.append_subset.mpr
    ⟨counts.findings_subset_alphabet, List.append_subset.mpr ⟨hbarred _, hbarred _⟩⟩ hc
  exact of_decide_eq_true (List.all_eq_true.mp halphabet c hmem)

/-- **A summary shows the counts.** Without colours the letters and digits of a summary are those of
its title, of the number of findings, and of the number of each severity that occurred. -/
theorem seen_summary (counts : Counts) {width : Nat} (hroom : 13 ≤ width) :
    seen Char.isAlphanum (counts.summary.shown width false) =
      seen Char.isAlphanum (String.join counts.words) := by
  have hbox : counts.summary.box.IsHidden Char.isAlphanum := by
    show Box.rounded.IsHidden Char.isAlphanum
    decide
  have htitle : (Line.ofText {} (" " ++ "Summary" ++ " ")).width = 9 := by decide +kernel
  have hmargin : Panel.margin = 4 := rfl
  have hfindings : counts.findings.filter Char.isAlphanum =
      seen Char.isAlphanum (toString counts.total) ++
        seen Char.isAlphanum (if counts.total = 1 then "finding" else "findings") := by
    unfold findings
    split <;> simp [seen]
  rw [Panel.seen_shown hbox (fun c => isAlphanum_of_isBlank) (by omega) counts.isInert_text_summary,
    Panel.seen_upper_of_some hbox (fun c => isAlphanum_of_isBlank) rfl (by omega) (by omega),
    text_summary, List.filter_append, List.filter_append, filter_barred, filter_barred, hfindings,
    words, seen_join]
  simp

example : ({ info := 1, warning := 2 } : Counts).words =
    ["Summary", "3", "findings", "2", "warning", "1", "info"] := by
  decide

end Counts

end ScriptAudit.Report
