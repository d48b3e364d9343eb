import ScriptAudit.Report.Passage

/-!
# Escaped text holds no tags

Escaping doubles the backslashes before each tag of a text and adds one. The text so written falls
into the same pieces, with an odd number of backslashes before every tag; so its tags are read as
plain text, and whatever stands before it is read as if it stood alone.

The argument has to rule out that escaping makes a tag where there was none. A bracket that opens no
tag is followed by no proper first character, or by no closing bracket before the next opening one.
Escaping only inserts backslashes, and only before opening brackets. A backslash is no proper first
character, and it neither closes nor opens a bracket, so a bracket that opens no tag still opens
none. The backslash that guards the end of a text is covered in the same way.

What is then shown of the text is the text itself, apart from some of its backslashes: those before
a bracket that opens no tag go, and one at the very end is doubled.
-/

set_option autoImplicit false

namespace ScriptAudit

/-- A text in which neither of two characters occurs. -/
def Text.Avoids (a b : Char) (cs : List Char) : Prop := ∀ c ∈ cs, c ≠ a ∧ c ≠ b

instance (a b : Char) (cs : List Char) : Decidable (Text.Avoids a b cs) :=
  List.decidableBAll (fun c => c ≠ a ∧ c ≠ b) cs

namespace Report.Markup

open ScriptAudit.Text

/-! ## Tags -/

/-- What may stand between the brackets of a tag. -/
def IsBody (body : List Char) : Prop :=
  ∃ c inner, body = c :: inner ∧ opensTag c = true ∧ Avoids ']' '[' inner

/-- A body is read up to the bracket that closes it. -/
theorem upToClose?_append {inner : List Char} (h : Avoids ']' '[' inner) (rest : List Char) :
    upToClose? (inner ++ ']' :: rest) = some (inner, rest) := by
  induction inner with
  | nil => rfl
  | cons c inner ih =>
    obtain ⟨⟨hclose, hopen⟩, hinner⟩ := List.forall_mem_cons.mp h
    rw [List.cons_append, upToClose?, ih hinner]
    · rfl
    · exact hclose
    · exact hopen

/-- What is read up to a closing bracket holds no bracket. -/
theorem upToClose?_eq_some {cs inner rest : List Char} (h : upToClose? cs = some (inner, rest)) :
    cs = inner ++ ']' :: rest ∧ Avoids ']' '[' inner := by
  fun_induction upToClose? cs generalizing inner rest with
  | case1 => cases h
  | case2 behind =>
    cases h
    exact ⟨rfl, List.forall_mem_nil _⟩
  | case3 => cases h
  | case4 c cs hclose hopen ih =>
    obtain ⟨⟨body, behind⟩, hfound, hsame⟩ := Option.map_eq_some_iff.mp h
    cases hsame
    obtain ⟨rfl, hbody⟩ := ih hfound
    exact ⟨rfl, List.forall_mem_cons.mpr ⟨⟨hclose, hopen⟩, hbody⟩⟩

/-- A body in brackets is read as a tag. -/
theorem tag?_append {body : List Char} (h : IsBody body) (rest : List Char) :
    tag? ('[' :: (body ++ ']' :: rest)) = some (body, rest) := by
  obtain ⟨c, inner, rfl, hc, hinner⟩ := h
  rw [List.cons_append, tag?, if_pos hc, upToClose?_append hinner]
  rfl

/-- What is read as a tag is a body in brackets. -/
theorem tag?_eq_some {cs body rest : List Char} (h : tag? cs = some (body, rest)) :
    cs = '[' :: (body ++ ']' :: rest) ∧ IsBody body := by
  fun_cases tag? cs with
  | case1 c cs hc =>
    rw [tag?, if_pos hc] at h
    obtain ⟨⟨inner, behind⟩, hfound, hsame⟩ := Option.map_eq_some_iff.mp h
    cases hsame
    obtain ⟨rfl, hinner⟩ := upToClose?_eq_some hfound
    exact ⟨rfl, c, inner, rfl, hc, hinner⟩
  | case2 c cs hc => simp [tag?, hc] at h
  | case3 _ hother => simp [tag?] at h

/-! ## Pieces

A text is taken apart where a tag stands ahead, or by one character.
-/

/-- A tag at the start of a text, behind any backslashes. -/
def tagAhead? (cs : List Char) : Option (List Char × List Char) :=
  tag? (cs.dropWhile (· = '\\'))

/-- Backslashes do not hide a tag that is ahead. -/
theorem tagAhead?_slash (cs : List Char) : tagAhead? ('\\' :: cs) = tagAhead? cs := by
  simp [tagAhead?]

/-- Without backslashes the tag has to begin at once. -/
theorem tagAhead?_cons {c : Char} (h : c ≠ '\\') (cs : List Char) :
    tagAhead? (c :: cs) = tag? (c :: cs) := by
  simp [tagAhead?, h]

/-- No tag begins with another character than a bracket. -/
theorem tag?_cons_eq_none {c : Char} (h : c ≠ '[') (cs : List Char) : tag? (c :: cs) = none := by
  rw [tag?]
  intro _ _ heq
  exact absurd (List.cons.inj heq).1 h

/-- No tag begins with a bracket before a character that opens none. -/
theorem tag?_bracket_eq_none {c : Char} (h : opensTag c = false) (cs : List Char) :
    tag? ('[' :: c :: cs) = none := by
  simp [tag?, h]

/-- Where no tag is ahead the first character is a piece. -/
theorem pieces_of_none {c : Char} {rest : List Char} (h : tagAhead? (c :: rest) = none) :
    pieces (c :: rest) = .char c :: pieces rest := by
  unfold tagAhead? at h
  rw [pieces]
  split
  · rename_i hsome
    rw [h] at hsome
    cases hsome
  · rfl

/-- A character that is neither a backslash nor a bracket is a piece. -/
theorem pieces_plain {c : Char} (hslash : c ≠ '\\') (hopen : c ≠ '[') (rest : List Char) :
    pieces (c :: rest) = .char c :: pieces rest := by
  apply pieces_of_none
  rw [tagAhead?_cons hslash, tag?_cons_eq_none hopen]

/-- Plain characters are pieces by themselves. -/
theorem pieces_append_of_plain {cs : List Char} (h : Avoids '\\' '[' cs) (rest : List Char) :
    pieces (cs ++ rest) = cs.map .char ++ pieces rest := by
  induction cs with
  | nil => rfl
  | cons c cs ih =>
    obtain ⟨⟨hslash, hopen⟩, hcs⟩ := List.forall_mem_cons.mp h
    rw [List.cons_append, pieces_plain hslash hopen, ih hcs]
    rfl

/-- Where a tag is ahead it is a piece with the backslashes before it. -/
theorem pieces_of_some {cs body rest : List Char} (h : tagAhead? cs = some (body, rest)) :
    pieces cs = .tag (cs.takeWhile (· = '\\')).length body :: pieces rest := by
  unfold tagAhead? at h
  cases cs with
  | nil => cases h
  | cons c cs =>
    rw [pieces]
    split
    · rename_i hsome
      rw [h] at hsome
      cases hsome
      rfl
    · rename_i hnone
      rw [h] at hnone
      cases hnone

/-- A tag with its backslashes is a piece. -/
theorem pieces_tag {body : List Char} (h : IsBody body) (n : Nat) (rest : List Char) :
    pieces ((Piece.tag n body).text ++ rest) = .tag n body :: pieces rest := by
  have hslashes : ∀ c ∈ List.replicate n '\\', decide (c = '\\') = true := by
    simp
  have htext : (Piece.tag n body).text ++ rest =
      List.replicate n '\\' ++ '[' :: (body ++ ']' :: rest) := by
    simp [Piece.text]
  have hahead : tagAhead? ((Piece.tag n body).text ++ rest) = some (body, rest) := by
    rw [tagAhead?, htext, List.dropWhile_append_of_pos hslashes]
    exact tag?_append h rest
  rw [pieces_of_some hahead, htext, List.takeWhile_append_of_pos hslashes]
  simp

/-- Backslashes alone are no tag. -/
theorem tagAhead?_slashes (k : Nat) : tagAhead? (List.replicate k '\\') = none := by
  induction k with
  | zero => rfl
  | succ k ih => rw [List.replicate_succ, tagAhead?_slash, ih]

/-- Backslashes alone are pieces by themselves. -/
theorem pieces_slashes (k : Nat) :
    pieces (List.replicate k '\\') = List.replicate k (.char '\\') := by
  induction k with
  | zero => rw [List.replicate_zero, pieces, List.replicate_zero]
  | succ k ih =>
    rw [List.replicate_succ, pieces_of_none (tagAhead?_slashes (k + 1)), ih, List.replicate_succ]

/-- A tag that is ahead is what the text begins with. -/
theorem eq_text_append_of_some {cs body rest : List Char} (h : tagAhead? cs = some (body, rest)) :
    cs = (Piece.tag (cs.takeWhile (· = '\\')).length body).text ++ rest := by
  have hslashes : List.replicate (cs.takeWhile (· = '\\')).length '\\' =
      cs.takeWhile (· = '\\') := by
    symm
    rw [List.eq_replicate_iff]
    refine ⟨rfl, ?_⟩
    intro c hc
    have hall := List.all_takeWhile (p := (· = '\\')) (l := cs)
    simpa using List.all_eq_true.mp hall c hc
  have htag : cs.dropWhile (· = '\\') = '[' :: (body ++ ']' :: rest) := (tag?_eq_some h).1
  calc
    cs = cs.takeWhile (· = '\\') ++ cs.dropWhile (· = '\\') :=
      List.takeWhile_append_dropWhile.symm
    _ = (Piece.tag (cs.takeWhile (· = '\\')).length body).text ++ rest := by
      rw [htag, Piece.text, hslashes]
      simp

/-- The pieces of a text make up the text. -/
theorem flatMap_text_pieces (cs : List Char) : (pieces cs).flatMap Piece.text = cs := by
  induction cs using pieces.induct with
  | case1 => rw [pieces, List.flatMap_nil]
  | case2 c cs body rest hahead _ ih =>
    rw [pieces_of_some hahead, List.flatMap_cons, ih]
    exact (eq_text_append_of_some hahead).symm
  | case3 c cs hahead ih =>
    rw [pieces_of_none hahead, List.flatMap_cons, ih]
    rfl

/-! ## Escaping -/

/-- The piece that an escaped piece is read as. -/
def Piece.guarded : Piece → Piece
  | char c => .char c
  | tag slashes body => .tag (2 * slashes + 1) body

/-- The escaped text of a piece is the text of the guarded piece. -/
theorem Piece.escaped_eq (p : Piece) : p.escaped = p.guarded.text := by
  cases p <;> rfl

/-- A text with all of its pieces escaped. -/
def escapedPieces (cs : List Char) : List Char := (pieces cs).flatMap Piece.escaped

/-- Escaping nothing gives nothing. -/
theorem escapedPieces_nil : escapedPieces [] = [] := by
  simp [escapedPieces, pieces]

/-- Where no tag is ahead the first character stays as it is. -/
theorem escapedPieces_of_none {c : Char} {rest : List Char} (h : tagAhead? (c :: rest) = none) :
    escapedPieces (c :: rest) = c :: escapedPieces rest := by
  rw [escapedPieces, pieces_of_none h]
  rfl

/-- A tag that is ahead gets twice its backslashes and one more. -/
theorem escapedPieces_of_some {cs body rest : List Char}
    (h : tagAhead? cs = some (body, rest)) :
    escapedPieces cs =
      (Piece.tag (2 * (cs.takeWhile (· = '\\')).length + 1) body).text ++ escapedPieces rest := by
  rw [escapedPieces, pieces_of_some h, List.flatMap_cons, Piece.escaped_eq]
  rfl

/-- Backslashes close nothing. -/
theorem upToClose?_slashes {cs : List Char} (h : upToClose? cs = none) (n : Nat) :
    upToClose? (List.replicate n '\\' ++ cs) = none := by
  induction n with
  | zero => exact h
  | succ n ih =>
    rw [List.replicate_succ, List.cons_append, upToClose?, ih]
    · rfl
    · decide
    · decide

/-- Where no bracket closes, none does after escaping, if none does in what follows. -/
theorem upToClose?_escapedPieces {cs tail : List Char} (h : upToClose? cs = none)
    (htail : upToClose? tail = none) : upToClose? (escapedPieces cs ++ tail) = none := by
  induction cs with
  | nil => rwa [escapedPieces_nil, List.nil_append]
  | cons c cs ih =>
    cases hahead : tagAhead? (c :: cs) with
    | some found =>
      -- the backslashes of the tag are followed by its opening bracket
      rw [escapedPieces_of_some hahead, Piece.text, List.append_assoc, List.append_assoc,
        List.append_assoc]
      exact upToClose?_slashes rfl _
    | none =>
      rw [escapedPieces_of_none hahead, List.cons_append]
      by_cases hopen : c = '['
      · rw [hopen]
        rfl
      · by_cases hclose : c = ']'
        · rw [hclose] at h
          cases h
        · rw [upToClose?, Option.map_eq_none_iff] at h ⊢
          · exact ih h
          · exact hclose
          · exact hopen
          · exact hclose
          · exact hopen

/-- A backslash begins no tag. -/
theorem not_opensTag_slash : opensTag '\\' = false := by decide

/-- A text in front of which a bracket that opens no tag still opens none: it closes no bracket, and
does not begin the body of a tag. -/
structure IsHarmless (tail : List Char) : Prop where
  unclosed : upToClose? tail = none
  noTag : tag? ('[' :: tail) = none

/-- Backslashes alone are harmless. -/
theorem isHarmless_slashes (k : Nat) : IsHarmless (List.replicate k '\\') := by
  constructor
  · rw [← List.append_nil (List.replicate k '\\')]
    exact upToClose?_slashes rfl k
  · cases k with
    | zero => rfl
    | succ k => exact tag?_bracket_eq_none not_opensTag_slash _

/-- A bracket that opens no tag opens none before the escaped text either. -/
theorem tag?_bracket_escapedPieces {cs tail : List Char} (h : tag? ('[' :: cs) = none)
    (htail : IsHarmless tail) : tag? ('[' :: (escapedPieces cs ++ tail)) = none := by
  cases cs with
  | nil =>
    rw [escapedPieces_nil, List.nil_append]
    exact htail.noTag
  | cons c cs =>
    cases hahead : tagAhead? (c :: cs) with
    | some found =>
      rw [escapedPieces_of_some hahead, Piece.text, List.replicate_succ]
      exact tag?_bracket_eq_none not_opensTag_slash _
    | none =>
      rw [escapedPieces_of_none hahead, List.cons_append]
      by_cases hc : opensTag c = true
      · rw [tag?, if_pos hc, Option.map_eq_none_iff] at h ⊢
        exact upToClose?_escapedPieces h htail.unclosed
      · exact tag?_bracket_eq_none (Bool.eq_false_iff.mpr hc) _

/-- A character other than a backslash that begins no tag begins none before the escaped text
either. -/
theorem tagAhead?_cons_escapedPieces {c : Char} {cs tail : List Char} (hslash : c ≠ '\\')
    (h : tagAhead? (c :: cs) = none) (htail : IsHarmless tail) :
    tagAhead? (c :: (escapedPieces cs ++ tail)) = none := by
  rw [tagAhead?_cons hslash] at h ⊢
  by_cases hopen : c = '['
  · rw [hopen] at h ⊢
    exact tag?_bracket_escapedPieces h htail
  · exact tag?_cons_eq_none hopen _

/-- Where no tag stands, none does after escaping. -/
theorem tagAhead?_escapedPieces {cs : List Char} (h : tagAhead? cs = none) (k : Nat) :
    tagAhead? (escapedPieces cs ++ List.replicate k '\\') = none := by
  induction cs with
  | nil =>
    rw [escapedPieces_nil, List.nil_append, tagAhead?_slashes]
  | cons c cs ih =>
    rw [escapedPieces_of_none h, List.cons_append]
    by_cases hslash : c = '\\'
    · rw [hslash, tagAhead?_slash] at h ⊢
      exact ih h
    · exact tagAhead?_cons_escapedPieces hslash h (isHarmless_slashes k)

/-- An escaped text has the pieces of the text, with an odd number of backslashes before each
tag. -/
theorem pieces_escapedPieces (cs : List Char) (k : Nat) :
    pieces (escapedPieces cs ++ List.replicate k '\\') =
      (pieces cs).map Piece.guarded ++ List.replicate k (.char '\\') := by
  induction cs using pieces.induct with
  | case1 =>
    rw [escapedPieces_nil, List.nil_append, pieces_slashes, pieces]
    rfl
  | case2 c cs body rest hahead _ ih =>
    have hbody : IsBody body := (tag?_eq_some hahead).2
    rw [escapedPieces_of_some hahead, List.append_assoc, pieces_tag hbody, ih,
      pieces_of_some hahead]
    rfl
  | case3 c cs hahead ih =>
    have hescaped := tagAhead?_escapedPieces hahead k
    rw [escapedPieces_of_none hahead, List.cons_append] at hescaped ⊢
    rw [pieces_of_none hescaped, pieces_of_none hahead, ih]
    rfl

/-- A tag behind an escaped text without backslashes is a piece of its own. -/
theorem pieces_escapedPieces_tag {cs : List Char} (hslash : '\\' ∉ cs) {body : List Char}
    (hbody : IsBody body) (rest : List Char) :
    pieces (escapedPieces cs ++ ((Piece.tag 0 body).text ++ rest)) =
      (pieces cs).map Piece.guarded ++ .tag 0 body :: pieces rest := by
  have htail : IsHarmless ((Piece.tag 0 body).text ++ rest) := ⟨rfl, rfl⟩
  induction cs using pieces.induct with
  | case1 =>
    rw [escapedPieces_nil, List.nil_append, pieces_tag hbody, pieces]
    rfl
  | case2 c cs inner behind hahead _ ih =>
    have hbehind : '\\' ∉ behind := by
      rw [eq_text_append_of_some hahead, List.mem_append, not_or] at hslash
      exact hslash.2
    rw [escapedPieces_of_some hahead, List.append_assoc, pieces_tag (tag?_eq_some hahead).2,
      ih hbehind, pieces_of_some hahead]
    rfl
  | case3 c cs hahead ih =>
    obtain ⟨hc, hcs⟩ := by simpa using hslash
    have hescaped := tagAhead?_cons_escapedPieces (Ne.symm hc) hahead htail
    rw [escapedPieces_of_none hahead, List.cons_append, pieces_of_none hescaped,
      pieces_of_none hahead, ih hcs]
    rfl

/-- A piece that is shown as it is, without a tag to carry out. -/
def Piece.IsLiteral : Piece → Prop
  | char _ => True
  | tag slashes _ => slashes % 2 = 1

/-- A guarded piece is literal. -/
theorem Piece.isLiteral_guarded (p : Piece) : p.guarded.IsLiteral := by
  cases p with
  | char c => trivial
  | tag slashes body =>
    show (2 * slashes + 1) % 2 = 1
    omega

/-- An escaped text is made of escaped pieces and backslashes at its end. -/
theorem exists_toList_escape (s : String) :
    ∃ k, (escape s).toList = escapedPieces s.toList ++ List.replicate k '\\' := by
  rw [escape, String.toList_ofList, guardEnd]
  split
  · exact ⟨1, rfl⟩
  · exact ⟨0, (List.append_nil _).symm⟩

/-- Escaped text has no tags to carry out. -/
theorem isLiteral_of_mem_pieces_escape {s : String} {p : Piece} (h : p ∈ pieces (escape s).toList) :
    p.IsLiteral := by
  obtain ⟨k, hk⟩ := exists_toList_escape s
  rw [hk, pieces_escapedPieces, List.mem_append, List.mem_map] at h
  rcases h with ⟨q, -, rfl⟩ | h
  · exact q.isLiteral_guarded
  · rw [(List.mem_replicate.mp h).2]
    trivial

/-! ## What is shown of an escaped text -/

/-- What is shown of pieces without a tag to carry out. -/
def shownPieces : List Piece → List Char
  | [] => []
  | .char '\\' :: .char '[' :: rest => '[' :: shownPieces rest
  | .char c :: rest => c :: shownPieces rest
  | .tag slashes body :: rest =>
    List.replicate (slashes / 2) '\\' ++ '[' :: body ++ ']' :: shownPieces rest

/-- What is shown of a text that is escaped. -/
def shownEscaped (s : String) : List Char := shownPieces (pieces (escape s).toList)

/-- What is shown of pieces differs from their text in backslashes only. -/
theorem filter_shownPieces (ps : List Piece) :
    (shownPieces ps).filter (· ≠ '\\') = (ps.flatMap Piece.text).filter (· ≠ '\\') := by
  fun_induction shownPieces ps with
  | case1 => rfl
  | case2 rest ih => simp_all [Piece.text]
  | case3 c rest _ ih => simp_all [Piece.text, List.filter_cons]
  | case4 slashes body rest ih => simp_all [Piece.text]

/-- An escaped text differs from the text in backslashes only. -/
theorem filter_escapedPieces (cs : List Char) :
    (escapedPieces cs).filter (· ≠ '\\') = cs.filter (· ≠ '\\') := by
  have hpiece (p : Piece) : p.escaped.filter (· ≠ '\\') = p.text.filter (· ≠ '\\') := by
    cases p <;> simp [Piece.escaped, Piece.text]
  rw [escapedPieces, List.filter_flatMap, funext hpiece, ← List.filter_flatMap,
    flatMap_text_pieces]

/-- All of a text is shown, in order, apart from some of its backslashes. -/
theorem filter_shownEscaped (s : String) :
    (shownEscaped s).filter (· ≠ '\\') = s.toList.filter (· ≠ '\\') := by
  obtain ⟨k, hk⟩ := exists_toList_escape s
  rw [shownEscaped, filter_shownPieces, flatMap_text_pieces, hk, List.filter_append,
    filter_escapedPieces]
  simp

/-- A tag ends in a bracket. -/
theorem getLast?_text_tag (n : Nat) (body : List Char) :
    (Piece.tag n body).text.getLast? = some ']' := by
  rw [Piece.text, List.getLast?_concat]

/-- Escaping does not change the last character. -/
theorem getLast?_escapedPieces (cs : List Char) : (escapedPieces cs).getLast? = cs.getLast? := by
  induction cs using pieces.induct with
  | case1 => rw [escapedPieces_nil]
  | case2 c cs body rest hahead _ ih =>
    have htext := eq_text_append_of_some hahead
    rw [escapedPieces_of_some hahead, List.getLast?_append, ih, getLast?_text_tag, htext,
      List.getLast?_append, getLast?_text_tag]
  | case3 c cs hahead ih =>
    rw [escapedPieces_of_none hahead, List.getLast?_cons, List.getLast?_cons, ih]

/-- Guarded pieces without backslashes are shown as they are. -/
theorem shownPieces_map_guarded {ps : List Piece} (h : '\\' ∉ ps.flatMap Piece.text) :
    shownPieces (ps.map Piece.guarded) = ps.flatMap Piece.text := by
  induction ps with
  | nil => rfl
  | cons p ps ih =>
    rw [List.flatMap_cons, List.mem_append, not_or] at h
    obtain ⟨hp, hps⟩ := h
    cases p with
    | char c =>
      have hc : c ≠ '\\' := by
        intro hslash
        exact hp (by simp [Piece.text, hslash])
      rw [List.map_cons, Piece.guarded, shownPieces, ih hps]
      · rfl
      · intro _ _ hslash
        exact hc hslash
    | tag slashes body =>
      cases slashes with
      | zero =>
        rw [List.map_cons, Piece.guarded, shownPieces, ih hps]
        simp [Piece.text]
      | succ n => exact absurd (by simp [Piece.text]) hp

/-- A text without backslashes needs no guard at its end. -/
theorem toList_escape_of_no_slash {s : String} (h : '\\' ∉ s.toList) :
    (escape s).toList = escapedPieces s.toList := by
  have hend : (escapedPieces s.toList).getLast? ≠ some '\\' := by
    rw [getLast?_escapedPieces]
    intro hlast
    exact h (List.mem_of_getLast? hlast)
  rw [escape, String.toList_ofList, guardEnd, if_neg fun hguard => hend hguard.1, escapedPieces]

/-- The escaped pieces of a text without backslashes are shown as the text. -/
theorem shownPieces_map_guarded_pieces {cs : List Char} (h : '\\' ∉ cs) :
    shownPieces ((pieces cs).map Piece.guarded) = cs := by
  have htext := flatMap_text_pieces cs
  rw [shownPieces_map_guarded, htext]
  rwa [htext]

/-- A text without backslashes is shown as it is. -/
theorem shownEscaped_of_no_slash {s : String} (h : '\\' ∉ s.toList) :
    shownEscaped s = s.toList := by
  have hpieces := pieces_escapedPieces s.toList 0
  rw [List.replicate_zero, List.replicate_zero, List.append_nil, List.append_nil] at hpieces
  rw [shownEscaped, toList_escape_of_no_slash h, hpieces, shownPieces_map_guarded_pieces h]

/-! ## Tokens -/

/-- The tokens of plain texts come one after the other. -/
theorem plainTokens_append (cs ds : List Char) :
    plainTokens (cs ++ ds) = plainTokens cs ++ plainTokens ds := by
  simp [plainTokens]

/-- Literal pieces stand for plain text. -/
theorem tokensFrom_of_isLiteral {ps : List Piece} (h : ∀ p ∈ ps, p.IsLiteral) (position : Nat) :
    tokensFrom position ps = plainTokens (shownPieces ps) := by
  fun_induction tokensFrom position ps with
  | case1 => rfl
  | case2 position rest ih =>
    obtain ⟨-, -, hrest⟩ := by simpa using h
    rw [ih hrest, shownPieces, ← plainTokens_append]
    rfl
  | case3 position c rest hother ih =>
    obtain ⟨-, hrest⟩ := List.forall_mem_cons.mp h
    rw [ih hrest, shownPieces, ← plainTokens_append]
    · rfl
    · exact hother
  | case4 position slashes body rest ih =>
    obtain ⟨hodd, hrest⟩ := List.forall_mem_cons.mp h
    have hodd : slashes % 2 = 1 := hodd
    rw [ih hrest, if_pos hodd, ← plainTokens_append, ← plainTokens_append, shownPieces]
    simp

/-- A text without backslashes and opening brackets stands for itself. -/
theorem tokensFrom_append_of_plain {cs : List Char} (h : Avoids '\\' '[' cs) (position : Nat)
    (ps : List Piece) :
    tokensFrom position (cs.map .char ++ ps) =
      plainTokens cs ++ tokensFrom (position + cs.length) ps := by
  induction cs generalizing position with
  | nil => rfl
  | cons c cs ih =>
    obtain ⟨⟨hc, -⟩, hcs⟩ := List.forall_mem_cons.mp h
    have hlength : position + (c :: cs).length = position + 1 + cs.length := by
      rw [List.length_cons]
      omega
    rw [List.map_cons, List.cons_append, tokensFrom, ih hcs, ← List.append_assoc,
      ← plainTokens_append, hlength]
    · rfl
    · intro _ _ hslash
      exact hc hslash

/-- Where markup stands does not matter for the characters it stands for. -/
theorem filterMap_char?_tokensFrom (position other : Nat) (ps : List Piece) :
    (tokensFrom position ps).filterMap Token.char? =
      (tokensFrom other ps).filterMap Token.char? := by
  fun_induction tokensFrom position ps generalizing other with
  | case1 => rfl
  | case2 position rest ih =>
    rw [tokensFrom, List.filterMap_append, List.filterMap_append, ih (other + 2)]
  | case3 position c rest hother ih =>
    rw [tokensFrom, List.filterMap_append, List.filterMap_append, ih (other + 1)]
    exact hother
  | case4 position slashes body rest ih =>
    rw [tokensFrom]
    simp only [List.filterMap_append, ih (other + slashes + body.length + 2)]
    split <;> rfl

/-- Literal pieces in front of a tag stand for plain text. -/
theorem tokensFrom_append_tag {ps : List Piece} (h : ∀ p ∈ ps, p.IsLiteral) (position slashes : Nat)
    (body : List Char) (rest : List Piece) :
    ∃ behind, tokensFrom position (ps ++ .tag slashes body :: rest) =
      plainTokens (shownPieces ps) ++ tokensFrom behind (.tag slashes body :: rest) := by
  fun_induction tokensFrom position ps with
  | case1 position => exact ⟨position, rfl⟩
  | case2 position ps ih =>
    obtain ⟨-, -, hrest⟩ := by simpa using h
    obtain ⟨behind, hbehind⟩ := ih hrest
    refine ⟨behind, ?_⟩
    rw [List.cons_append, List.cons_append, tokensFrom, hbehind, shownPieces, ← List.append_assoc,
      ← plainTokens_append]
    rfl
  | case3 position c ps hother ih =>
    obtain ⟨-, hrest⟩ := List.forall_mem_cons.mp h
    obtain ⟨behind, hbehind⟩ := ih hrest
    refine ⟨behind, ?_⟩
    rw [List.cons_append, tokensFrom, hbehind, shownPieces, ← List.append_assoc,
      ← plainTokens_append]
    · rfl
    · exact hother
    · -- a bracket behind a backslash would have to be among the literal pieces
      intro after hafter hslash
      cases ps with
      | nil => cases hafter
      | cons p ps =>
        rw [List.cons_append] at hafter
        exact hother ps (by rw [(List.cons.inj hafter).1]) hslash
  | case4 position slashes body ps ih =>
    obtain ⟨hodd, hrest⟩ := List.forall_mem_cons.mp h
    have hodd : slashes % 2 = 1 := hodd
    obtain ⟨behind, hbehind⟩ := ih hrest
    refine ⟨behind, ?_⟩
    rw [List.cons_append, tokensFrom, hbehind, if_pos hodd, ← List.append_assoc,
      ← plainTokens_append, ← plainTokens_append, shownPieces]
    simp

namespace Reading

/-- Plain text leaves the open tags and the fault of a reading as they are. -/
theorem foldl_step_plainTokens (r : Reading) (cs : List Char) :
    (plainTokens cs).foldl step r = { r with length := r.length + (plainTokens cs).length } := by
  unfold plainTokens
  induction cs.filter (fun c => !isCursorControl c) generalizing r with
  | nil => rfl
  | cons c cs ih =>
    rw [List.map_cons, List.foldl_cons, ih, List.length_cons, Nat.add_comm _ 1, ← Nat.add_assoc]
    rfl

end Reading

end Report.Markup

end ScriptAudit
