/-!
# Markup

Text may hold tags between square brackets. A bracket opens a tag only if the next character is a
small letter or one of `#`, `/`, `@`, and only if a closing bracket comes before the next opening
one. Backslashes right before a tag are halved; an odd one left over makes the tag plain text.

`Markup.pieces` splits a text into tags and plain characters. Both directions are built on it:
`Markup.escape` puts backslashes before every tag of a text, and a passage carries the tags out.
-/

set_option autoImplicit false

namespace ScriptAudit.Report.Markup

/-- A plain character, or a tag with the number of backslashes before it. -/
inductive Piece where
  | char (c : Char)
  | tag (slashes : Nat) (body : List Char)
  deriving DecidableEq, Repr

/-- The first character of a tag. -/
def opensTag (c : Char) : Bool :=
  ('a' ≤ c && c ≤ 'z') || c = '#' || c = '/' || c = '@'

/-- The text up to a closing bracket, unless an opening one comes first, and the text behind it. -/
def upToClose? : List Char → Option (List Char × List Char)
  | [] => none
  | ']' :: rest => some ([], rest)
  | '[' :: _ => none
  | c :: rest => (upToClose? rest).map fun (body, rest) => (c :: body, rest)

/-- A tag at the start of a text: what stands between its brackets, and the text behind it. -/
def tag? : List Char → Option (List Char × List Char)
  | '[' :: c :: rest =>
    if opensTag c then (upToClose? rest).map fun (body, rest) => (c :: body, rest) else none
  | _ => none

/-- The text behind a closing bracket is shorter. -/
theorem upToClose?_length {cs body rest : List Char} (h : upToClose? cs = some (body, rest)) :
    rest.length < cs.length := by
  fun_induction upToClose? cs generalizing body rest with
  | case1 => simp at h
  | case2 behind =>
    simp only [Option.some.injEq, Prod.mk.injEq] at h
    simp [← h.2]
  | case3 => simp at h
  | case4 c cs _ _ ih =>
    obtain ⟨⟨inner, behind⟩, found, same⟩ := Option.map_eq_some_iff.1 h
    simp only [Prod.mk.injEq] at same
    have := ih found
    rw [List.length_cons, ← same.2]
    omega

/-- The text behind a tag is shorter. -/
theorem tag?_length {cs body rest : List Char} (h : tag? cs = some (body, rest)) :
    rest.length < cs.length := by
  fun_cases tag? cs with
  | case1 c cs opens =>
    simp only [tag?, opens, if_true] at h
    obtain ⟨⟨inner, behind⟩, found, same⟩ := Option.map_eq_some_iff.1 h
    simp only [Prod.mk.injEq] at same
    have := upToClose?_length found
    simp only [List.length_cons, ← same.2]
    omega
  | case2 c cs opens => simp [tag?, opens] at h
  | case3 _ other => simp [tag?] at h

/-- Splits a text into tags and plain characters. -/
def pieces (cs : List Char) : List Piece :=
  match cs with
  | [] => []
  | c :: rest =>
    match h : tag? ((c :: rest).dropWhile (· = '\\')) with
    | some (body, rest') =>
      have := tag?_length h
      .tag ((c :: rest).takeWhile (· = '\\')).length body :: pieces rest'
    | none => .char c :: pieces rest
termination_by cs.length
decreasing_by
  · have h₂ := (List.dropWhile_suffix (l := c :: rest) (p := fun x => decide (x = '\\'))).length_le
    omega
  · exact Nat.lt_succ_self _

/-- A piece as it is written. -/
def Piece.text : Piece → List Char
  | char c => [c]
  | tag slashes body => List.replicate slashes '\\' ++ '[' :: body ++ [']']

/-- A piece as it has to be written to be read as plain text. -/
def Piece.escaped : Piece → List Char
  | char c => [c]
  | tag slashes body => List.replicate (2 * slashes + 1) '\\' ++ '[' :: body ++ [']']

/-- A single backslash at the very end is doubled, because a tag might follow. -/
def guardEnd (cs : List Char) : List Char :=
  if cs.getLast? = some '\\' ∧ cs.dropLast.getLast? ≠ some '\\' then cs ++ ['\\'] else cs

/-- Writes a text so that none of it is read as a tag. -/
def escape (s : String) : String :=
  String.ofList (guardEnd ((pieces s.toList).flatMap Piece.escaped))

end ScriptAudit.Report.Markup
