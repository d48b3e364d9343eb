import ScriptAudit.Secret.Pattern

/-!
# Searching a text for secrets

A text is searched from left to right. At each position the patterns are tried in the given order,
and the first that matches wins; the search goes on behind the match. Without any pattern the empty
match stands at every position, the end included.
-/

set_option autoImplicit false

namespace ScriptAudit.Secret

/-- A match: the pattern, the matched text, and its first and last positions in characters, the
latter exclusive. Only the empty match has no pattern. -/
structure Match where
  pattern : Option Pattern
  text : String
  start : Nat
  stop : Nat
  deriving DecidableEq, Repr

/-- How much of a secret is shown. -/
def previewLength : Nat := 20

/-- The beginning of a secret, marked as cut off. -/
def preview (s : String) : String :=
  String.ofList (s.toList.take previewLength) ++ "..."

/-- The name of the pattern, empty for the empty match. -/
def Match.kind (m : Match) : String := m.pattern.elim "" Pattern.name

/-- The shown beginning of a match. -/
def Match.preview (m : Match) : String := Secret.preview m.text

/-- The first pattern that matches at the start of a text, and the length of its match. -/
def firstMatch? (patterns : List Pattern) (cs : List Char) : Option (Pattern × Nat) :=
  patterns.findSome? fun p => (p.matchLength? cs).map (p, ·)

/-- The matches in a text whose first character stands at the given position. -/
def searchFrom (patterns : List Pattern) (position : Nat) (cs : List Char) : List Match :=
  match cs with
  | [] => []
  | c :: rest =>
    match firstMatch? patterns (c :: rest) with
    | some (pattern, length + 1) =>
      { pattern := some pattern, text := String.ofList ((c :: rest).take (length + 1)),
        start := position, stop := position + (length + 1) } ::
        searchFrom patterns (position + (length + 1)) (rest.drop length)
    | _ => searchFrom patterns (position + 1) rest
termination_by cs.length
decreasing_by
  · simp only [List.length_drop, List.length_cons]
    omega
  · exact Nat.lt_succ_self _

/-- The empty matches of a text. -/
def emptyMatches (cs : List Char) : List Match :=
  (List.range (cs.length + 1)).map fun i => { pattern := none, text := "", start := i, stop := i }

/-- The secrets of a text. -/
def search (patterns : List Pattern) (value : String) : List Match :=
  if patterns.isEmpty then emptyMatches value.toList else searchFrom patterns 0 value.toList

end ScriptAudit.Secret
