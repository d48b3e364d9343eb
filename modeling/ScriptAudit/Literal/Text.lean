import ScriptAudit.Text.Digit
import ScriptAudit.Text.Utf16

/-!
# String literals

The value of a quoted string literal. The body is read from left to right into UTF-16 code units:
an unescaped character gives its own units, a backslash starts an escape. The units are joined only
at the end, so two halves of a pair meet even when they come from two escapes.
-/

set_option autoImplicit false

namespace ScriptAudit.Literal

open ScriptAudit.Text

/-- Line ends that disappear after a backslash. -/
def isLineEnd (c : Char) : Bool :=
  c = '\n' || c = '\r' || c = '\u2028' || c = '\u2029'

/-- The character a single letter stands for after a backslash. -/
def letterEscape? : Char → Option Char
  | 'n' => some '\n'
  | 't' => some '\t'
  | 'r' => some '\r'
  | 'b' => some '\x08'
  | 'f' => some '\x0c'
  | 'v' => some '\x0b'
  | _ => none

/-- An octal escape has at most three digits when it starts with 0 to 3, and at most two
otherwise. -/
def octalDigits (cs : List Char) : List Char :=
  match cs with
  | [] => []
  | c :: _ =>
    (cs.takeWhile (isDigitOf 8)).take (if isDigitOf 4 c then 3 else 2)

/-- The escape `u{h…h}`: its digits, when there is at least one and the brace is closed. -/
def bracedDigits? : List Char → Option (List Char)
  | 'u' :: '\x7b' :: rest =>
    let digits := rest.takeWhile (isDigitOf 16)
    if digits ≠ [] ∧ (rest.drop digits.length).head? = some '\x7d' then some digits else none
  | _ => none

/-- Exactly `count` hexadecimal digits after the given letter. -/
def fixedDigits? (letter : Char) (count : Nat) : List Char → Option (List Char)
  | [] => none
  | c :: rest =>
    let digits := (rest.take count).takeWhile (isDigitOf 16)
    if c = letter ∧ digits.length = count then some digits else none

/-- One escape, read after its backslash: the units it stands for and how many characters it takes.
A braced number above the last code point stands for its own spelling. -/
def escape (cs : List Char) : List Utf16.CodeUnit × Nat :=
  match bracedDigits? cs with
  | some digits =>
    let n := ofDigits 16 digits
    let spelling := 'u' :: '\x7b' :: digits ++ ['\x7d']
    (if n ≤ 0x10FFFF then Utf16.unitsOf n else Utf16.encode spelling, spelling.length)
  | none =>
    match fixedDigits? 'u' 4 cs with
    | some digits => (Utf16.unitsOf (ofDigits 16 digits), 5)
    | none =>
      match fixedDigits? 'x' 2 cs with
      | some digits => (Utf16.unitsOf (ofDigits 16 digits), 3)
      | none =>
        match octalDigits cs with
        | c :: digits => (Utf16.unitsOf (ofDigits 8 (c :: digits)), digits.length + 1)
        | [] =>
          match cs with
          | '\r' :: '\n' :: _ => ([], 2)
          | c :: _ =>
            if isLineEnd c then ([], 1) else (Utf16.encode [(letterEscape? c).getD c], 1)
          | [] => ([], 0)

/-- The code units of the body of a literal. A backslash at the very end stands for itself. -/
def units (cs : List Char) : List Utf16.CodeUnit :=
  match cs with
  | [] => []
  | ['\\'] => Utf16.encode ['\\']
  | '\\' :: c :: rest =>
    let (us, taken) := escape (c :: rest)
    us ++ units ((c :: rest).drop taken)
  | c :: rest => Utf16.encode [c] ++ units rest
termination_by cs.length
decreasing_by
  · simp only [List.length_drop, List.length_cons]
    omega
  · exact Nat.lt_succ_self _

/-- The body of a literal: the quotes go when the text starts and ends with the same quote. -/
def body (cs : List Char) : List Char :=
  match cs with
  | q :: c :: rest =>
    if (q = '\'' ∨ q = '"') ∧ (c :: rest).getLast? = some q then (c :: rest).dropLast else cs
  | _ => cs

/-- The value of a string literal. -/
def textValue (raw : String) : String :=
  String.ofList (Utf16.decode (units (body raw.toList)))

end ScriptAudit.Literal
