import ScriptAudit.Json.Basic
import ScriptAudit.Text.Digit
import ScriptAudit.Text.Utf16

/-!
# Reading JSON

Each reader takes the text from where it stands and returns what it read with the text behind it.
Values nest, so the reader of values carries a bound on its steps; the length of the text is always
enough, and `Json.read?` supplies it.
-/

set_option autoImplicit false

namespace ScriptAudit.Json

open ScriptAudit.Text

/-- The blanks allowed between tokens. -/
def isSpace (c : Char) : Bool := c = ' ' || c = '\t' || c = '\n' || c = '\r'

/-- The text behind leading blanks. -/
def skipSpace (cs : List Char) : List Char := cs.dropWhile isSpace

/-- The character a letter stands for after a backslash. -/
def unescaped? : Char → Option Char
  | '"' => some '"'
  | '\\' => some '\\'
  | '/' => some '/'
  | 'b' => some '\x08'
  | 'f' => some '\x0c'
  | 'n' => some '\n'
  | 'r' => some '\r'
  | 't' => some '\t'
  | _ => none

/-- The code units of a string up to its closing quote, and the text behind that quote. -/
def readUnits : List Char → Option (List Utf16.CodeUnit × List Char)
  | [] => none
  | '"' :: rest => some ([], rest)
  | '\\' :: 'u' :: a :: b :: c :: d :: rest =>
    if [a, b, c, d].all (isDigitOf 16) then
      (readUnits rest).map fun (us, rest) => (UInt16.ofNat (ofDigits 16 [a, b, c, d]) :: us, rest)
    else none
  | '\\' :: c :: rest =>
    match unescaped? c with
    | some c => (readUnits rest).map fun (us, rest) => (Utf16.encode [c] ++ us, rest)
    | none => none
  | c :: rest =>
    if c.toNat < 0x20 ∨ c = '\\' then none
    else (readUnits rest).map fun (us, rest) => (Utf16.encode [c] ++ us, rest)

/-- A string, read behind its opening quote. -/
def readString (cs : List Char) : Option (String × List Char) :=
  (readUnits cs).map fun (us, rest) => (String.ofList (Utf16.decode us), rest)

/-- A run of decimal digits and the text behind it. -/
def readDigits (cs : List Char) : List Char × List Char :=
  (cs.takeWhile (isDigitOf 10), cs.dropWhile (isDigitOf 10))

/-- A run of digits that is not empty, as a number, and the text behind it. -/
def readNatural (cs : List Char) : Option (Nat × List Char) :=
  let (digits, rest) := readDigits cs
  if digits = [] then none else some (ofDigits 10 digits, rest)

/-- The digits of an exponent behind an optional sign. -/
def readSigned : List Char → Option (Int × List Char)
  | '-' :: rest => (readNatural rest).map fun (n, rest) => (-(n : Int), rest)
  | '+' :: rest => (readNatural rest).map fun (n, rest) => ((n : Int), rest)
  | cs => (readNatural cs).map fun (n, rest) => ((n : Int), rest)

/-- The exponent of a number, if it has one: `e`, an optional sign and digits. -/
def readExponent (cs : List Char) : Option (Option Int × List Char) :=
  match cs with
  | c :: rest =>
    if c = 'e' ∨ c = 'E' then (readSigned rest).map fun (e, rest) => (some e, rest)
    else some (none, cs)
  | [] => some (none, [])

/-- The fraction of a number: nothing, or a point and digits. -/
def readFraction (cs : List Char) : Option (List Char × List Char) :=
  match cs with
  | '.' :: rest =>
    let (digits, rest) := readDigits rest
    if digits = [] then none else some (digits, rest)
  | _ => some ([], cs)

/-- A number behind its sign: digits without a superfluous zero, a fraction and an exponent. -/
def readMagnitude (negative : Bool) (cs : List Char) : Option (Json × List Char) := do
  let (digits, cs) := readDigits cs
  if digits = [] ∨ (digits.head? = some '0' ∧ digits.length ≠ 1) then none
  else
    let (fraction, cs) ← readFraction cs
    let (exponent, cs) ← readExponent cs
    let magnitude : Int := ofDigits 10 (digits ++ fraction)
    let mantissa := if negative then -magnitude else magnitude
    match exponent with
    | none =>
      if fraction = [] then some (integer mantissa, cs)
      else some (decimal mantissa (-fraction.length), cs)
    | some e => some (decimal mantissa (e - fraction.length), cs)

/-- A number, with an optional minus in front. -/
def readNumber : List Char → Option (Json × List Char)
  | '-' :: rest => readMagnitude true rest
  | cs => readMagnitude false cs

/-- The text behind a fixed word. -/
def afterKeyword? (word : String) (cs : List Char) : Option (List Char) :=
  if word.toList.isPrefixOf cs then some (cs.drop word.length) else none

mutual
/-- A value, behind any blanks. -/
def readValue : Nat → List Char → Option (Json × List Char)
  | 0, _ => none
  | steps + 1, cs =>
    match skipSpace cs with
    | '"' :: rest => (readString rest).map fun (s, rest) => (string s, rest)
    | '[' :: rest =>
      match skipSpace rest with
      | ']' :: rest => some (array [], rest)
      | rest => (readElements steps rest).map fun (vs, rest) => (array vs, rest)
    | '\x7b' :: rest =>
      match skipSpace rest with
      | '\x7d' :: rest => some (object [], rest)
      | rest => (readMembers steps rest).map fun (ms, rest) => (object ms, rest)
    | 't' :: rest => (afterKeyword? "rue" rest).map fun rest => (bool true, rest)
    | 'f' :: rest => (afterKeyword? "alse" rest).map fun rest => (bool false, rest)
    | 'n' :: rest => (afterKeyword? "ull" rest).map fun rest => (null, rest)
    | cs => readNumber cs

/-- The elements of an array that is not empty, up to its closing bracket. -/
def readElements : Nat → List Char → Option (List Json × List Char)
  | 0, _ => none
  | steps + 1, cs =>
    match readValue steps cs with
    | none => none
    | some (v, rest) =>
      match skipSpace rest with
      | ',' :: rest => (readElements steps rest).map fun (vs, rest) => (v :: vs, rest)
      | ']' :: rest => some ([v], rest)
      | _ => none

/-- The members of an object that is not empty, up to its closing brace. -/
def readMembers : Nat → List Char → Option (List (String × Json) × List Char)
  | 0, _ => none
  | steps + 1, cs =>
    match skipSpace cs with
    | '"' :: rest =>
      match readString rest with
      | none => none
      | some (name, rest) =>
        match skipSpace rest with
        | ':' :: rest =>
          match readValue steps rest with
          | none => none
          | some (v, rest) =>
            match skipSpace rest with
            | ',' :: rest => (readMembers steps rest).map fun (ms, rest) => ((name, v) :: ms, rest)
            | '\x7d' :: rest => some ([(name, v)], rest)
            | _ => none
        | _ => none
    | _ => none
end

/-- Reads a text that is one value and nothing else but blanks. -/
def read? (s : String) : Option Json :=
  let cs := s.toList
  match readValue (cs.length + 1) cs with
  | some (v, rest) => if skipSpace rest = [] then some v else none
  | none => none

end ScriptAudit.Json
