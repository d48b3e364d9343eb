import ScriptAudit.Text.Blank
import ScriptAudit.Text.Digit
import ScriptAudit.Value

/-!
# Numeric literals

A numeric literal is first cleaned: separators go, and so does one final `n`. What remains is read
as a whole number if it has that shape, else as a decimal fraction, else it has no value.

A whole number has an optional sign and either a base mark (`0x`, `0o`, `0b`, of either case) with
digits of that base, or decimal digits. Decimal digits may begin with a zero only if all of them are
zero, and there may be at most `maxDecimalDigits` of them.
-/

set_option autoImplicit false

namespace ScriptAudit.Literal

open ScriptAudit.Text

/-- The longest decimal spelling that is read as a whole number. -/
def maxDecimalDigits : Nat := 4300

/-- Drops separators and one final `n`. -/
def withoutMarks (cs : List Char) : List Char :=
  let cs := cs.filter (· ≠ '_')
  if cs.getLast? = some 'n' then cs.dropLast else cs

/-- The ASCII form of one character of a number: decimal digits of any script become ASCII digits
and blanks outside ASCII become spaces; no other character outside ASCII may occur. -/
def asciiForm? (c : Char) : Option Char :=
  if c.toNat < 0x80 then some c
  else if isBlank c then some ' '
  else (decimalValue? c).map asciiDigit

/-- The text of a number in ASCII, without the blanks around it. -/
def numberText? (raw : String) : Option (List Char) :=
  ((withoutMarks raw.toList).mapM asciiForm?).map (trimBy isAsciiBlank)

/-- Splits off an optional sign; the flag says that it is a minus. -/
def splitSign : List Char → Bool × List Char
  | '-' :: rest => (true, rest)
  | '+' :: rest => (false, rest)
  | cs => (false, cs)

/-- The base a mark after a leading zero stands for. -/
def markedBase? : Char → Option Nat
  | 'x' => some 16
  | 'X' => some 16
  | 'o' => some 8
  | 'O' => some 8
  | 'b' => some 2
  | 'B' => some 2
  | _ => none

/-- A non-empty run of digits of a base, and nothing else. -/
def digits? (base : Nat) (cs : List Char) : Option Nat :=
  if cs ≠ [] ∧ cs.all (isDigitOf base) then some (ofDigits base cs) else none

/-- Decimal digits of a whole number. -/
def decimalDigits? (cs : List Char) : Option Nat :=
  if cs.length ≤ maxDecimalDigits ∧ (cs.head? = some '0' → cs.all (· = '0')) then digits? 10 cs
  else none

/-- The digits of a whole number after its sign. -/
def magnitude? (cs : List Char) : Option Nat :=
  match cs with
  | '0' :: mark :: digits =>
    match markedBase? mark with
    | some base => digits? base digits
    | none => decimalDigits? cs
  | _ => decimalDigits? cs

/-- A whole number. -/
def wholeNumber? (cs : List Char) : Option Int :=
  let (negative, rest) := splitSign cs
  (magnitude? rest).map fun n => if negative then -(n : Int) else n

/-- A decimal number `mantissa · 10 ^ exponent`. -/
structure Decimal where
  mantissa : Nat
  exponent : Int
  deriving DecidableEq, Repr

/-- The double nearest to a decimal number. Numbers far outside the range of doubles are settled by
their order of magnitude alone. -/
def Decimal.toFloat (d : Decimal) : Float :=
  if d.mantissa = 0 then 0.0
  else
    let magnitude : Int := (Nat.toDigits 10 d.mantissa).length + d.exponent
    if magnitude > 310 then Float.ofBits 0x7FF0000000000000
    else if magnitude < -330 then 0.0
    else Float.ofScientific d.mantissa (d.exponent < 0) d.exponent.natAbs

/-- The exponent of a decimal number: nothing, or `e`, an optional sign and digits. -/
def exponent? : List Char → Option Int
  | [] => some 0
  | c :: rest =>
    if c = 'e' ∨ c = 'E' then
      let (negative, digits) := splitSign rest
      (digits? 10 digits).map fun n => if negative then -(n : Int) else n
    else none

/-- A decimal number after its sign: digits with an optional point among or around them, and an
optional exponent. -/
def decimal? (cs : List Char) : Option Decimal :=
  let whole := cs.takeWhile (isDigitOf 10)
  let rest := cs.drop whole.length
  let (fraction, rest) :=
    match rest with
    | '.' :: tail =>
      let fraction := tail.takeWhile (isDigitOf 10)
      (fraction, tail.drop fraction.length)
    | _ => ([], rest)
  if whole ++ fraction = [] then none
  else (exponent? rest).map fun e => ⟨ofDigits 10 (whole ++ fraction), e - fraction.length⟩

/-- The names of numbers that have no digits. -/
def namedFloat? (cs : List Char) : Option Float :=
  let name := String.ofList (cs.map Char.toLower)
  if name = "inf" ∨ name = "infinity" then some (Float.ofBits 0x7FF0000000000000)
  else if name = "nan" then some (Float.ofBits 0x7FF8000000000000)
  else none

/-- A number that need not be whole. -/
def fractional? (cs : List Char) : Option Float :=
  let (negative, rest) := splitSign cs
  ((decimal? rest).map Decimal.toFloat <|> namedFloat? rest).map fun x => if negative then -x else x

/-- The value of a numeric literal, if it can be read. -/
def numberValue? (raw : String) : Option Value := do
  let cs ← numberText? raw
  (wholeNumber? cs).map Value.integer <|> (fractional? cs).map Value.float

end ScriptAudit.Literal
