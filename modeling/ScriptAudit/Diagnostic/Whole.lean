import ScriptAudit.Diagnostic.Basic
import ScriptAudit.Literal.Dyadic
import ScriptAudit.Literal.Number

/-!
# Whole numbers in fields

A field that holds a whole number may write it in several ways: as a JSON number without fraction,
as a truth value, or as a text. A text is first read as plain digits with an optional minus. If that
fails it is tidied and read once more: blanks around it, a plus, superfluous zeros at the front, a
fraction of zeros and single underscores between digits are dropped.
-/

set_option autoImplicit false

namespace ScriptAudit.Diagnostic

open ScriptAudit.Text
open ScriptAudit.Literal

/-- White space around a number in a text. The information separators are not white space here. -/
def isSpacing (c : Char) : Bool := isBlank c && !(0x1C ≤ c.toNat && c.toNat ≤ 0x1F)

/-- The number of plain digits that start with a zero only if it is the only one. -/
def plainDigits (cs : List Char) : Except FieldFault Nat :=
  if cs = [] ∨ !cs.all (isDigitOf 10) ∨ (cs.head? = some '0' ∧ cs.length ≠ 1) then
    .error .unreadableInteger
  else if maxDecimalDigits < cs.length then .error .longInteger
  else .ok (ofDigits 10 cs)

/-- A whole number in plain digits behind an optional minus. -/
def plainInteger : List Char → Except FieldFault Int
  | '-' :: rest => (plainDigits rest).map fun n => -(n : Int)
  | cs => (plainDigits cs).map fun n => (n : Int)

/-- A digit other than zero, or a minus: where superfluous zeros end. -/
def startsNumber (c : Char) : Bool := c = '-' || (isDigitOf 10 c && c ≠ '0')

/-- What follows superfluous zeros. The character before the text is given: it stays in front of a
point and at the end. -/
def afterZeros? (before : Char) : List Char → Option (List Char)
  | [] => some [before]
  | c :: rest =>
    if c = '0' ∨ c = '_' then afterZeros? c rest
    else if startsNumber c then some (c :: rest)
    else if c = '.' then some (before :: c :: rest)
    else none

/-- Drops superfluous zeros at the front, and underscores among them. -/
def withoutLeadingZeros? : List Char → Option (List Char)
  | [] => none
  | c :: rest =>
    if c = '0' then afterZeros? c rest
    else if startsNumber c then some (c :: rest)
    else none

/-- Drops a point and the zeros behind it, if nothing else is there. -/
def withoutZeroFraction (cs : List Char) : List Char :=
  let whole := cs.takeWhile (· ≠ '.')
  if (cs.drop (whole.length + 1)).all (· = '0') then whole else cs

/-- Two underscores in a row. -/
def hasDoubleUnderscore : List Char → Bool
  | '_' :: '_' :: _ => true
  | _ :: rest => hasDoubleUnderscore rest
  | [] => false

/-- Drops underscores that stand alone between other characters. -/
def withoutUnderscores (cs : List Char) : List Char :=
  if cs.head? = some '_' ∨ cs.getLast? = some '_' ∨ hasDoubleUnderscore cs then cs
  else cs.filter (· ≠ '_')

/-- Takes off a plus; before a minus it must not stand. -/
def withoutPlus? : List Char → Option (List Char)
  | '+' :: '-' :: _ => none
  | '+' :: rest => some rest
  | cs => some cs

/-- Takes off a minus and says whether one was there; two must not stand. -/
def splitMinus? : List Char → Option (Bool × List Char)
  | '-' :: '-' :: _ => none
  | '-' :: rest => some (true, rest)
  | cs => some (false, cs)

/-- A text in which everything superfluous is dropped. -/
def tidied? (cs : List Char) : Option (List Char) := do
  let cs ← withoutPlus? cs
  let (negative, cs) ← splitMinus? cs
  let cs ← withoutLeadingZeros? cs
  let cs := withoutUnderscores (withoutZeroFraction cs)
  some (if negative then '-' :: cs else cs)

/-- A whole number in a text. -/
def integerText (s : String) : Except FieldFault Int :=
  let cs := trimBy isSpacing s.toList
  match plainInteger cs with
  | .error .unreadableInteger =>
    match tidied? cs with
    | some cs => plainInteger cs
    | none => .error .unreadableInteger
  | result => result

/-- The bound below which a number with a point or an exponent is taken for whole. -/
def exactBound : Nat := Nat.pow 2 63

/-- The whole number of a number with a point or an exponent, which stands for the nearest
double. -/
def integerDecimal (mantissa exponent : Int) : Except FieldFault Int :=
  match Dyadic.ofFloat? (Decimal.toFloat ⟨mantissa.natAbs, exponent⟩) with
  | none => .error .infinite
  | some d =>
    match d.whole? with
    | none => .error .fractional
    | some n =>
      if exactBound ≤ n.natAbs then .error .fractional
      else .ok (if mantissa < 0 then -n else n)

/-- The whole number a JSON value denotes. -/
def integer : Json → Except FieldFault Int
  | .bool b => .ok (if b then 1 else 0)
  | .integer i => .ok i
  | .decimal mantissa exponent => integerDecimal mantissa exponent
  | .string s => integerText s
  | _ => .error .notInteger

end ScriptAudit.Diagnostic
