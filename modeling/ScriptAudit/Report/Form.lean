import ScriptAudit.Text.Digit

/-!
# Forms of values

A field of a template may ask for a form of its value: how wide it is to be and where it stands in
that width, which sign it has, how its digits are grouped, how much of it is shown, and in which
presentation. Texts have one presentation. Numbers have several: whole in a base or as the character
of that code point, or as a double, with a point, with an exponent, or as parts of a hundred.

A form is read from left to right. What may stand in it does not depend on the value, but not every
value can be given every form.
-/

set_option autoImplicit false

namespace ScriptAudit.Report

open ScriptAudit.Text

/-- Where a value stands in a form that is wider. `inner` is between the sign and the digits. -/
inductive Alignment where
  | left
  | right
  | centre
  | inner
  deriving DecidableEq, Repr

/-- The alignment a character asks for. -/
def Alignment.ofChar? : Char → Option Alignment
  | '<' => some left
  | '>' => some right
  | '^' => some centre
  | '=' => some inner
  | _ => none

/-- The mark between groups of digits. -/
inductive Separator where
  | comma
  | underscore
  deriving DecidableEq, Repr

/-- The mark as it is written. -/
def Separator.char : Separator → Char
  | comma => ','
  | underscore => '_'

/-- What has a form. -/
inductive Kind where
  | number
  | text
  deriving DecidableEq, Repr

namespace Kind

/-- The name of a kind in messages. -/
def name : Kind → String
  | number => "int"
  | text => "str"

/-- Numbers stand on the right. -/
def alignment : Kind → Alignment
  | number => .right
  | text => .left

/-- The presentation of a form that names none. -/
def presentation : Kind → Char
  | number => 'd'
  | text => 's'

end Kind

/-- What can be wrong with a form, or with giving it to a value. -/
inductive FormFault where
  | longNumber
  | bothSeparators
  | missingPrecision
  | unreadable (form : String) (kind : Kind)
  | separated (separator : Separator) (presentation : Char)
  | unknownPresentation (presentation : Char) (kind : Kind)
  | blankInText
  | signInText
  | positiveZeroInText
  | alternateText
  | innerText
  | precisionOfWhole
  | positiveZeroInWhole
  | signOfCharacter
  | alternateCharacter
  | noCharacter
  | noDouble
  | longPrecision
  deriving DecidableEq, Repr

/-- A character as messages name it: itself if it is visible, else by number. -/
def shownInMessage (limit : Nat) (c : Char) : String :=
  if 32 < c.toNat ∧ c.toNat < limit then String.singleton c
  else "\\x" ++ String.ofList (Nat.toDigits 16 c.toNat)

namespace FormFault

/-- The fault in words. -/
def message : FormFault → String
  | longNumber => "Too many decimal digits in format string"
  | bothSeparators => "Cannot specify both ',' and '_'."
  | missingPrecision => "Format specifier missing precision"
  | unreadable form kind =>
    "Invalid format specifier '" ++ form ++ "' for object of type '" ++ kind.name ++ "'"
  | separated separator presentation =>
    "Cannot specify '" ++ String.singleton separator.char ++ "' with '" ++
      shownInMessage 128 presentation ++ "'."
  | unknownPresentation presentation kind =>
    "Unknown format code '" ++ shownInMessage 128 presentation ++ "' for object of type '" ++
      kind.name ++ "'"
  | blankInText => "Space not allowed in string format specifier"
  | signInText => "Sign not allowed in string format specifier"
  | positiveZeroInText => "Negative zero coercion (z) not allowed in string format specifier"
  | alternateText => "Alternate form (#) not allowed in string format specifier"
  | innerText => "'=' alignment not allowed in string format specifier"
  | precisionOfWhole => "Precision not allowed in integer format specifier"
  | positiveZeroInWhole => "Negative zero coercion (z) not allowed in integer format specifier"
  | signOfCharacter => "Sign not allowed with integer format specifier 'c'"
  | alternateCharacter => "Alternate form (#) not allowed with integer format specifier 'c'"
  | noCharacter => "%c arg not in range(0x110000)"
  | noDouble => "int too large to convert to float"
  | longPrecision => "precision too big"

/-- The number is out of the range of the presentation. All other faults are of the form. -/
def isOutOfRange : FormFault → Bool
  | noCharacter => true
  | noDouble => true
  | _ => false

end FormFault

/-- A form. -/
structure Form where
  fill : Char := ' '
  alignment : Alignment
  sign : Option Char := none
  positiveZero : Bool := false
  alternate : Bool := false
  width : Nat := 0
  separator : Option Separator := none
  precision : Option Nat := none
  presentation : Char
  deriving DecidableEq, Repr

/-! ## Reading a form -/

/-- The greatest number a template may hold. -/
def maxNumber : Nat := Nat.pow 2 63 - 1

/-- The number at the start of a text, behind digits that spell `n` so far, and the text behind it.
Digits of any script count. -/
def leadingNumber (n : Nat) : List Char → Except FormFault (Nat × List Char)
  | [] => .ok (n, [])
  | c :: cs =>
    match decimalValue? c with
    | none => .ok (n, c :: cs)
    | some v => if maxNumber < 10 * n + v then .error .longNumber else leadingNumber (10 * n + v) cs

/-- The first character if it belongs to a class, and the text behind it. -/
def leading (p : Char → Bool) : List Char → Option Char × List Char
  | [] => (none, [])
  | c :: cs => if p c then (some c, cs) else (none, c :: cs)

namespace Form

/-- An alignment, with the character to fill with before it or without. -/
def leadingAlignment : List Char → (Option Char × Option Alignment) × List Char
  | c :: d :: cs =>
    match Alignment.ofChar? d with
    | some alignment => ((some c, some alignment), cs)
    | none =>
      match Alignment.ofChar? c with
      | some alignment => ((none, some alignment), d :: cs)
      | none => ((none, none), c :: d :: cs)
  | [c] =>
    match Alignment.ofChar? c with
    | some alignment => ((none, some alignment), [])
    | none => ((none, none), [c])
  | [] => ((none, none), [])

/-- At most one mark between groups of digits. -/
def leadingSeparator : List Char → Except FormFault (Option Separator × List Char)
  | ',' :: '_' :: _ => .error .bothSeparators
  | '_' :: ',' :: _ => .error .bothSeparators
  | ',' :: cs => .ok (some .comma, cs)
  | '_' :: cs => .ok (some .underscore, cs)
  | cs => .ok (none, cs)

/-- A precision behind a point. -/
def leadingPrecision : List Char → Except FormFault (Option Nat × List Char)
  | '.' :: cs => do
    let (n, rest) ← leadingNumber 0 cs
    if rest.length = cs.length then .error .missingPrecision else .ok (some n, rest)
  | cs => .ok (none, cs)

/-- The presentation at the end of a form, if there is one. -/
def lastPresentation (kind : Kind) (text : List Char) : List Char → Except FormFault Char
  | [] => .ok kind.presentation
  | [c] => .ok c
  | _ => .error (.unreadable (String.ofList text) kind)

/-- The number of digits in a group, if the presentation has groups with that mark. -/
def groupLength? (presentation : Char) : Separator → Option Nat
  | .comma => if presentation ∈ "defgEG%F".toList then some 3 else none
  | .underscore =>
    if presentation ∈ "defgEG%F".toList then some 3
    else if presentation ∈ "boxX".toList then some 4
    else none

/-- Reads a form for a kind of value. A zero before the width fills with zeros, unless there is a
character to fill with; numbers then have it between their sign and their digits, unless an
alignment is given. -/
def read (kind : Kind) (text : List Char) : Except FormFault Form := do
  let ((fill, alignment), cs) := leadingAlignment text
  let (sign, cs) := leading (· ∈ "+- ".toList) cs
  let (positiveZero, cs) := leading (· = 'z') cs
  let (alternate, cs) := leading (· = '#') cs
  let (zero, cs) := if fill.isSome then (none, cs) else leading (· = '0') cs
  let (width, cs) ← leadingNumber 0 cs
  let (separator, cs) ← leadingSeparator cs
  let (precision, cs) ← leadingPrecision cs
  let presentation ← lastPresentation kind text cs
  let zeroAlignment := if zero.isSome ∧ kind = .number then .inner else kind.alignment
  match separator with
  | some mark =>
    if (groupLength? presentation mark).isNone then .error (.separated mark presentation)
  | none => pure ()
  return {
    fill := fill.getD (zero.getD ' '), alignment := alignment.getD zeroAlignment, sign,
    positiveZero := positiveZero.isSome, alternate := alternate.isSome, width, separator, precision,
    presentation }

/-! ## Laying out -/

/-- A number in parts: its sign, the mark of its base, its digits before the point, and the rest. -/
structure Parts where
  sign : List Char := []
  mark : List Char := []
  digits : List Char
  rest : List Char := []

/-- Digits with a mark before every group, counted from the right. -/
def separate (mark : Char) (size : Nat) : List Char → List Char
  | [] => []
  | c :: cs =>
    if cs ≠ [] ∧ cs.length % size = 0 then c :: mark :: separate mark size cs
    else c :: separate mark size cs

/-- Digits in groups with zeros before them, at least so many characters together. They do not begin
with a mark, so it may be one more. -/
def grouped (form : Form) (least : Nat) (digits : List Char) : List Char :=
  match form.separator.bind fun mark => (groupLength? form.presentation mark).map (mark, ·) with
  | none => List.replicate (least - digits.length) '0' ++ digits
  | some (mark, size) =>
    let count := least - (least - 1) / (size + 1)
    separate mark.char size (List.replicate (count - digits.length) '0' ++ digits)

/-- A text with so many characters to fill it up. -/
def padded (form : Form) (count : Nat) (before behind : List Char) : List Char :=
  match form.alignment with
  | .left => before ++ behind ++ List.replicate count form.fill
  | .right => List.replicate count form.fill ++ before ++ behind
  | .centre =>
    List.replicate (count / 2) form.fill ++ before ++ behind ++
      List.replicate (count - count / 2) form.fill
  | .inner => before ++ List.replicate count form.fill ++ behind

/-- A number in its form. Zeros between the sign and the digits are grouped with the digits. -/
def number (form : Form) (parts : Parts) : List Char :=
  let fixed := parts.sign.length + parts.mark.length + parts.rest.length
  let least := if form.fill = '0' ∧ form.alignment = .inner then form.width - fixed else 0
  let digits := if parts.digits = [] then [] else form.grouped least parts.digits
  form.padded (form.width - (fixed + digits.length)) (parts.sign ++ parts.mark)
    (digits ++ parts.rest)

/-- The sign of a number that is not negative. -/
def plus (form : Form) : List Char :=
  match form.sign with
  | some '+' => ['+']
  | some ' ' => [' ']
  | _ => []

/-! ## Texts -/

/-- A text in its form. -/
def text (form : Form) (cs : List Char) : Except FormFault (List Char) :=
  if form.presentation ≠ 's' then .error (.unknownPresentation form.presentation .text)
  else if form.sign = some ' ' then .error .blankInText
  else if form.sign.isSome then .error .signInText
  else if form.positiveZero then .error .positiveZeroInText
  else if form.alternate then .error .alternateText
  else if form.alignment = .inner then .error .innerText
  else
    let shown := cs.take (form.precision.getD cs.length)
    .ok (form.padded (form.width - shown.length) shown [])

/-! ## Whole numbers -/

/-- The base of a presentation, and the mark that the alternate form puts before the digits. -/
def baseOf : Char → Nat × List Char
  | 'b' => (2, ['0', 'b'])
  | 'o' => (8, ['0', 'o'])
  | 'x' => (16, ['0', 'x'])
  | 'X' => (16, ['0', 'X'])
  | _ => (10, [])

/-- The character of a code point. A half of a pair has none of its own. -/
def character? (n : Nat) : Option Char :=
  if n < 0x110000 then some (if n.isValidChar then Char.ofNat n else '\ufffd') else none

/-- A whole number as a character. -/
def character (form : Form) (n : Nat) : Except FormFault (List Char) :=
  if form.sign.isSome then .error .signOfCharacter
  else if form.alternate then .error .alternateCharacter
  else
    match character? n with
    | some c => .ok (form.number { digits := [], rest := [c] })
    | none => .error .noCharacter

/-- A whole number in its form. -/
def whole (form : Form) (n : Nat) : Except FormFault (List Char) :=
  if form.precision.isSome then .error .precisionOfWhole
  else if form.positiveZero then .error .positiveZeroInWhole
  else if form.presentation = 'c' then form.character n
  else
    let (base, mark) := baseOf form.presentation
    let digits := Nat.toDigits base n
    .ok (form.number {
      sign := form.plus, mark := if form.alternate then mark else [],
      digits := if form.presentation = 'X' then digits.map Char.toUpper else digits })

/-! ## Doubles -/

/-- A quotient as the nearest whole number, the even one of two. -/
def nearestQuotient (n d : Nat) : Nat :=
  if d < 2 * (n % d) ∨ (d = 2 * (n % d) ∧ n / d % 2 = 1) then n / d + 1 else n / d

/-- The nearest double of a whole number; nothing if it is out of range. -/
def nearestDouble? (n : Nat) : Option Nat :=
  let unit := Nat.pow 2 (n.log2 - 52)
  let nearest := nearestQuotient n unit * unit
  if nearest < Nat.pow 2 1024 then some nearest else none

/-- The first `count` digits of a number, rounded, and the power of ten of the first one. -/
def significant (count n : Nat) : List Char × Nat :=
  let digits := Nat.toDigits 10 n
  if digits.length ≤ count then
    (digits ++ List.replicate (count - digits.length) '0', digits.length - 1)
  else
    let rounded := Nat.toDigits 10 (nearestQuotient n (Nat.pow 10 (digits.length - count)))
    (rounded.take count, digits.length - 1 + (rounded.length - count))

/-- Digits behind a point. The alternate form has the point even without digits. -/
def fraction (form : Form) (digits : List Char) : List Char :=
  if digits = [] ∧ !form.alternate then [] else '.' :: digits

/-- An exponent has two digits at least. -/
def exponent (mark : Char) (n : Nat) : List Char :=
  let digits := Nat.toDigits 10 n
  mark :: '+' :: (List.replicate (2 - digits.length) '0' ++ digits)

/-- A number with digits before and behind a point. -/
def pointed (form : Form) (precision n : Nat) : Parts :=
  { sign := form.plus, digits := Nat.toDigits 10 n,
    rest := form.fraction (List.replicate precision '0') }

/-- Digits of which the first stands before a point, with a power of ten. -/
def scientific (form : Form) (mark : Char) (digits : List Char) (power : Nat) : Parts :=
  { sign := form.plus, digits := digits.take 1,
    rest := form.fraction (digits.drop 1) ++ exponent mark power }

/-- A number with so many digits, with a power of ten only if it has more. Zeros at the end of a
fraction are left out, except in the alternate form. -/
def general (form : Form) (mark : Char) (precision n : Nat) : Parts :=
  let count := max 1 precision
  let digits := Nat.toDigits 10 n
  if digits.length ≤ count then
    form.pointed (if form.alternate then count - digits.length else 0) n
  else
    let (digits, power) := significant count n
    form.scientific mark
      (if form.alternate then digits else (digits.reverse.dropWhile (· = '0')).reverse) power

/-- A number of hundredths. A number that has none is infinite. -/
def percent (form : Form) (precision n : Nat) : Parts :=
  match nearestDouble? (n * 100) with
  | some n =>
    let parts := form.pointed precision n
    { parts with rest := parts.rest ++ ['%'] }
  | none => { sign := form.plus, digits := [], rest := "inf%".toList }

/-- The greatest precision of a double. -/
def maxPrecision : Nat := Nat.pow 2 31 - 1

/-- The precision of a form that names none. -/
def defaultPrecision : Nat := 6

/-- A whole number as a double in its form. -/
def double (form : Form) (n : Nat) : Except FormFault (List Char) :=
  match nearestDouble? n with
  | none => .error .noDouble
  | some n =>
    let precision := form.precision.getD defaultPrecision
    if maxPrecision < precision then .error .longPrecision
    else
      .ok <| form.number <|
        match form.presentation with
        | 'e' | 'E' =>
          let (digits, power) := significant (precision + 1) n
          form.scientific form.presentation digits power
        | 'g' => form.general 'e' precision n
        | 'G' => form.general 'E' precision n
        | '%' => form.percent precision n
        | _ => form.pointed precision n

/-- A number in its form. -/
def numeral (form : Form) (n : Nat) : Except FormFault (List Char) :=
  if form.presentation ∈ "bcdoxXn".toList then form.whole n
  else if form.presentation ∈ "eEfFgG%".toList then form.double n
  else .error (.unknownPresentation form.presentation .number)

end Form

end ScriptAudit.Report
