import Mathlib.Data.Nat.Digits.Defs
import ScriptAudit.Text.Utf16

/-!
# The grammar of string literals

A string literal is written as a sequence of elements between two quotes. Each element has a
spelling and stands for some code units; how a literal is read plays no part here. The types follow
the productions of the grammar of scripts, so a value of `Element` is always a proper element.

An octal escape may only stand where it could not be longer. `WellFormed` is that condition for a
whole sequence: every element is allowed before the character that comes next, which is the closing
quote behind the last one.
-/

set_option autoImplicit false

namespace ScriptAudit.Literal

open ScriptAudit.Text

/-! ## Quotes and digits -/

/-- The quotes that enclose a literal. -/
inductive Quote where
  | single
  | double
  deriving DecidableEq

/-- The character of a quote. -/
def Quote.char : Quote → Char
  | single => '\''
  | double => '"'

/-- A hexadecimal digit: its value, and whether a letter is written as a capital. -/
structure HexDigit where
  value : Fin 16
  capital : Bool
  deriving DecidableEq

/-- The character of a hexadecimal digit. -/
def HexDigit.char (d : HexDigit) : Char :=
  (if d.capital then "0123456789ABCDEF" else "0123456789abcdef").toList.getD d.value '0'

/-- The number that hexadecimal digits spell, the most significant first. -/
def HexDigit.number (ds : List HexDigit) : ℕ :=
  Nat.ofDigits 16 (ds.map fun d => d.value.val).reverse

/-- An octal digit. -/
abbrev OctalDigit := Fin 8

/-- The character of an octal digit. -/
def OctalDigit.char (d : OctalDigit) : Char := "01234567".toList.getD d '0'

/-- The number that octal digits spell, the most significant first. -/
def OctalDigit.number (ds : List OctalDigit) : ℕ := Nat.ofDigits 8 (ds.map Fin.val).reverse

/-! ## Escapes -/

/-- Octal escapes, by their productions: a null that is not taken for a longer number, a zero before
an eight or a nine, one digit, two digits of which the first is at most three or at least four, and
three digits. -/
inductive OctalEscape where
  | null
  | zero
  | one (d : OctalDigit) (hd : d ≠ 0)
  | lowPair (d₁ d₂ : OctalDigit) (hd : d₁.val ≤ 3)
  | highPair (d₁ d₂ : OctalDigit) (hd : 4 ≤ d₁.val)
  | triple (d₁ d₂ d₃ : OctalDigit) (hd : d₁.val ≤ 3)

namespace OctalEscape

/-- The digits of an octal escape. -/
def digits : OctalEscape → List OctalDigit
  | null => [0]
  | zero => [0]
  | one d _ => [d]
  | lowPair d₁ d₂ _ => [d₁, d₂]
  | highPair d₁ d₂ _ => [d₁, d₂]
  | triple d₁ d₂ d₃ _ => [d₁, d₂, d₃]

/-- The escape may stand before a character. -/
def Allows : OctalEscape → Char → Prop
  | null, next => next ∉ "0123456789".toList
  | zero, next => next = '8' ∨ next = '9'
  | one _ _, next => next ∉ "01234567".toList
  | lowPair _ _ _, next => next ∉ "01234567".toList
  | highPair _ _ _, _ => True
  | triple _ _ _ _, _ => True

end OctalEscape

/-- Escapes of one letter or sign that has a meaning of its own. -/
inductive SingleEscape where
  | singleQuote
  | doubleQuote
  | backslash
  | backspace
  | formFeed
  | lineFeed
  | carriageReturn
  | tab
  | verticalTab
  deriving DecidableEq

namespace SingleEscape

/-- The sign of an escape. -/
def sign : SingleEscape → Char
  | singleQuote => '\''
  | doubleQuote => '"'
  | backslash => '\\'
  | backspace => 'b'
  | formFeed => 'f'
  | lineFeed => 'n'
  | carriageReturn => 'r'
  | tab => 't'
  | verticalTab => 'v'

/-- The character an escape stands for. -/
def meaning : SingleEscape → Char
  | singleQuote => '\x27'
  | doubleQuote => '\x22'
  | backslash => '\x5c'
  | backspace => '\x08'
  | formFeed => '\x0c'
  | lineFeed => '\x0a'
  | carriageReturn => '\x0d'
  | tab => '\x09'
  | verticalTab => '\x0b'

end SingleEscape

/-- The ends of lines. -/
inductive LineEnd where
  | lineFeed
  | carriageReturn
  | carriageReturnLineFeed
  | lineSeparator
  | paragraphSeparator
  deriving DecidableEq

/-- The characters of the end of a line. -/
def LineEnd.spelling : LineEnd → List Char
  | lineFeed => ['\n']
  | carriageReturn => ['\r']
  | carriageReturnLineFeed => ['\r', '\n']
  | lineSeparator => ['\u2028']
  | paragraphSeparator => ['\u2029']

/-- Characters that stand for something else, or for nothing, behind a backslash: the signs of the
other escapes and the ends of lines. -/
def reserved : List Char :=
  "'\"\\bfnrtv0123456789xu".toList ++ ['\n', '\r', '\u2028', '\u2029']

/-- What can stand behind a backslash. -/
inductive Escape where
  | unicode (d₁ d₂ d₃ d₄ : HexDigit)
  | codePoint (ds : List HexDigit) (hne : ds ≠ []) (hpoint : HexDigit.number ds ≤ 0x10FFFF)
  | hex (d₁ d₂ : HexDigit)
  | octal (e : OctalEscape)
  | decimal (c : Char) (hc : c = '8' ∨ c = '9')
  | single (e : SingleEscape)
  | identity (c : Char) (hc : c ∉ reserved)
  | lineContinuation (e : LineEnd)

namespace Escape

/-- The characters of an escape behind its backslash. -/
def spelling : Escape → List Char
  | unicode d₁ d₂ d₃ d₄ => 'u' :: [d₁, d₂, d₃, d₄].map HexDigit.char
  | codePoint ds _ _ => 'u' :: '\x7b' :: (ds.map HexDigit.char ++ ['\x7d'])
  | hex d₁ d₂ => 'x' :: [d₁, d₂].map HexDigit.char
  | octal e => e.digits.map OctalDigit.char
  | decimal c _ => [c]
  | single e => [e.sign]
  | identity c _ => [c]
  | lineContinuation e => e.spelling

/-- The code units an escape stands for. -/
def units : Escape → List Utf16.CodeUnit
  | unicode d₁ d₂ d₃ d₄ => [UInt16.ofNat (HexDigit.number [d₁, d₂, d₃, d₄])]
  | codePoint ds _ _ => Utf16.unitsOf (HexDigit.number ds)
  | hex d₁ d₂ => [UInt16.ofNat (HexDigit.number [d₁, d₂])]
  | octal e => [UInt16.ofNat (OctalDigit.number e.digits)]
  | decimal c _ => Utf16.encode [c]
  | single e => Utf16.encode [e.meaning]
  | identity c _ => Utf16.encode [c]
  | lineContinuation _ => []

/-- The escape may stand before a character. -/
def Allows : Escape → Char → Prop
  | octal e, next => e.Allows next
  | _, _ => True

end Escape

/-! ## Elements and literals -/

/-- An element of a literal in the given quotes: a character as it is, or an escape. -/
inductive Element (q : Quote) where
  | plain (c : Char) (hc : c ≠ q.char ∧ c ≠ '\\' ∧ c ≠ '\n' ∧ c ≠ '\r')
  | escape (e : Escape)

namespace Element

variable {q : Quote}

/-- The characters of an element. -/
def spelling : Element q → List Char
  | plain c _ => [c]
  | escape e => '\\' :: e.spelling

/-- The code units an element stands for. -/
def units : Element q → List Utf16.CodeUnit
  | plain c _ => Utf16.encode [c]
  | escape e => e.units

/-- The element may stand before a character. -/
def Allows : Element q → Char → Prop
  | plain _ _, _ => True
  | escape e, next => e.Allows next

/-- The character behind a text in a literal: its first, or the closing quote. -/
def next (q : Quote) (t : List Char) : Char := t.headD q.char

/-- Every element may stand where it does. -/
def WellFormed : List (Element q) → Prop
  | [] => True
  | e :: es => e.Allows (next q (es.flatMap spelling)) ∧ WellFormed es

/-- A literal: its elements between two quotes. -/
def literal (q : Quote) (es : List (Element q)) : String :=
  String.ofList (q.char :: (es.flatMap spelling ++ [q.char]))

end Element

end ScriptAudit.Literal
