import ScriptAudit.Text.Range

/-!
# Blank characters

Two classes of blanks are in use. `isBlank` is the class of white space that separates words and
that a secret pattern allows around its delimiter; it holds the white space of Unicode and the four
information separators. `isAsciiBlank` is the class that may surround a number.
-/

set_option autoImplicit false

namespace ScriptAudit.Text

/-- The white space characters, information separators included. -/
def blanks : RangeTable :=
  [(0x09, 0x0D), (0x1C, 0x20), (0x85, 0x85), (0xA0, 0xA0), (0x1680, 0x1680), (0x2000, 0x200A),
    (0x2028, 0x2029), (0x202F, 0x202F), (0x205F, 0x205F), (0x3000, 0x3000)]

/-- White space between words. -/
def isBlank (c : Char) : Bool := blanks.has c

/-- The six ASCII blanks: space, tab, line feed, vertical tab, form feed, carriage return. -/
def isAsciiBlank (c : Char) : Bool :=
  c.toNat = 0x20 || (0x09 ≤ c.toNat && c.toNat ≤ 0x0D)

/-- Removes the characters of a class from both ends. -/
def trimBy (drop : Char → Bool) (cs : List Char) : List Char :=
  ((cs.dropWhile drop).reverse.dropWhile drop).reverse

end ScriptAudit.Text
