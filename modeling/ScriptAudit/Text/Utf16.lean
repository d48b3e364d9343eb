/-!
# UTF-16 code units

A text of sixteen-bit units is read by joining each high half with the low half right after it;
a half without its partner counts as one replacement character.
-/

set_option autoImplicit false

namespace ScriptAudit.Text.Utf16

/-- A sixteen-bit code unit. -/
abbrev CodeUnit := UInt16

/-- The first half of a pair. -/
def isHigh (u : CodeUnit) : Bool := 0xD800 ≤ u.toNat && u.toNat ≤ 0xDBFF

/-- The second half of a pair. -/
def isLow (u : CodeUnit) : Bool := 0xDC00 ≤ u.toNat && u.toNat ≤ 0xDFFF

/-- The units of a code point: itself up to U+FFFF, surrogates included, and a pair above. -/
def unitsOf (n : Nat) : List CodeUnit :=
  if n < 0x10000 then [UInt16.ofNat n]
  else
    [UInt16.ofNat (0xD800 + (n - 0x10000) / 0x400), UInt16.ofNat (0xDC00 + (n - 0x10000) % 0x400)]

/-- The units of a text. -/
def encode (cs : List Char) : List CodeUnit := cs.flatMap fun c => unitsOf c.toNat

/-- The character of a unit that stands alone. -/
def alone (u : CodeUnit) : Char :=
  if isHigh u || isLow u then '\uFFFD' else Char.ofNat u.toNat

/-- The character of a pair of halves. -/
def joined (high low : CodeUnit) : Char :=
  Char.ofNat (0x10000 + (high.toNat - 0xD800) * 0x400 + (low.toNat - 0xDC00))

/-- The text of a list of units. -/
def decode : List CodeUnit → List Char
  | [] => []
  | [u] => [alone u]
  | u :: v :: rest =>
    if isHigh u && isLow v then joined u v :: decode rest
    else alone u :: decode (v :: rest)

end ScriptAudit.Text.Utf16
