/-!
# Tables of character ranges

A property of characters that comes from a published table is kept as a list of closed ranges of
code points. One function asks whether a character lies in such a list.
-/

set_option autoImplicit false

namespace ScriptAudit.Text

/-- A table of closed ranges of code points, each given by its first and last member. -/
abbrev RangeTable := List (Nat × Nat)

/-- A character belongs to a table when its code point lies in one of the ranges. -/
def RangeTable.has (table : RangeTable) (c : Char) : Bool :=
  table.any fun (first, last) => first ≤ c.toNat && c.toNat ≤ last

end ScriptAudit.Text
