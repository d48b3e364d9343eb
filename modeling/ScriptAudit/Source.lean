import ScriptAudit.Text.Utf8

/-!
# Source bytes and their spans

A source is the bytes of a file. A span is cut out by two byte offsets; an offset below zero counts
from the end, an offset past either end is moved to that end, and a span whose end does not lie
behind its start is empty.
-/

set_option autoImplicit false

namespace ScriptAudit

/-- The bytes of a file. -/
abbrev Source := List UInt8

namespace Source

/-- Moves an offset into the source. -/
def clamp (size : Nat) (offset : Int) : Nat :=
  if offset < 0 then (offset + size).toNat else min offset.toNat size

/-- The bytes from one offset up to another. -/
def slice (source : Source) (start stop : Int) : List UInt8 :=
  (source.take (clamp source.length stop)).drop (clamp source.length start)

/-- The text from one byte offset up to another. -/
def text (source : Source) (start stop : Int) : String :=
  String.ofList (Text.Utf8.decode (source.slice start stop))

/-- The column, counted in characters from one, of a byte offset that lies `column` bytes behind the
start of its line. -/
def characterColumn (source : Source) (offset column : Nat) : Nat :=
  (Text.Utf8.decode (source.slice ((offset : Int) - column) offset)).length + 1

end Source

end ScriptAudit
