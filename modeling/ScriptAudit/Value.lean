/-!
# Literal values

The value a literal of a script stands for. Whole numbers are unbounded; every other number is a
binary floating-point number of double precision.
-/

set_option autoImplicit false

namespace ScriptAudit

/-- The value of a literal; `null` also stands for a literal without a text or number value. -/
inductive Value where
  | null
  | bool (b : Bool)
  | text (s : String)
  | integer (i : Int)
  | float (x : Float)
  deriving Repr

end ScriptAudit
