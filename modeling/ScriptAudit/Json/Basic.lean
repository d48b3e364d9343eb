/-!
# JSON values

Objects keep their members in the order in which they are written. A number is kept exactly: one
written without point and exponent is an integer, any other a whole number times a power of ten.
-/

set_option autoImplicit false

namespace ScriptAudit

/-- A JSON value. -/
inductive Json where
  | null
  | bool (b : Bool)
  | integer (i : Int)
  | decimal (mantissa : Int) (exponent : Int)
  | string (s : String)
  | array (elements : List Json)
  | object (members : List (String × Json))
  deriving Inhabited, Repr

namespace Json

/-- A natural number. -/
def nat (n : Nat) : Json := integer n

/-- The value of the first member of a name; nothing for a value that is no object. -/
def member? (name : String) : Json → Option Json
  | object members => (members.find? (·.1 = name)).map (·.2)
  | _ => none

/-- The text of a string. -/
def text? : Json → Option String
  | string s => some s
  | _ => none

/-- The value of an integer that is not negative. -/
def nat? : Json → Option Nat
  | integer i => if 0 ≤ i then some i.toNat else none
  | _ => none

/-- The value `true`. -/
def isTrue : Json → Bool
  | bool b => b
  | _ => false

/-- The elements of an array; nothing for a value that is no array. -/
def elements : Json → List Json
  | array vs => vs
  | _ => []

/-- The text of a member. -/
def textOf? (name : String) (v : Json) : Option String := (v.member? name).bind text?

/-- Whether a member is `true`. -/
def flagOf (name : String) (v : Json) : Bool := ((v.member? name).map isTrue).getD false

/-- The elements of a member. -/
def elementsOf (name : String) (v : Json) : List Json := ((v.member? name).map elements).getD []

/-- A value, or `null` when there is none. -/
def ofOption {α : Type} (f : α → Json) : Option α → Json
  | some a => f a
  | none => null

end Json

end ScriptAudit
