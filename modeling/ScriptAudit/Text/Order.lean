/-!
# The order of texts

Texts are ordered by the code points of their characters, and lists of texts by their members, the
first difference deciding. A list comes before every longer list that it begins.
-/

set_option autoImplicit false

namespace ScriptAudit.Text

universe u

/-- The order of lists under an order of their members. -/
def lexicographic {α : Type u} (less : α → α → Bool) : List α → List α → Bool
  | [], _ => true
  | _ :: _, [] => false
  | a :: as, b :: bs => if less a b then true else if less b a then false else lexicographic less as bs

/-- One character comes before another. -/
def charLess (c d : Char) : Bool := Nat.blt c.toNat d.toNat

/-- One text does not come behind another. -/
def textLe (s t : String) : Bool := lexicographic charLess s.toList t.toList

/-- One text comes before another. -/
def textLess (s t : String) : Bool := !textLe t s

/-- One list of texts does not come behind another. -/
def textsLe (ss ts : List String) : Bool := lexicographic textLess ss ts

end ScriptAudit.Text
