import ScriptAudit.Concrete
import ScriptAudit.Json.Basic

/-!
# Concrete trees as they are exchanged

A grammar runs elsewhere and hands its trees over as JSON. A tree is an object with short names: `t`
its kind, `s` and `e` its byte span, `r` and `c` the row and column of its first byte, `f` its
field, `a` whether it is anonymous, and `k` its children. A member that is missing has its default,
and of a member that is repeated the first counts.
-/

set_option autoImplicit false

namespace ScriptAudit.Concrete

/-- A label of no kind at the start of a source. -/
def Label.empty : Label := { kind := "", start := 0, stop := 0, row := 0, column := 0 }

/-- A label with one member of an object taken in. -/
def Label.take (label : Label) (name : String) (v : Json) : Label :=
  match name with
  | "t" => { label with kind := v.text?.getD "" }
  | "s" => { label with start := v.nat?.getD 0 }
  | "e" => { label with stop := v.nat?.getD 0 }
  | "r" => { label with row := v.nat?.getD 0 }
  | "c" => { label with column := v.nat?.getD 0 }
  | "f" => { label with field := v.text? }
  | "a" => { label with named := !v.isTrue }
  | _ => label

namespace Tree

mutual
/-- The tree of an object. -/
def ofJson : Json → Tree
  | .object members => ofMembers members
  | _ => node .empty []

/-- The tree of the members of an object. -/
def ofMembers : List (String × Json) → Tree
  | [] => node .empty []
  | (name, v) :: rest =>
    match ofMembers rest with
    | node label children => node (label.take name v) (if name = "k" then ofChildren v else children)

/-- The trees of an array. -/
def ofChildren : Json → List Tree
  | .array vs => ofElements vs
  | _ => []

/-- The trees of a list of objects. -/
def ofElements : List Json → List Tree
  | [] => []
  | v :: rest => ofJson v :: ofElements rest
end

end Tree

end ScriptAudit.Concrete
