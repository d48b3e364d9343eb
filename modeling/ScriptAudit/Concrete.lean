/-!
# Concrete trees

The tree a grammar gives for a script, every token included. A label carries the kind of the tree,
its byte span, the position of its first byte, and its role in its parent: an optional field name,
and whether it is named by the grammar or just punctuation.
-/

set_option autoImplicit false

namespace ScriptAudit.Concrete

/-- What a concrete tree says about itself. Rows and columns count from zero, columns in bytes. -/
structure Label where
  kind : String
  start : Nat
  stop : Nat
  row : Nat
  column : Nat
  field : Option String := none
  named : Bool := true
  deriving DecidableEq, Inhabited, Repr

/-- A concrete tree. -/
inductive Tree where
  | node (label : Label) (children : List Tree)
  deriving Inhabited, Repr

namespace Tree

/-- The label of a tree. -/
def label : Tree → Label
  | node label _ => label

/-- The children of a tree. -/
def children : Tree → List Tree
  | node _ children => children

end Tree

end ScriptAudit.Concrete
