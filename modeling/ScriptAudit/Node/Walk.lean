import ScriptAudit.Node.Basic

/-!
# Walking and searching trees

A walk keeps a list of nodes that are still to be visited. It takes the first, and puts that node's
children in front of the rest. A search does the same, but it never enters a node that ends before
the offset it looks for.
-/

set_option autoImplicit false

namespace ScriptAudit.Node

/-- The number of nodes of a list of trees. -/
def totalSize (pending : List Node) : Nat := total (pending.map size)

/-- Taking a node and pending its children instead leaves one node less. -/
theorem totalSize_children (n : Node) (rest : List Node) :
    totalSize (n.children ++ rest) < totalSize (n :: rest) := by
  simp only [totalSize, List.map_append, List.map_cons, total_append, total_cons, size_eq n]
  omega

/-- Dropping a pending node leaves fewer nodes. -/
theorem totalSize_tail (n : Node) (rest : List Node) :
    totalSize rest < totalSize (n :: rest) := by
  simp only [totalSize, List.map_cons, total_cons, size_eq n]
  omega

/-- Visits all pending nodes and what lies below them. -/
def visit (pending : List Node) : List Node :=
  match pending with
  | [] => []
  | n :: rest => n :: visit (n.children ++ rest)
termination_by totalSize pending
decreasing_by exact totalSize_children n rest

/-- A node and all nodes below it, in the order of the walk. -/
def walk (n : Node) : List Node := visit [n]

/-- The first pending node, in the order of the walk, that starts at or after an offset and passes
a test. Nodes that end before the offset are not entered. -/
def seek (offset : Int) (test : Node → Bool) (pending : List Node) : Option Node :=
  match pending with
  | [] => none
  | n :: rest =>
    if n.head.stop < offset then seek offset test rest
    else if offset ≤ n.head.start && test n then some n
    else seek offset test (n.children ++ rest)
termination_by totalSize pending
decreasing_by
  · exact totalSize_tail n rest
  · exact totalSize_children n rest

/-- The first node of a tree that starts at or after an offset and passes a test. -/
def firstAfter? (root : Node) (offset : Int) (test : Node → Bool := fun _ => true) : Option Node :=
  seek offset test [root]

/-- The number of nodes a walk visits. -/
def count (root : Node) : Nat := root.walk.length

/-- The kinds that count as functions. -/
def functionKinds : List String :=
  ["FunctionDeclaration", "FunctionExpression", "ArrowFunctionExpression", "MethodDefinition"]

/-- How many nodes a tree has, and how many of them are functions. -/
structure Census where
  nodes : Nat
  functions : Nat
  deriving DecidableEq, Repr

/-- Counts the nodes and the functions of a tree in one walk. -/
def census (root : Node) : Census :=
  root.walk.foldl (fun c n =>
    { nodes := c.nodes + 1,
      functions := if functionKinds.contains n.kind then c.functions + 1 else c.functions })
    { nodes := 0, functions := 0 }

end ScriptAudit.Node
