import ScriptAudit.Total
import ScriptAudit.Value

/-!
# Abstract nodes

The tree the rules look at. Every node has a head with its kind and its place in the source; some
shapes carry more. The kind is free text, so a head may name a kind that its shape does not have.

The children of a node are one list, whatever its shape. Induction and recursion go through that
list: `Node.preorder` lists a node before its children, and `Node.size` counts the nodes.
-/

set_option autoImplicit false

namespace ScriptAudit

/-- The kind of a node, its byte span, and its line and column, both counted from one. -/
structure Head where
  kind : String
  start : Int
  stop : Int
  line : Int
  column : Int
  deriving DecidableEq, Inhabited, Repr

/-- A node of the abstract tree. A part that the parser could not recover is absent. -/
inductive Node where
  | bare (head : Head)
  | identifier (head : Head) (name : Option String)
  | literal (head : Head) (value : Value) (raw : Option String)
  | member (head : Head) (object property : Option Node) (computed : Bool)
  | call (head : Head) (callee : Option Node) (arguments : List Node)
  | binary (head : Head) (operator : Option String) (left right : Option Node)
  | generic (head : Head) (nodes : List Node)
  deriving Inhabited, Repr

namespace Node

/-- The head of a node. -/
def head : Node → Head
  | bare head => head
  | identifier head _ => head
  | literal head _ _ => head
  | member head _ _ _ => head
  | call head _ _ => head
  | binary head _ _ _ => head
  | generic head _ => head

/-- The kind of a node. -/
def kind (n : Node) : String := n.head.kind

/-- The children of a node in source order. -/
def children : Node → List Node
  | member _ object property _ => object.toList ++ property.toList
  | call _ callee arguments => callee.toList ++ arguments
  | binary _ _ left right => left.toList ++ right.toList
  | generic _ nodes => nodes
  | _ => []

/-- The name of an identifier. -/
def name? : Node → Option String
  | identifier _ name => name
  | _ => none

/-- The operator of a binary expression. -/
def operator? : Node → Option String
  | binary _ operator _ _ => operator
  | _ => none

/-- The object of a member access. -/
def object? : Node → Option Node
  | member _ object _ _ => object
  | _ => none

/-- The property of a member access. -/
def property? : Node → Option Node
  | member _ _ property _ => property
  | _ => none

/-- The function of a call. -/
def callee? : Node → Option Node
  | call _ callee _ => callee
  | _ => none

/-- The operands of a binary expression, left and right. -/
def operands : Node → Option Node × Option Node
  | binary _ _ left right => (left, right)
  | _ => (none, none)

/-- The source text of a literal. -/
def raw? : Node → Option String
  | literal _ _ raw => raw
  | _ => none

/-- The value of a literal. -/
def value : Node → Value
  | literal _ value _ => value
  | _ => .null

/-- A child is smaller than its parent. -/
theorem sizeOf_lt_of_mem_children {c n : Node} (h : c ∈ n.children) : sizeOf c < sizeOf n := by
  cases n with
  | member hd object property computed =>
    simp only [children, List.mem_append, Option.mem_toList] at h
    rcases h with h | h <;> subst h <;> simp <;> omega
  | call hd callee arguments =>
    simp only [children, List.mem_append, Option.mem_toList] at h
    rcases h with h | h
    · subst h; simp; omega
    · have := List.sizeOf_lt_of_mem h; simp; omega
  | binary hd operator left right =>
    simp only [children, List.mem_append, Option.mem_toList] at h
    rcases h with h | h <;> subst h <;> simp <;> omega
  | generic hd nodes =>
    have := List.sizeOf_lt_of_mem (show c ∈ nodes from h); simp; omega
  | _ => simp [children] at h

/-- What holds of a node whenever it holds of all its children holds of every node. -/
theorem induction_children {motive : Node → Prop}
    (step : ∀ n, (∀ c ∈ n.children, motive c) → motive n) (n : Node) : motive n :=
  step n fun c _ => induction_children step c
termination_by sizeOf n
decreasing_by exact sizeOf_lt_of_mem_children ‹_›

/-- A node and all nodes below it, each before its children, from left to right. -/
def preorder (n : Node) : List Node :=
  n :: n.children.attach.flatMap fun ⟨c, _⟩ => c.preorder
termination_by sizeOf n
decreasing_by exact sizeOf_lt_of_mem_children ‹_›

/-- The number of nodes of a tree. -/
def size (n : Node) : Nat :=
  1 + total (n.children.attach.map fun ⟨c, _⟩ => c.size)
termination_by sizeOf n
decreasing_by exact sizeOf_lt_of_mem_children ‹_›

/-- The pre-order of a node is the node and then the pre-orders of its children. -/
theorem preorder_eq (n : Node) : n.preorder = n :: n.children.flatMap preorder := by
  rw [preorder]
  congr 1
  rw [List.flatMap_subtype (g := preorder) fun _ _ => rfl, List.unattach_attach]

/-- The size of a node is one more than the sizes of its children. -/
theorem size_eq (n : Node) : n.size = 1 + total (n.children.map size) := by
  rw [size]
  congr 2
  rw [List.map_subtype (g := size) fun _ _ => rfl, List.unattach_attach]

/-- The pre-order lists as many nodes as the tree has. -/
theorem length_preorder (n : Node) : n.preorder.length = n.size := by
  induction n using induction_children with
  | step n ih =>
    rw [preorder_eq, size_eq, List.length_cons, length_flatMap_eq_total, Nat.add_comm]
    congr 2
    exact List.map_congr_left ih

end Node

end ScriptAudit
