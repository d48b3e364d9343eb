import ScriptAudit.Node.Walk

/-!
# The walk of a tree is its pre-order

The walk keeps a list of pending nodes and knows nothing of the shape of the tree; the pre-order is
defined by recursion on the tree. They are the same list. What carries the proof is the invariant of
the pending list: what a walk still visits is the pre-orders of the pending nodes, one after the
other.

From there on trees are described by their pre-order alone. It is closed downwards, and a search
only ever answers with one of its members.
-/

set_option autoImplicit false

namespace ScriptAudit.Node

/-- A node is in its own pre-order. -/
@[simp] theorem self_mem_preorder (n : Node) : n ∈ n.preorder := by
  rw [preorder_eq]
  exact List.mem_cons_self

/-- The pre-order of a child is in that of its parent. -/
theorem mem_preorder_of_mem_children {m c n : Node} (hc : c ∈ n.children)
    (hm : m ∈ c.preorder) : m ∈ n.preorder := by
  rw [preorder_eq]
  exact List.mem_cons_of_mem _ (List.mem_flatMap.mpr ⟨c, hc, hm⟩)

/-- What lies below a node of a tree lies in the tree. -/
theorem mem_preorder_trans {k m n : Node} (hm : m ∈ n.preorder) (hk : k ∈ m.preorder) :
    k ∈ n.preorder := by
  induction n using induction_children with
  | step n ih =>
    rw [preorder_eq, List.mem_cons, List.mem_flatMap] at hm
    rcases hm with rfl | ⟨c, hc, hmc⟩
    · exact hk
    · exact mem_preorder_of_mem_children hc (ih c hc hmc)

/-- The invariant of the walk: the pending nodes stand for their pre-orders. -/
theorem visit_eq_flatMap_preorder (pending : List Node) :
    visit pending = pending.flatMap preorder := by
  fun_induction visit pending with
  | case1 => rfl
  | case2 n rest ih =>
    rw [ih, List.flatMap_append, List.flatMap_cons, preorder_eq n, List.cons_append]

/-- The walk of a tree is its pre-order. -/
theorem walk_eq_preorder (n : Node) : n.walk = n.preorder := by
  rw [walk, visit_eq_flatMap_preorder, List.flatMap_singleton]

/-- The walk counts all nodes of a tree. -/
theorem count_eq_size (root : Node) : root.count = root.size := by
  rw [count, walk_eq_preorder, length_preorder]

/-- A census counts every node once. -/
theorem nodes_foldl_census (ns : List Node) (c : Census) :
    (ns.foldl (fun c n =>
      { nodes := c.nodes + 1,
        functions := if functionKinds.contains n.kind then c.functions + 1 else c.functions :
        Census }) c).nodes = c.nodes + ns.length := by
  induction ns generalizing c with
  | nil => rfl
  | cons n ns ih =>
    rw [List.foldl_cons, ih, List.length_cons]
    show c.nodes + 1 + ns.length = c.nodes + (ns.length + 1)
    omega

/-- The census of a tree counts all its nodes. -/
theorem nodes_census_eq_size (root : Node) : root.census.nodes = root.size := by
  rw [census, nodes_foldl_census, walk_eq_preorder, length_preorder, Nat.zero_add]

/-- A search answers with a node that lies below a pending one. -/
theorem mem_flatMap_of_seek {offset : Int} {test : Node → Bool} {pending : List Node} {m : Node}
    (h : seek offset test pending = some m) : m ∈ pending.flatMap preorder := by
  fun_induction seek offset test pending with
  | case1 => cases h
  | case2 n rest hstop ih =>
    rw [List.flatMap_cons]
    exact List.mem_append_right _ (ih h)
  | case3 n rest hstop hfound =>
    obtain rfl : n = m := Option.some.inj h
    rw [List.flatMap_cons]
    exact List.mem_append_left _ (self_mem_preorder n)
  | case4 n rest hstop hmiss ih =>
    have hm := ih h
    rw [List.flatMap_append, List.mem_append] at hm
    rw [List.flatMap_cons, preorder_eq, List.cons_append, List.mem_cons, List.mem_append]
    exact Or.inr hm

/-- A search in a tree answers with a node of the tree. -/
theorem mem_preorder_of_firstAfter? {root m : Node} {offset : Int} {test : Node → Bool}
    (h : root.firstAfter? offset test = some m) : m ∈ root.preorder := by
  have hm := mem_flatMap_of_seek h
  rwa [List.flatMap_singleton] at hm

end ScriptAudit.Node
