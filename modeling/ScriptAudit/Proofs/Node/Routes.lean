import ScriptAudit.Proofs.Node.Spans

/-!
# Routes through a tree

A route leads from a node down to one below it, from child to child. Every node of a tree is at the
end of a route from the root, and what lies below it lies below every node on the route, as one
unbroken part of its pre-order.

A search that starts where a node starts knows nothing of the node. In a tree that is nested and
ordered and has no empty nodes it ends on the route all the same: what lies beside the route, to its
left, has ended before the node starts, and being not empty it starts even earlier. So the search
answers with the first node on the route that starts no earlier than the node at its end.
-/

set_option autoImplicit false

namespace ScriptAudit.Node

/-- The nodes on the way from one node down to another, both included. -/
inductive Route : Node → Node → List Node → Prop where
  | here (n : Node) : Route n n [n]
  | down {n c m : Node} {path : List Node} (hc : c ∈ n.children) (rest : Route c m path) :
      Route n m (n :: path)

/-- No node of a tree is empty. -/
def Solid (root : Node) : Prop := ∀ n ∈ root.preorder, n.head.start < n.head.stop

variable {root c m n : Node} {path : List Node}

/-- No node below a child is empty if none below the parent is. -/
theorem Solid.of_mem_children (h : n.Solid) (hc : c ∈ n.children) : c.Solid := by
  intro m hm
  exact h m (mem_preorder_of_mem_children hc hm)

/-- There is a way from the root to every node of its pre-order. -/
theorem exists_route (h : m ∈ root.preorder) : ∃ path, Route root m path := by
  induction root using induction_children with
  | step root ih =>
    rw [preorder_eq, List.mem_cons, List.mem_flatMap] at h
    rcases h with rfl | ⟨c, hc, hm⟩
    · exact ⟨[m], .here m⟩
    · obtain ⟨path, hpath⟩ := ih c hc hm
      exact ⟨root :: path, .down hc hpath⟩

/-- A way leads to a node of the pre-order. -/
theorem Route.mem_preorder (h : Route n m path) : m ∈ n.preorder := by
  induction h with
  | here n => exact n.self_mem_preorder
  | down hc _ ih => exact mem_preorder_of_mem_children hc ih

/-- The end of a route lies below every node on it. -/
theorem Route.mem_preorder_of_mem {a : Node} (h : Route n m path) (ha : a ∈ path) :
    m ∈ a.preorder := by
  induction h with
  | here n =>
    rw [List.mem_singleton.mp ha]
    exact n.self_mem_preorder
  | down hc rest ih =>
    rcases List.mem_cons.mp ha with rfl | ha
    · exact (Route.down hc rest).mem_preorder
    · exact ih ha

/-- What lies below a node of a tree is an unbroken part of the pre-order of the tree. -/
theorem preorder_isInfix_of_mem (h : m ∈ n.preorder) : m.preorder <:+: n.preorder := by
  induction n using induction_children with
  | step n ih =>
    have hself := n.preorder_eq
    rw [hself, List.mem_cons, List.mem_flatMap] at h
    rcases h with rfl | ⟨c, hc, hm⟩
    · exact List.infix_rfl
    · obtain ⟨before, behind, hchildren⟩ := List.append_of_mem hc
      have hchild : c.preorder <:+: n.preorder := by
        rw [hself, hchildren, List.flatMap_append, List.flatMap_cons]
        exact ⟨n :: before.flatMap preorder, behind.flatMap preorder, by simp⟩
      exact (ih c hc hm).trans hchild

/-! ## Searching from the start of a node -/

/-- Nothing to the left of a child starts as late as the child. -/
theorem Ordered.start_lt_of_before {before behind : List Node} (hordered : n.Ordered)
    (hnested : n.Nested) (hsolid : n.Solid) (hchildren : n.children = before ++ c :: behind)
    {k : Node} (hk : k ∈ before.flatMap preorder) : k.head.start < c.head.start := by
  obtain ⟨b, hb, hk⟩ := List.mem_flatMap.mp hk
  have hb' : b ∈ n.children := by
    rw [hchildren]
    exact List.mem_append_left _ hb
  have hpairwise := hordered n n.self_mem_preorder
  rw [hchildren, List.pairwise_append] at hpairwise
  have hbefore : b.head.stop ≤ c.head.start := hpairwise.2.2 b hb c List.mem_cons_self
  have hinside := (hnested.of_mem_children hb').within hk
  have hlength := hsolid k (mem_preorder_of_mem_children hb' hk)
  omega

/-- The first node of the pre-order that starts no earlier than the end of a route is on the route,
where it is the first that starts at the same offset as the end. -/
theorem Route.exists_find? (h : Route root m path) (hsolid : root.Solid) (hnested : root.Nested)
    (hordered : root.Ordered) :
    ∃ anchor,
      root.preorder.find? (fun n => m.head.start ≤ n.head.start) = some anchor ∧
        path.find? (fun n => n.head.start = m.head.start) = some anchor := by
  induction h with
  | here n =>
    refine ⟨n, ?_, ?_⟩
    · rw [preorder_eq, List.find?_cons_of_pos (by simp)]
    · rw [List.find?_cons_of_pos (by simp)]
  | @down n c m path hc rest ih =>
    have hwithin := hnested.within (Route.down hc rest).mem_preorder
    by_cases hstart : n.head.start = m.head.start
    · refine ⟨n, ?_, ?_⟩
      · rw [preorder_eq, List.find?_cons_of_pos (by simp [hstart])]
      · rw [List.find?_cons_of_pos (by simp [hstart])]
    · -- the search passes the node and everything to the left of the child on the route
      obtain ⟨anchor, hfirst, hpath⟩ := ih (hsolid.of_mem_children hc) (hnested.of_mem_children hc)
        (hordered.of_mem_children hc)
      obtain ⟨before, behind, hchildren⟩ := List.append_of_mem hc
      have hchild := (hnested.of_mem_children hc).within rest.mem_preorder
      have hnone : (before.flatMap preorder).find?
          (fun k => decide (m.head.start ≤ k.head.start)) = none := by
        apply List.find?_eq_none.mpr
        intro k hk
        have hk' := hordered.start_lt_of_before hnested hsolid hchildren hk
        rw [decide_eq_true_eq]
        omega
      have hearly : ¬ m.head.start ≤ n.head.start := by omega
      refine ⟨anchor, ?_, ?_⟩
      · rw [preorder_eq, List.find?_cons_of_neg (by simpa using hearly), hchildren,
          List.flatMap_append, List.flatMap_cons, List.find?_append, hnone, Option.none_or,
          List.find?_append, hfirst, Option.some_or]
      · rw [List.find?_cons_of_neg (by simpa using hstart), hpath]

/-- A search from the start of a node of the tree answers with the outermost node on the route to it
that starts there. -/
theorem Route.exists_firstAfter? (h : Route root m path) (hsolid : root.Solid)
    (hnested : root.Nested) (hordered : root.Ordered) :
    ∃ anchor, root.firstAfter? m.head.start = some anchor ∧
      path.find? (fun n => n.head.start = m.head.start) = some anchor := by
  obtain ⟨anchor, hfirst, hpath⟩ := h.exists_find? hsolid hnested hordered
  refine ⟨anchor, ?_, hpath⟩
  rw [firstAfter?_eq_find?_preorder hnested]
  simpa using hfirst

end ScriptAudit.Node
