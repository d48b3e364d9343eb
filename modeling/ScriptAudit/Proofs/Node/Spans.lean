import ScriptAudit.Proofs.Node.Preorder

/-!
# Spans of a tree

A tree is nested if every node ends no earlier than it starts and every child lies within its
parent; it is ordered if the children of every node come one behind the other. Neither is required
of a tree, so both are hypotheses here.

In a nested tree every node lies within the span of the root. A search passes over whole trees that
end before its offset; in a nested tree no node in them starts late enough, so nothing is missed,
and the search answers as if it had looked at every node of the walk. In a tree that is ordered as
well the nodes of the walk start one behind the other.
-/

set_option autoImplicit false

namespace ScriptAudit.Node

/-- A node ends no earlier than it starts, and its children lie within it. -/
structure NestedAt (n : Node) : Prop where
  proper : n.head.start ≤ n.head.stop
  inside : ∀ c ∈ n.children, n.head.start ≤ c.head.start ∧ c.head.stop ≤ n.head.stop

/-- Every node of a tree is nested. -/
def Nested (root : Node) : Prop := ∀ n ∈ root.preorder, n.NestedAt

/-- The children of every node of a tree come one behind the other. -/
def Ordered (root : Node) : Prop :=
  ∀ n ∈ root.preorder, n.children.Pairwise fun a b => a.head.stop ≤ b.head.start

variable {root c m n : Node}

/-- The nodes of a child are nested. -/
theorem Nested.of_mem_children (h : n.Nested) (hc : c ∈ n.children) : c.Nested := by
  intro m hm
  exact h m (mem_preorder_of_mem_children hc hm)

/-- The nodes of a child are in order. -/
theorem Ordered.of_mem_children (h : n.Ordered) (hc : c ∈ n.children) : c.Ordered := by
  intro m hm
  exact h m (mem_preorder_of_mem_children hc hm)

/-- The nodes of a nested tree lie within its span. -/
theorem Nested.within (h : root.Nested) (hm : m ∈ root.preorder) :
    root.head.start ≤ m.head.start ∧ m.head.start ≤ m.head.stop ∧
      m.head.stop ≤ root.head.stop := by
  induction root using induction_children with
  | step root ih =>
    have hroot := h root root.self_mem_preorder
    rw [preorder_eq, List.mem_cons, List.mem_flatMap] at hm
    rcases hm with rfl | ⟨c, hc, hm⟩
    · exact ⟨Int.le_refl _, hroot.proper, Int.le_refl _⟩
    · obtain ⟨hstart, hproper, hstop⟩ := ih c hc (h.of_mem_children hc) hm
      obtain ⟨hfirst, hlast⟩ := hroot.inside c hc
      omega

/-! ## Searching -/

/-- A tree that ends before an offset has no node that starts at or after it. -/
theorem Nested.find?_eq_none {offset : Int} (h : n.Nested) (hstop : n.head.stop < offset)
    (test : Node → Bool) :
    n.preorder.find? (fun m => offset ≤ m.head.start && test m) = none := by
  apply List.find?_eq_none.mpr
  intro m hm
  obtain ⟨-, hproper, hlast⟩ := h.within hm
  have hlate : ¬ offset ≤ m.head.start := by omega
  simp [hlate]

/-- The invariant of the search: of the pending nodes and all below them, it answers with the first
that qualifies. -/
theorem seek_eq_find? {offset : Int} {test : Node → Bool} {pending : List Node}
    (h : ∀ n ∈ pending, n.Nested) :
    seek offset test pending =
      (pending.flatMap preorder).find? fun n => offset ≤ n.head.start && test n := by
  fun_induction seek offset test pending with
  | case1 => rfl
  | case2 n rest hstop ih =>
    have hnone := (h n List.mem_cons_self).find?_eq_none hstop test
    have hrest := ih fun m hm => h m (List.mem_cons_of_mem _ hm)
    rw [List.flatMap_cons, List.find?_append, hnone, Option.none_or, hrest]
  | case3 n rest hstop hfound =>
    rw [List.flatMap_cons, preorder_eq, List.cons_append, List.find?_cons, hfound]
  | case4 n rest hstop hmiss ih =>
    have hpending : ∀ m ∈ n.children ++ rest, m.Nested := by
      intro m hm
      rcases List.mem_append.mp hm with hm | hm
      · exact (h n List.mem_cons_self).of_mem_children hm
      · exact h m (List.mem_cons_of_mem _ hm)
    rw [ih hpending, List.flatMap_cons, preorder_eq, List.cons_append,
      List.find?_cons, eq_false_of_ne_true hmiss, List.flatMap_append]

/-- The search with skips finds the first node of the pre-order that is late enough and passes the
test. -/
theorem firstAfter?_eq_find?_preorder (h : root.Nested) (offset : Int) (test : Node → Bool) :
    root.firstAfter? offset test =
      root.preorder.find? fun n => offset ≤ n.head.start && test n := by
  have hpending : ∀ n ∈ [root], n.Nested := by
    intro n hn
    rwa [List.mem_singleton.mp hn]
  rw [firstAfter?, seek_eq_find? hpending, List.flatMap_singleton]

/-- **The pruned search agrees with the plain one.** In a nested tree a search answers with the
first node of the walk that starts at or after the offset and passes the test, or that just starts
there if there is no test; it has no answer exactly if the walk has no such node. -/
theorem firstAfter?_eq_find?_walk (root : Node) (h : root.Nested) (offset : Int) :
    (∀ test : Node → Bool,
      root.firstAfter? offset test =
          root.walk.find? (fun n => offset ≤ n.head.start && test n) ∧
        (root.firstAfter? offset test = none ↔
          ∀ n ∈ root.walk, ¬ (offset ≤ n.head.start ∧ test n = true))) ∧
      root.firstAfter? offset = root.walk.find? (fun n => offset ≤ n.head.start) ∧
      (root.firstAfter? offset = none ↔ ∀ n ∈ root.walk, ¬ offset ≤ n.head.start) := by
  have htested (test : Node → Bool) := firstAfter?_eq_find?_preorder h offset test
  rw [walk_eq_preorder]
  refine ⟨?_, ?_, ?_⟩
  · intro test
    refine ⟨htested test, ?_⟩
    rw [htested test]
    simp
  · rw [htested]
    simp
  · rw [htested]
    simp

/-- A tree in which a node that ends at offset 4 holds an empty node, and another one comes
later. -/
def gapTree : Node :=
  .generic ⟨"Program", 0, 9, 1, 1⟩
    [.generic ⟨"EmptyStatement", 0, 4, 1, 1⟩ [.identifier ⟨"Identifier", 4, 4, 1, 5⟩ (some "")],
      .generic ⟨"Block", 5, 9, 1, 6⟩ [.identifier ⟨"Identifier", 6, 8, 1, 7⟩ (some "id")]]

/-- The node that ends where the search begins is entered, and so is the block that starts late
enough but fails the test. -/
theorem firstAfter?_eq_find?_walk_gapTree :
    gapTree.Nested ∧
      (gapTree.firstAfter? 4).map head = some ⟨"Identifier", 4, 4, 1, 5⟩ ∧
      (gapTree.firstAfter? 4 fun n => n.name? = some "id").map head =
        some ⟨"Identifier", 6, 8, 1, 7⟩ ∧
      gapTree.firstAfter? 7 = none := by
  have hpreorder : gapTree.preorder =
      [gapTree, .generic ⟨"EmptyStatement", 0, 4, 1, 1⟩
          [.identifier ⟨"Identifier", 4, 4, 1, 5⟩ (some "")],
        .identifier ⟨"Identifier", 4, 4, 1, 5⟩ (some ""),
        .generic ⟨"Block", 5, 9, 1, 6⟩ [.identifier ⟨"Identifier", 6, 8, 1, 7⟩ (some "id")],
        .identifier ⟨"Identifier", 6, 8, 1, 7⟩ (some "id")] := by
    simp [gapTree, preorder_eq, children]
  have hnested : gapTree.Nested := by
    intro n hn
    rw [hpreorder] at hn
    simp only [List.mem_cons, List.not_mem_nil, or_false] at hn
    rcases hn with rfl | rfl | rfl | rfl | rfl
    all_goals exact ⟨by decide, by simp [gapTree, children, head]⟩
  refine ⟨hnested, ?_, ?_, ?_⟩
  · rw [(firstAfter?_eq_find?_walk gapTree hnested 4).2.1, walk_eq_preorder, hpreorder]
    rfl
  · rw [((firstAfter?_eq_find?_walk gapTree hnested 4).1 _).1, walk_eq_preorder, hpreorder]
    rfl
  · rw [(firstAfter?_eq_find?_walk gapTree hnested 7).2.1, walk_eq_preorder, hpreorder]
    rfl

/-! ## The starts of a walk -/

/-- In a tree that is nested and ordered no node of the walk starts before an earlier one. -/
theorem Nested.pairwise_start (h : root.Nested) (hordered : root.Ordered) :
    root.preorder.Pairwise fun a b => a.head.start ≤ b.head.start := by
  induction root using induction_children with
  | step root ih =>
    have hchildren := hordered root root.self_mem_preorder
    rw [preorder_eq, List.pairwise_cons, List.pairwise_flatMap]
    refine ⟨?_, ?_, ?_⟩
    · intro m hm
      obtain ⟨c, hc, hm⟩ := List.mem_flatMap.mp hm
      exact (h.within (mem_preorder_of_mem_children hc hm)).1
    · intro c hc
      exact ih c hc (h.of_mem_children hc) (hordered.of_mem_children hc)
    · -- what lies below a child starts before the child ends, and the next child starts behind it
      apply hchildren.imp_of_mem
      intro a b ha hb hab m hm k hk
      obtain ⟨-, hproper, hlast⟩ := (h.of_mem_children ha).within hm
      obtain ⟨hfirst, -⟩ := (h.of_mem_children hb).within hk
      omega

end ScriptAudit.Node
