import ScriptAudit.Proofs.Concrete.Outline
import ScriptAudit.Proofs.Node.Spans

/-!
# Spans of concrete trees

A parser gives spans that are nested, children that come one behind the other, and operands that
stand in the order in which they are written. The abstract tree keeps this, although the children of
its nodes are not children of one concrete tree: parentheses are taken off, argument lists are
opened, and operands are found by their fields.

Two facts carry the proof. Whatever lies in a tree lies within its span, so a tree may be replaced
by one that lies in it without getting in the way of its neighbours. And the branches of a tree come
one behind the other, as parts or as operands.
-/

set_option autoImplicit false

namespace ScriptAudit.Concrete.Tree

/-- One tree ends before another one starts. -/
def EndsBefore (a b : Tree) : Prop := a.label.stop ≤ b.label.start

instance : DecidableRel EndsBefore :=
  fun a b => inferInstanceAs (Decidable (a.label.stop ≤ b.label.start))

/-- The spans at the root of a tree as a parser gives them: the tree ends no earlier than it starts,
its children lie within it, each ends before the next one starts, and the two operands of an access,
a call or a binary expression are in order in the list of children. -/
structure SpannedAt (t : Tree) : Prop where
  proper : t.label.start ≤ t.label.stop
  inside : ∀ c ∈ t.children, t.label.start ≤ c.label.start ∧ c.label.stop ≤ t.label.stop
  consecutive : t.children.IsChain EndsBefore
  operands : ∀ fields ∈ t.label.operandFields?, ∀ a ∈ t.inField? fields.1,
    ∀ b ∈ t.inField? fields.2, [a, b].Sublist t.children

instance (t : Tree) : Decidable t.SpannedAt :=
  decidable_of_iff
    (t.label.start ≤ t.label.stop ∧
      (∀ c ∈ t.children, t.label.start ≤ c.label.start ∧ c.label.stop ≤ t.label.stop) ∧
      t.children.IsChain EndsBefore ∧
      ∀ fields ∈ t.label.operandFields?, ∀ a ∈ t.inField? fields.1,
        ∀ b ∈ t.inField? fields.2, [a, b].Sublist t.children)
    ⟨fun ⟨hproper, hinside, hchain, hoperands⟩ => ⟨hproper, hinside, hchain, hoperands⟩,
      fun h => ⟨h.proper, h.inside, h.consecutive, h.operands⟩⟩

/-- The spans of all trees in a tree are as a parser gives them. -/
def Spanned (t : Tree) : Prop := ∀ s ∈ t.subtrees, s.SpannedAt

instance (t : Tree) : Decidable t.Spanned :=
  inferInstanceAs (Decidable (∀ s ∈ t.subtrees, s.SpannedAt))

variable {s t : Tree}

/-- The subtrees have spans as a parser gives them. -/
theorem Spanned.of_mem_subtrees (h : t.Spanned) (hs : s ∈ t.subtrees) : s.Spanned := by
  intro r hr
  exact h r (mem_subtrees_trans hs hr)

/-- The children have spans as a parser gives them. -/
theorem Spanned.of_mem_children {c : Tree} (h : t.Spanned) (hc : c ∈ t.children) : c.Spanned :=
  h.of_mem_subtrees (mem_subtrees_of_mem_descendants (mem_descendants_of_mem_children hc))

/-- What lies in a tree lies within its span. -/
theorem Spanned.within (h : t.Spanned) (hs : s ∈ t.subtrees) :
    t.label.start ≤ s.label.start ∧ s.label.stop ≤ t.label.stop := by
  induction t using induction_descendants with
  | step t ih =>
    rw [subtrees_eq, List.mem_cons] at hs
    rcases hs with rfl | hs
    · exact ⟨Nat.le_refl _, Nat.le_refl _⟩
    · obtain ⟨c, hc, hs⟩ := List.mem_flatMap.mp hs
      have hsc := ih c (mem_descendants_of_mem_children hc) (h.of_mem_children hc) hs
      have hct := (h t t.self_mem_subtrees).inside c hc
      omega

/-- Trees that lie in two trees, one of which ends before the other starts, are in that order
too. -/
theorem EndsBefore.of_mem_subtrees {a b x y : Tree} (h : a.EndsBefore b) (ha : a.Spanned)
    (hb : b.Spanned) (hx : x ∈ a.subtrees) (hy : y ∈ b.subtrees) : x.EndsBefore y := by
  have hxa := ha.within hx
  have hyb := hb.within hy
  unfold EndsBefore at h ⊢
  omega

/-- Trees that follow each other directly are in order as a whole, because none of them is turned
around. -/
theorem pairwise_endsBefore {ts : List Tree} (hproper : ∀ t ∈ ts, t.label.start ≤ t.label.stop)
    (h : ts.IsChain EndsBefore) : ts.Pairwise EndsBefore := by
  induction ts with
  | nil => exact List.Pairwise.nil
  | cons a ts ih =>
    have hrest := ih (fun t ht => hproper t (List.mem_cons_of_mem _ ht)) h.of_cons
    refine List.pairwise_cons.mpr ⟨?_, hrest⟩
    intro c hc
    cases ts with
    | nil => cases hc
    | cons b ts =>
      have hab : a.EndsBefore b := (List.isChain_cons_cons.mp h).1
      rcases List.mem_cons.mp hc with rfl | hc
      · exact hab
      · have hbc : b.EndsBefore c := (List.pairwise_cons.mp hrest).1 c hc
        have hb := hproper b (List.mem_cons_of_mem _ List.mem_cons_self)
        unfold EndsBefore at hab hbc ⊢
        omega

/-- Every child ends before those behind it start. -/
theorem Spanned.pairwise_children (h : t.Spanned) : t.children.Pairwise EndsBefore := by
  apply pairwise_endsBefore
  · intro c hc
    exact (h.of_mem_children hc c c.self_mem_subtrees).proper
  · exact (h t t.self_mem_subtrees).consecutive

/-! ## Branches are in order -/

/-- Every part ends before those behind it start. -/
theorem Spanned.pairwise_parts (h : t.Spanned) : t.parts.Pairwise EndsBefore := by
  induction t using induction_descendants with
  | step t ih =>
    have hconstituents : t.constituents.Pairwise EndsBefore := h.pairwise_children.filter _
    rw [parts_eq, List.pairwise_flatMap]
    constructor
    · intro c hc
      have hchild := mem_children_of_mem_constituents hc
      by_cases hkind : c.label.kind = "arguments"
      · rw [spread_of_arguments hkind]
        exact ih c (mem_descendants_of_mem_children hchild) (h.of_mem_children hchild)
      · rw [spread_of_ne hkind]
        exact List.pairwise_singleton _ _
    · apply hconstituents.imp_of_mem
      intro a b ha hb hab x hx y hy
      exact hab.of_mem_subtrees (h.of_mem_children (mem_children_of_mem_constituents ha))
        (h.of_mem_children (mem_children_of_mem_constituents hb)) (mem_subtrees_of_mem_spread hx)
        (mem_subtrees_of_mem_spread hy)

/-- What a tree stands for is in order. -/
theorem Spanned.pairwise_spread (h : t.Spanned) : t.spread.Pairwise EndsBefore := by
  unfold spread
  split
  · exact h.pairwise_parts
  · exact List.pairwise_singleton _ _

/-- The first operand ends before the second one starts. -/
theorem Spanned.endsBefore_operands {a b : Tree} {first second : String} (h : t.Spanned)
    (hfields : t.label.operandFields? = some (first, second)) (ha : t.inField? first = some a)
    (hb : t.inField? second = some b) : a.EndsBefore b := by
  have hsublist := (h t t.self_mem_subtrees).operands _ hfields a ha b hb
  have hpair := h.pairwise_children.sublist hsublist
  exact (List.pairwise_cons.mp hpair).1 b List.mem_cons_self

/-- Two operands are in order, also when the second one is replaced by trees that lie in it. -/
theorem Spanned.pairwise_operands {first second : String} {f : Tree → List Tree} (h : t.Spanned)
    (hfields : t.label.operandFields? = some (first, second))
    (hf : ∀ b ∈ t.inField? second, (f b).Pairwise EndsBefore ∧ ∀ x ∈ f b, x ∈ b.subtrees) :
    ((t.inField? first).toList ++ (t.inField? second).toList.flatMap f).Pairwise EndsBefore := by
  cases hb : t.inField? second with
  | none => cases t.inField? first <;> simp
  | some b =>
    obtain ⟨hordered, hinside⟩ := hf b hb
    rw [Option.toList_some, List.flatMap_singleton]
    cases ha : t.inField? first with
    | none => simpa using hordered
    | some a =>
      rw [Option.toList_some, List.singleton_append, List.pairwise_cons]
      refine ⟨?_, hordered⟩
      intro x hx
      exact (h.endsBefore_operands hfields ha hb).of_mem_subtrees
        (h.of_mem_children (mem_children_of_inField? ha))
        (h.of_mem_children (mem_children_of_inField? hb)) a.self_mem_subtrees (hinside x hx)

/-- Every branch ends before those behind it start. -/
theorem Spanned.pairwise_branches (h : t.Spanned) : t.branches.Pairwise EndsBefore := by
  have hplain {first second : String} (hfields : t.label.operandFields? = some (first, second)) :
      ((t.inField? first).toList ++ (t.inField? second).toList).Pairwise EndsBefore := by
    have hpair := h.pairwise_operands (f := fun b => [b]) hfields
    rw [List.flatMap_singleton'] at hpair
    apply hpair
    intro b _
    refine ⟨List.pairwise_singleton _ _, ?_⟩
    intro x hx
    rw [List.mem_singleton.mp hx]
    exact b.self_mem_subtrees
  cases hshape : t.label.shape with
  | identifier => simp [branches, hshape]
  | literal => simp [branches, hshape]
  | member computed =>
    simp only [branches, hshape]
    apply hplain
    simp only [Label.operandFields?, hshape]
  | call =>
    simp only [branches, hshape, Tree.arguments]
    apply h.pairwise_operands
    · simp only [Label.operandFields?, hshape]
    · intro b hb
      refine ⟨(h.of_mem_children (mem_children_of_inField? hb)).pairwise_spread, ?_⟩
      intro x hx
      exact mem_subtrees_of_mem_spread hx
  | binary =>
    simp only [branches, hshape]
    apply hplain
    simp only [Label.operandFields?, hshape]
  | parentheses =>
    simp only [branches, hshape]
    exact h.pairwise_parts
  | other =>
    simp only [branches, hshape]
    exact h.pairwise_parts

/-! ## The spans of the abstract tree -/

variable (source : Source)

/-- The node of a tree has the span of the tree without its parentheses. -/
theorem span_toNode (t : Tree) :
    (t.toNode source).head.start = t.unwrap.label.start ∧
      (t.toNode source).head.stop = t.unwrap.label.stop := by
  rw [← toNode_unwrap, head_toNode source t.unwrap_spec.1]
  exact ⟨rfl, rfl⟩

/-- The node of a tree lies within the span of the tree. -/
theorem Spanned.span_toNode_within (h : t.Spanned) :
    (t.label.start : Int) ≤ (t.toNode source).head.start ∧
      (t.toNode source).head.stop ≤ t.label.stop := by
  obtain ⟨hstart, hstop⟩ := span_toNode source t
  have hunwrap := h.within t.unwrap_spec.2
  omega

/-- In the converted tree every node lies within its parent. -/
theorem Spanned.nested_toNode (h : t.Spanned) : (t.toNode source).Nested := by
  intro n hn
  obtain ⟨s, hs, hbare, rfl⟩ := exists_of_mem_preorder source hn
  obtain ⟨hstart, hstop⟩ := span_toNode source s
  rw [unwrap_of_isBare hbare] at hstart hstop
  constructor
  · have hproper := (h s hs).proper
    omega
  · intro c hc
    rw [children_toNode source hbare] at hc
    obtain ⟨b, hb, rfl⟩ := List.mem_map.mp hc
    have hmem := mem_subtrees_of_mem_descendants (mem_descendants_of_mem_branches hb)
    have hwithin := (h.of_mem_subtrees hs).within hmem
    have hspan := ((h.of_mem_subtrees hs).of_mem_subtrees hmem).span_toNode_within source
    omega

/-- In the converted tree siblings are in order. -/
theorem Spanned.ordered_toNode (h : t.Spanned) : (t.toNode source).Ordered := by
  intro n hn
  obtain ⟨s, hs, hbare, rfl⟩ := exists_of_mem_preorder source hn
  have hspanned := h.of_mem_subtrees hs
  have hbranch {b : Tree} (hb : b ∈ s.branches) : b.Spanned :=
    hspanned.of_mem_subtrees (mem_subtrees_of_mem_descendants (mem_descendants_of_mem_branches hb))
  rw [children_toNode source hbare, List.pairwise_map]
  apply hspanned.pairwise_branches.imp_of_mem
  intro a b ha hb hab
  have hfirst := (hbranch ha).span_toNode_within source
  have hsecond := (hbranch hb).span_toNode_within source
  unfold EndsBefore at hab
  omega

/-- **The abstract tree keeps spans nested and in source order.** If the spans of a concrete tree
are nested, children come one behind the other and operands are in order, then the nodes of its
abstract tree end no earlier than they start, lie within their parents, and come one behind the
other in the order in which the parent lists them; so a walk never goes back to an earlier start. -/
theorem toNode_keeps_spans (t : Tree) (h : t.Spanned) :
    (∀ n ∈ (t.toNode source).walk,
      n.head.start ≤ n.head.stop ∧
        (∀ c ∈ n.children, n.head.start ≤ c.head.start ∧ c.head.stop ≤ n.head.stop) ∧
        n.children.Pairwise fun a b => a.head.stop ≤ b.head.start) ∧
      ((t.toNode source).walk.map fun n => n.head.start).Pairwise (· ≤ ·) := by
  have hnested := h.nested_toNode source
  have hordered := h.ordered_toNode source
  rw [Node.walk_eq_preorder]
  constructor
  · intro n hn
    exact ⟨(hnested n hn).proper, (hnested n hn).inside, hordered n hn⟩
  · rw [List.pairwise_map]
    exact hnested.pairwise_start hordered

/-- The tree of `f((a), b[c])`. -/
def nestedCall : Tree :=
  node ⟨"program", 0, 12, 0, 0, none, true⟩
    [node ⟨"call_expression", 0, 12, 0, 0, none, true⟩
      [node ⟨"identifier", 0, 1, 0, 0, some "function", true⟩ [],
        node ⟨"arguments", 1, 12, 0, 1, some "arguments", true⟩
          [node ⟨"(", 1, 2, 0, 1, none, false⟩ [],
            node ⟨"parenthesized_expression", 2, 5, 0, 2, none, true⟩
              [node ⟨"(", 2, 3, 0, 2, none, false⟩ [],
                node ⟨"identifier", 3, 4, 0, 3, none, true⟩ [],
                node ⟨")", 4, 5, 0, 4, none, false⟩ []],
            node ⟨",", 5, 6, 0, 5, none, false⟩ [],
            node ⟨"subscript_expression", 7, 11, 0, 7, none, true⟩
              [node ⟨"identifier", 7, 8, 0, 7, some "object", true⟩ [],
                node ⟨"[", 8, 9, 0, 8, none, false⟩ [],
                node ⟨"identifier", 9, 10, 0, 9, some "index", true⟩ [],
                node ⟨"]", 10, 11, 0, 10, none, false⟩ []],
            node ⟨")", 11, 12, 0, 11, none, false⟩ []]]]

/-- The parentheses around the first argument and the argument list are gone, and the starts are
still in order. -/
theorem toNode_keeps_spans_nestedCall :
    nestedCall.Spanned ∧
      (nestedCall.toNode []).walk.map (fun n => n.head.start) = [0, 0, 0, 3, 7, 7, 9] ∧
      ((nestedCall.toNode []).walk.map fun n => n.head.start).Pairwise (· ≤ ·) := by
  have hspanned : nestedCall.Spanned := by decide
  have hshaped : nestedCall.GrammarShaped := by decide
  refine ⟨hspanned, ?_, (toNode_keeps_spans [] nestedCall hspanned).2⟩
  rw [Node.walk_eq_preorder, preorder_toNode_eq_map_outline [] hshaped.regular hshaped.not_comment
    hshaped.not_arguments]
  decide

end ScriptAudit.Concrete.Tree
