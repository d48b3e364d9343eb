import ScriptAudit.Proofs.Node.Preorder
import ScriptAudit.Scan

/-!
# Rules on trees whose places count from one

A remark becomes a diagnostic only if its line and column count from one. A rule remarks on the node
it looks at or, if it looks at the tree as a whole, on another node of the tree. So on a tree all of
whose nodes stand at proper places every check goes well, and what a rule finds is a plain list.
-/

set_option autoImplicit false

namespace ScriptAudit

/-- The line and the column of a node count from one. -/
def Node.IsPlaced (n : Node) : Prop := 1 ≤ n.head.line ∧ 1 ≤ n.head.column

/-- Every node of a tree stands at a proper place. -/
def Node.AllPlaced (root : Node) : Prop := ∀ n ∈ root.preorder, n.IsPlaced

/-- A loop that goes well on every element goes well as a whole. -/
theorem exists_mapM_eq_ok {ε α β : Type} (f : α → Except ε β) (as : List α)
    (h : ∀ a ∈ as, ∃ b, f a = .ok b) : ∃ bs, as.mapM f = .ok bs := by
  induction as with
  | nil => exact ⟨[], rfl⟩
  | cons a as ih =>
    obtain ⟨b, hb⟩ := h a List.mem_cons_self
    obtain ⟨bs, hbs⟩ := ih fun a ha => h a (List.mem_cons_of_mem _ ha)
    refine ⟨b :: bs, ?_⟩
    rw [List.mapM_cons, hb, hbs]
    rfl

/-- A remark at a proper place becomes a diagnostic. -/
theorem Remark.exists_diagnostic_eq_ok (remark : Remark) (rule : Rule)
    (hline : 1 ≤ remark.place.line) (hcolumn : 1 ≤ remark.place.column) :
    ∃ d, remark.diagnostic rule = .ok d := by
  unfold Remark.diagnostic Diagnostic.at? Diagnostic.position
  rw [dif_pos hline, dif_pos hcolumn]
  exact ⟨_, rfl⟩

namespace Rule

/-- A rule remarks on nodes of the tree it looks at. -/
theorem place_of_mem_remarks {rule : Rule} {root n : Node} {remark : Remark}
    (hn : n ∈ root.preorder) (h : remark ∈ rule.remarks (some root) n) :
    ∃ m ∈ root.preorder, remark.place = m.head := by
  have here (condition : Bool) (severity : Severity) (message : String)
      (h : remark ∈ remarkIf condition n severity message) : remark.place = n.head := by
    unfold remarkIf at h
    split at h
    · rw [List.mem_singleton] at h
      rw [h]
    · cases h
  cases rule with
  | consoleLog => exact ⟨n, hn, here _ _ _ h⟩
  | evalCall => exact ⟨n, hn, here _ _ _ h⟩
  | truncation => exact ⟨n, hn, here _ _ _ h⟩
  | typeConversion =>
    obtain ⟨message, -, rfl⟩ := List.mem_map.mp h
    exact ⟨n, hn, rfl⟩
  | hardcodedSecret =>
    obtain ⟨m, -, rfl⟩ := List.mem_map.mp h
    exact ⟨n, hn, rfl⟩
  | inputFieldAccess =>
    -- the only rule that remarks elsewhere: below the first node that starts no earlier
    simp only [remarks] at h
    split at h
    · split at h
      case h_1 anchor hanchor =>
        obtain ⟨inner, hinner, rfl⟩ := List.mem_map.mp h
        have hmem := (List.mem_filter.mp hinner).1
        rw [Node.walk_eq_preorder] at hmem
        exact ⟨inner, Node.mem_preorder_trans (Node.mem_preorder_of_firstAfter? hanchor) hmem, rfl⟩
      case h_2 => cases h
    · cases h

/-- A rule that does not look at the tree as a whole says the same with and without it. -/
theorem check_visibleTree (rule : Rule) (root n : Node) :
    rule.check (Scan.visibleTree rule root) n = rule.check (some root) n := by
  cases rule <;> rfl

/-- What a rule finds at a node of a tree. -/
def found (rule : Rule) (root n : Node) : List Diagnostic :=
  (rule.check (some root) n).toOption.getD []

/-- On a tree whose nodes are all well placed every check goes well. -/
theorem check_eq_ok_found {root n : Node} (rule : Rule) (hroot : root.AllPlaced)
    (hn : n ∈ root.preorder) : rule.check (some root) n = .ok (rule.found root n) := by
  have hgood : ∃ ds, rule.check (some root) n = .ok ds := by
    apply exists_mapM_eq_ok
    intro remark hremark
    obtain ⟨m, hm, hplace⟩ := place_of_mem_remarks hn hremark
    obtain ⟨hline, hcolumn⟩ := hroot m hm
    rw [← hplace] at hline hcolumn
    exact remark.exists_diagnostic_eq_ok rule hline hcolumn
  obtain ⟨ds, hds⟩ := hgood
  rw [found, hds]
  rfl

end Rule

end ScriptAudit
