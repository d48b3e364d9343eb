import Mathlib.Data.List.Basic
import ScriptAudit.Concrete
import ScriptAudit.Node.Kind

/-!
# The parts of a concrete tree

A concrete tree is looked at in three ways. Its subtrees are all the trees in it. Its parts are the
trees that stand for it in the abstract tree of its parent: named children that are no comments, an
argument list being replaced by its own parts. The child in a field is the first that has the field.

Parentheses are taken off a tree by going to its first part again and again. Whatever is reached in
one of these ways lies below the tree, so all statements about trees are proved by induction on what
lies below.
-/

set_option autoImplicit false

namespace ScriptAudit.Concrete

/-- Elements that stand for nothing can be left out before the rest is put together. -/
theorem flatMap_filter_of_nil {α β : Type} {f : α → List β} {p : α → Bool} {as : List α}
    (h : ∀ a ∈ as, p a = false → f a = []) : (as.filter p).flatMap f = as.flatMap f := by
  induction as with
  | nil => rfl
  | cons a as ih =>
    have hrest := ih fun b hb => h b (List.mem_cons_of_mem _ hb)
    cases hp : p a with
    | true => rw [List.filter_cons_of_pos hp, List.flatMap_cons, List.flatMap_cons, hrest]
    | false =>
      have hnil := h a List.mem_cons_self hp
      rw [List.filter_cons_of_neg (by simp [hp]), List.flatMap_cons, hnil, List.nil_append, hrest]

/-- A label of a comment. -/
def Label.isComment (label : Label) : Bool := Kind.comments.contains label.kind

namespace Tree

/-! ## Subtrees -/

mutual
/-- A tree and all trees below it, each before its children, from left to right. -/
def subtrees : Tree → List Tree
  | node label children => node label children :: subtreesOfAll children

/-- The subtrees of the trees of a list. -/
def subtreesOfAll : List Tree → List Tree
  | [] => []
  | t :: rest => t.subtrees ++ subtreesOfAll rest
end

/-- The trees below a tree. -/
def descendants (t : Tree) : List Tree := t.children.flatMap subtrees

/-- The subtrees of a list are those of its trees. -/
theorem subtreesOfAll_eq_flatMap (ts : List Tree) : subtreesOfAll ts = ts.flatMap subtrees := by
  induction ts with
  | nil => rfl
  | cons t rest ih => rw [subtreesOfAll, ih, List.flatMap_cons]

/-- The subtrees of a tree are the tree and those below it. -/
theorem subtrees_eq (t : Tree) : t.subtrees = t :: t.descendants := by
  obtain ⟨label, children⟩ := t
  rw [subtrees, subtreesOfAll_eq_flatMap]
  rfl

/-- A tree is a subtree of itself. -/
theorem self_mem_subtrees (t : Tree) : t ∈ t.subtrees := by
  simp [subtrees_eq]

/-- What lies below a tree is a subtree of it. -/
theorem mem_subtrees_of_mem_descendants {s t : Tree} (h : s ∈ t.descendants) : s ∈ t.subtrees := by
  simp [subtrees_eq, h]

/-- The children lie below a tree. -/
theorem mem_descendants_of_mem_children {c t : Tree} (h : c ∈ t.children) : c ∈ t.descendants :=
  List.mem_flatMap.mpr ⟨c, h, c.self_mem_subtrees⟩

/-- Children are smaller than their parent. -/
theorem sizeOf_lt_of_mem_children {c t : Tree} (h : c ∈ t.children) : sizeOf c < sizeOf t := by
  obtain ⟨label, children⟩ := t
  have hlt := List.sizeOf_lt_of_mem (show c ∈ children from h)
  simp only [node.sizeOf_spec]
  omega

/-- What holds of a tree whenever it holds of everything below it holds of every tree. -/
theorem induction_descendants {motive : Tree → Prop}
    (step : ∀ t, (∀ s ∈ t.descendants, motive s) → motive t) (t : Tree) : motive t := by
  -- the stronger statement about all subtrees goes through from the children to the tree
  have hall (t : Tree) : ∀ s ∈ t.subtrees, motive s := by
    induction h : sizeOf t using Nat.strongRecOn generalizing t with
    | ind size ih =>
      have hdesc : ∀ s ∈ t.descendants, motive s := by
        intro s hs
        obtain ⟨c, hc, hsc⟩ := List.mem_flatMap.mp hs
        have hlt := sizeOf_lt_of_mem_children hc
        exact ih (sizeOf c) (h ▸ hlt) c rfl s hsc
      intro s hs
      rw [subtrees_eq, List.mem_cons] at hs
      rcases hs with rfl | hs
      · exact step s hdesc
      · exact hdesc s hs
  exact hall t t t.self_mem_subtrees

/-- What lies below a subtree lies below the tree. -/
theorem mem_descendants_trans {r s t : Tree} (hs : s ∈ t.subtrees) (hr : r ∈ s.descendants) :
    r ∈ t.descendants := by
  induction t using induction_descendants with
  | step t ih =>
    rw [subtrees_eq, List.mem_cons] at hs
    rcases hs with rfl | hs
    · exact hr
    · obtain ⟨c, hc, hsc⟩ := List.mem_flatMap.mp hs
      have hrc := ih c (mem_descendants_of_mem_children hc) hsc
      exact List.mem_flatMap.mpr ⟨c, hc, mem_subtrees_of_mem_descendants hrc⟩

/-- The subtrees of a subtree are subtrees. -/
theorem mem_subtrees_trans {r s t : Tree} (hs : s ∈ t.subtrees) (hr : r ∈ s.subtrees) :
    r ∈ t.subtrees := by
  rw [subtrees_eq, List.mem_cons] at hr
  rcases hr with rfl | hr
  · exact hs
  · exact mem_subtrees_of_mem_descendants (mem_descendants_trans hs hr)

/-! ## Constituents, parts and fields -/

/-- The children that carry meaning: those that are named and no comments. -/
def constituents (t : Tree) : List Tree :=
  t.children.filter fun c => c.label.named && !c.label.isComment

mutual
/-- The trees that stand for a tree when its own brackets are taken off: its constituents, with
argument lists replaced by their parts. -/
def parts : Tree → List Tree
  | node _ children => partsOfAll children

/-- What the children of a list contribute to the parts of their parent. -/
def partsOfAll : List Tree → List Tree
  | [] => []
  | c :: rest =>
    (if !c.label.named then []
      else if c.label.isComment then []
      else if c.label.kind = "arguments" then c.parts
      else [c]) ++ partsOfAll rest
end

/-- What a constituent contributes to the parts of its parent. -/
def spread (c : Tree) : List Tree := if c.label.kind = "arguments" then c.parts else [c]

/-- The first child in a field. -/
def inField? (t : Tree) (field : String) : Option Tree :=
  t.children.find? (·.label.field = some field)

/-- The parts of a list are what its constituents stand for. -/
theorem partsOfAll_eq_flatMap (cs : List Tree) :
    partsOfAll cs =
      (cs.filter fun c => c.label.named && !c.label.isComment).flatMap spread := by
  induction cs with
  | nil => rfl
  | cons c rest ih =>
    rw [partsOfAll, ih, List.filter_cons]
    cases hnamed : c.label.named <;> cases hcomment : c.label.isComment <;>
      simp [List.flatMap_cons, spread]

/-- The parts of a tree are what its constituents stand for. -/
theorem parts_eq (t : Tree) : t.parts = t.constituents.flatMap spread := by
  obtain ⟨label, children⟩ := t
  rw [parts, partsOfAll_eq_flatMap]
  rfl

/-- An argument list stands for its parts. -/
theorem spread_of_arguments {c : Tree} (h : c.label.kind = "arguments") : c.spread = c.parts := by
  rw [spread, if_pos h]

/-- A tree that is no argument list stands for itself. -/
theorem spread_of_ne {c : Tree} (h : c.label.kind ≠ "arguments") : c.spread = [c] := by
  rw [spread, if_neg h]

/-- Constituents are children. -/
theorem mem_children_of_mem_constituents {c t : Tree} (h : c ∈ t.constituents) :
    c ∈ t.children := (List.mem_filter.mp h).1

/-- The tree in a field is a child. -/
theorem mem_children_of_inField? {c t : Tree} {field : String} (h : t.inField? field = some c) :
    c ∈ t.children := List.mem_of_find?_eq_some h

/-- The tree in a field lies below the tree. -/
theorem mem_descendants_of_inField? {c t : Tree} {field : String} (h : t.inField? field = some c) :
    c ∈ t.descendants := mem_descendants_of_mem_children (mem_children_of_inField? h)

/-- What a tree stands for lies in the tree. -/
theorem mem_subtrees_of_mem_spread {p c : Tree} (h : p ∈ c.spread) : p ∈ c.subtrees := by
  induction c using induction_descendants with
  | step c ih =>
    by_cases hkind : c.label.kind = "arguments"
    · rw [spread_of_arguments hkind, parts_eq, List.mem_flatMap] at h
      obtain ⟨d, hd, hp⟩ := h
      have hdesc := mem_descendants_of_mem_children (mem_children_of_mem_constituents hd)
      exact mem_subtrees_trans (mem_subtrees_of_mem_descendants hdesc) (ih d hdesc hp)
    · rw [spread_of_ne hkind, List.mem_singleton] at h
      rw [h]
      exact c.self_mem_subtrees

/-- The parts lie below a tree. -/
theorem mem_descendants_of_mem_parts {p t : Tree} (h : p ∈ t.parts) : p ∈ t.descendants := by
  rw [parts_eq, List.mem_flatMap] at h
  obtain ⟨c, hc, hp⟩ := h
  exact List.mem_flatMap.mpr
    ⟨c, mem_children_of_mem_constituents hc, mem_subtrees_of_mem_spread hp⟩

/-- The first part lies below a tree. -/
theorem mem_descendants_of_parts_eq_cons {inner t : Tree} {rest : List Tree}
    (h : t.parts = inner :: rest) : inner ∈ t.descendants := by
  apply mem_descendants_of_mem_parts
  rw [h]
  exact List.mem_cons_self

/-- What lies below a tree is smaller. -/
theorem sizeOf_lt_of_mem_descendants {s t : Tree} (h : s ∈ t.descendants) :
    sizeOf s < sizeOf t := by
  induction t using induction_descendants with
  | step t ih =>
    obtain ⟨c, hc, hs⟩ := List.mem_flatMap.mp h
    have hlt := sizeOf_lt_of_mem_children hc
    rw [subtrees_eq, List.mem_cons] at hs
    rcases hs with rfl | hs
    · exact hlt
    · exact Nat.lt_trans (ih c (mem_descendants_of_mem_children hc) hs) hlt

/-! ## Parentheses -/

/-- A tree without its parentheses: a parenthesized expression is replaced by its first part, and
so on, as long as there is one. -/
def unwrap (t : Tree) : Tree :=
  if t.label.kind = "parenthesized_expression" then
    match _hparts : t.parts with
    | inner :: _ => inner.unwrap
    | [] => t
  else t
termination_by sizeOf t
decreasing_by
  apply sizeOf_lt_of_mem_descendants
  exact mem_descendants_of_parts_eq_cons _hparts

/-- No parentheses can be taken off the tree. -/
def IsBare (t : Tree) : Prop := t.label.kind = "parenthesized_expression" → t.parts = []

/-- Parentheses are taken off together with those of their first part. -/
theorem unwrap_of_parts {t inner : Tree} {rest : List Tree}
    (hkind : t.label.kind = "parenthesized_expression") (hparts : t.parts = inner :: rest) :
    t.unwrap = inner.unwrap := by
  rw [unwrap, if_pos hkind]
  split
  · rename_i first others hfirst
    rw [hparts, List.cons.injEq] at hfirst
    rw [hfirst.1]
  · rename_i hnil
    rw [hparts] at hnil
    cases hnil

/-- Nothing is taken off a bare tree. -/
theorem unwrap_of_isBare {t : Tree} (h : t.IsBare) : t.unwrap = t := by
  rw [unwrap]
  split
  · rename_i hkind
    split
    · rename_i first others hfirst
      rw [h hkind] at hfirst
      cases hfirst
    · rfl
  · rfl

/-- A tree that is no parenthesized expression is bare. -/
theorem isBare_of_kind_ne {t : Tree} (h : t.label.kind ≠ "parenthesized_expression") :
    t.IsBare := fun hkind => absurd hkind h

/-- A tree is bare, or it is a parenthesized expression with a first part. -/
theorem isBare_or_exists_parts (t : Tree) :
    t.IsBare ∨ t.label.kind = "parenthesized_expression" ∧
      ∃ inner rest, t.parts = inner :: rest := by
  by_cases hkind : t.label.kind = "parenthesized_expression"
  · cases hparts : t.parts with
    | nil => exact Or.inl fun _ => hparts
    | cons inner rest => exact Or.inr ⟨hkind, inner, rest, rfl⟩
  · exact Or.inl (isBare_of_kind_ne hkind)

/-- Taking parentheses off ends in a bare tree that lies in the tree. -/
theorem unwrap_spec (t : Tree) : t.unwrap.IsBare ∧ t.unwrap ∈ t.subtrees := by
  induction t using induction_descendants with
  | step t ih =>
    rcases t.isBare_or_exists_parts with hbare | ⟨hkind, inner, rest, hparts⟩
    · rw [unwrap_of_isBare hbare]
      exact ⟨hbare, t.self_mem_subtrees⟩
    · have hdesc := mem_descendants_of_parts_eq_cons hparts
      obtain ⟨hbare, hmem⟩ := ih inner hdesc
      rw [unwrap_of_parts hkind hparts]
      exact ⟨hbare, mem_subtrees_trans (mem_subtrees_of_mem_descendants hdesc) hmem⟩

end Tree

end ScriptAudit.Concrete
