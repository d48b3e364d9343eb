import Mathlib.Data.List.Perm.Subperm
import Mathlib.Logic.Relation
import ScriptAudit.Proofs.Concrete.Outline

/-!
# Trees of scripts with errors

Where a script has an error, the parser goes on and puts a tree of the kind `ERROR` among the
children of a tree. Such a tree may stand anywhere, and whole calls may lie below it or beside it.

Not everything in such a tree is looked at. Of parentheses only the first constituent becomes a
node, and of an access, a call or a binary expression only the children in its two operand fields.
`exposed` lists the children that a walk goes on to, `hidden` the constituents it passes over. An
insertion leaves a tree intact, and for a tree that is intact all through the calls that are reached
from its root are accounted for: those of the walk, and those in hidden children.
-/

set_option autoImplicit false

namespace ScriptAudit

/-- A node that has the shape of a call. -/
def Node.isCall : Node → Bool
  | .call _ _ _ => true
  | _ => false

namespace Concrete.Tree

open scoped List

/-! ## Insertions -/

/-- A tree the parser puts in at an error: a named tree without a field, of the kind for errors,
and regular all through. -/
structure IsErrorTree (e : Tree) : Prop where
  kind : e.label.kind = "ERROR"
  named : e.label.named = true
  free : e.label.field = none
  regular : ∀ s ∈ e.subtrees, s.RegularAt

/-- An error tree is put somewhere among the children of a tree or of a tree below it. -/
inductive Insertion : Tree → Tree → Prop
  | here {label : Label} {pre post : List Tree} {e : Tree} (he : e.IsErrorTree) :
    Insertion (node label (pre ++ post)) (node label (pre ++ e :: post))
  | inChild {label : Label} {pre post : List Tree} {x y : Tree} (hxy : Insertion x y) :
    Insertion (node label (pre ++ x :: post)) (node label (pre ++ y :: post))

/-- A tree as the parser leaves it after errors: a tree that has the shape of the grammar, with any
number of error trees put in. -/
def Recovered (t : Tree) : Prop :=
  ∃ s : Tree, s.GrammarShaped ∧ Relation.ReflTransGen Insertion s t

/-- An insertion keeps the label at the root. -/
theorem label_of_insertion {t u : Tree} (h : Insertion t u) : u.label = t.label := by
  cases h <;> rfl

/-- The constituents are the children that are named and no comments. -/
theorem mem_constituents_iff {c t : Tree} :
    c ∈ t.constituents ↔
      c ∈ t.children ∧ c.label.named = true ∧ c.label.isComment = false := by
  simp [constituents]

/-- Trees with the same label that are found by label: one in place of the other is found wherever
the other was. -/
theorem exists_inField?_replace {label : Label} {pre post : List Tree} {x y a : Tree}
    {field : String} (hlabel : y.label = x.label)
    (ha : (node label (pre ++ x :: post)).inField? field = some a) :
    ∃ b, (node label (pre ++ y :: post)).inField? field = some b ∧ b.label = a.label := by
  simp only [inField?, children, List.find?_append, List.find?_cons, hlabel] at ha ⊢
  cases hpre : pre.find? (·.label.field = some field) with
  | some c => exact ⟨a, by simpa [hpre] using ha, rfl⟩
  | none =>
    by_cases hfield : x.label.field = some field
    · obtain rfl : x = a := by simpa [hpre, hfield] using ha
      exact ⟨y, by simp [hfield], hlabel⟩
    · exact ⟨a, by simpa [hpre, hfield] using ha, rfl⟩

/-- A tree stays intact when an error tree is put among its children. -/
theorem IntactAt.insert {label : Label} {pre post : List Tree} {e : Tree} (he : e.IsErrorTree)
    (h : (node label (pre ++ post)).IntactAt) : (node label (pre ++ e :: post)).IntactAt := by
  have hmem {c : Tree} (hc : c ∈ (node label (pre ++ post)).constituents) :
      c ∈ (node label (pre ++ e :: post)).constituents := by
    obtain ⟨hchild, hlabel⟩ := mem_constituents_iff.mp hc
    apply mem_constituents_iff.mpr
    refine ⟨?_, hlabel⟩
    simp only [children, List.mem_append, List.mem_cons] at hchild ⊢
    exact hchild.imp_right Or.inr
  have hfield (field : String) : (node label (pre ++ e :: post)).inField? field =
      (node label (pre ++ post)).inField? field := by
    simp [inField?, children, List.find?_append, he.free]
  refine ⟨?_, ?_, ?_⟩
  · intro hkind
    obtain ⟨c, hc⟩ := List.exists_mem_of_ne_nil _ (h.parentheses hkind)
    exact List.ne_nil_of_mem (hmem hc)
  · intro first second hfields
    obtain ⟨a, b, ha, hb, hmema, hmemb⟩ := h.operands first second hfields
    exact ⟨a, b, (hfield first).trans ha, (hfield second).trans hb, hmem hmema, hmem hmemb⟩
  · intro c hc hkind
    simp only [children, List.mem_append, List.mem_cons] at hc
    rcases hc with hc | rfl | hc
    · exact h.arguments c (List.mem_append_left _ hc) hkind
    · rw [he.kind] at hkind
      exact absurd hkind (by decide)
    · exact h.arguments c (List.mem_append_right _ hc) hkind

/-- A tree stays intact when another tree with the same label takes the place of a child. -/
theorem IntactAt.replace {label : Label} {pre post : List Tree} {x y : Tree}
    (hlabel : y.label = x.label) (h : (node label (pre ++ x :: post)).IntactAt) :
    (node label (pre ++ y :: post)).IntactAt := by
  -- all that counts is which labels there are among the children
  have hforth {c : Tree} (hc : c ∈ (node label (pre ++ x :: post)).children) :
      ∃ d ∈ (node label (pre ++ y :: post)).children, d.label = c.label := by
    simp only [children, List.mem_append, List.mem_cons] at hc
    rcases hc with hc | rfl | hc
    · exact ⟨c, by simp [children, hc], rfl⟩
    · exact ⟨y, by simp [children], hlabel⟩
    · exact ⟨c, by simp [children, hc], rfl⟩
  have hback {c : Tree} (hc : c ∈ (node label (pre ++ y :: post)).children) :
      ∃ d ∈ (node label (pre ++ x :: post)).children, d.label = c.label := by
    simp only [children, List.mem_append, List.mem_cons] at hc
    rcases hc with hc | rfl | hc
    · exact ⟨c, by simp [children, hc], rfl⟩
    · exact ⟨x, by simp [children], hlabel.symm⟩
    · exact ⟨c, by simp [children, hc], rfl⟩
  refine ⟨?_, ?_, ?_⟩
  · intro hkind
    obtain ⟨c, hc⟩ := List.exists_mem_of_ne_nil _ (h.parentheses hkind)
    obtain ⟨hchild, hc⟩ := mem_constituents_iff.mp hc
    obtain ⟨d, hd, hdlabel⟩ := hforth hchild
    exact List.ne_nil_of_mem (mem_constituents_iff.mpr ⟨hd, hdlabel ▸ hc⟩)
  · intro first second hfields
    obtain ⟨a, b, ha, hb, hmema, hmemb⟩ := h.operands first second hfields
    obtain ⟨c, hc, hclabel⟩ := exists_inField?_replace hlabel ha
    obtain ⟨d, hd, hdlabel⟩ := exists_inField?_replace hlabel hb
    have hmemc := mem_constituents_iff.mpr
      ⟨mem_children_of_inField? hc, hclabel ▸ (mem_constituents_iff.mp hmema).2⟩
    have hmemd := mem_constituents_iff.mpr
      ⟨mem_children_of_inField? hd, hdlabel ▸ (mem_constituents_iff.mp hmemb).2⟩
    exact ⟨c, d, hc, hd, hmemc, hmemd⟩
  · intro c hc hkind
    obtain ⟨d, hd, hdlabel⟩ := hback hc
    rw [← hdlabel] at hkind ⊢
    exact h.arguments d hd hkind

/-- A subtree is the tree itself or a subtree of a child. -/
theorem mem_subtrees_node {label : Label} {children : List Tree} {s : Tree} :
    s ∈ (node label children).subtrees ↔
      s = node label children ∨ ∃ c ∈ children, s ∈ c.subtrees := by
  rw [subtrees_eq, List.mem_cons, descendants, List.mem_flatMap]
  rfl

/-- An insertion leaves every tree intact. -/
theorem intact_of_insertion {t u : Tree} (h : Insertion t u) (ht : ∀ s ∈ t.subtrees, s.IntactAt) :
    ∀ s ∈ u.subtrees, s.IntactAt := by
  induction h with
  | @here label pre post e he =>
    intro s hs
    rcases mem_subtrees_node.mp hs with rfl | ⟨c, hc, hsc⟩
    · exact (ht _ (self_mem_subtrees _)).insert he
    · simp only [List.mem_append, List.mem_cons] at hc
      rcases hc with hc | rfl | hc
      · exact ht s (mem_subtrees_node.mpr (Or.inr ⟨c, by simp [hc], hsc⟩))
      · exact (he.regular s hsc).intactAt
      · exact ht s (mem_subtrees_node.mpr (Or.inr ⟨c, by simp [hc], hsc⟩))
  | @inChild label pre post x y hxy ih =>
    have hy := ih fun s hs => ht s (mem_subtrees_node.mpr (Or.inr ⟨x, by simp, hs⟩))
    intro s hs
    rcases mem_subtrees_node.mp hs with rfl | ⟨c, hc, hsc⟩
    · exact (ht _ (self_mem_subtrees _)).replace (label_of_insertion hxy)
    · simp only [List.mem_append, List.mem_cons] at hc
      rcases hc with hc | rfl | hc
      · exact ht s (mem_subtrees_node.mpr (Or.inr ⟨c, by simp [hc], hsc⟩))
      · exact hy s hsc
      · exact ht s (mem_subtrees_node.mpr (Or.inr ⟨c, by simp [hc], hsc⟩))

/-- However many error trees are put in, the tree stays intact and keeps its label. -/
theorem intact_of_insertions {t u : Tree} (h : Relation.ReflTransGen Insertion t u)
    (ht : ∀ s ∈ t.subtrees, s.IntactAt) :
    u.label = t.label ∧ ∀ s ∈ u.subtrees, s.IntactAt := by
  induction h with
  | refl => exact ⟨rfl, ht⟩
  | tail _ hstep ih => exact ⟨(label_of_insertion hstep).trans ih.1, intact_of_insertion hstep ih.2⟩

/-! ## What a walk goes on to -/

/-- The children a walk goes on to: none of a closed tree, the two in the operand fields of an
access, a call or a binary expression, the first constituent of parentheses, and else all
constituents. -/
def exposed (t : Tree) : List Tree :=
  if t.label.isClosed then []
  else
    match t.label.operandFields? with
    | some (first, second) => (t.inField? first).toList ++ (t.inField? second).toList
    | none =>
      if t.label.kind = "parenthesized_expression" then t.constituents.take 1 else t.constituents

/-- The constituents a walk passes over. -/
def hidden (t : Tree) : List Tree :=
  if t.label.isClosed then [] else t.constituents.diff t.exposed

/-- A walk goes on to children only. -/
theorem mem_children_of_mem_exposed {c t : Tree} (h : c ∈ t.exposed) : c ∈ t.children := by
  unfold exposed at h
  split at h
  · cases h
  · split at h
    · rcases List.mem_append.mp h with h | h
      · exact mem_children_of_inField? (Option.mem_toList.mp h)
      · exact mem_children_of_inField? (Option.mem_toList.mp h)
    · split at h
      · exact mem_children_of_mem_constituents (List.mem_of_mem_take h)
      · exact mem_children_of_mem_constituents h

/-- The trees a walk comes by, each before those it goes on to. -/
def shown (t : Tree) : List Tree :=
  t :: t.exposed.attach.flatMap fun ⟨c, _⟩ => c.shown
termination_by sizeOf t
decreasing_by exact sizeOf_lt_of_mem_children (mem_children_of_mem_exposed ‹_›)

/-- A walk comes by a tree and then by what it comes by from the children it goes on to. -/
theorem shown_eq (t : Tree) : t.shown = t :: t.exposed.flatMap shown := by
  rw [shown]
  congr 1
  rw [List.flatMap_subtype (g := shown) fun _ _ => rfl, List.unattach_attach]

/-- The tree is no bracket that only holds others together. -/
def isBuilt (t : Tree) : Bool :=
  t.label.kind ≠ "parenthesized_expression" && t.label.kind ≠ "arguments"

/-- The trees a walk comes by that become nodes. -/
def shownBuilt (t : Tree) : List Tree := t.shown.filter isBuilt

/-- The nodes of a walk are that of the tree, if it becomes one, and those from the children the
walk goes on to. -/
theorem shownBuilt_eq (t : Tree) :
    t.shownBuilt = (if t.isBuilt then [t] else []) ++ t.exposed.flatMap shownBuilt := by
  rw [shownBuilt, shown_eq, List.filter_cons, List.filter_flatMap]
  cases t.isBuilt <;> rfl

/-- A walk goes on to all constituents of a tree without operands, unless it is closed. -/
theorem exposed_of_no_operandFields {t : Tree} (hfields : t.label.operandFields? = none)
    (hkind : t.label.kind ≠ "parenthesized_expression") :
    t.exposed = if t.label.isClosed then [] else t.constituents := by
  rw [exposed, hfields, if_neg hkind]

/-- A walk goes on to the two operands. -/
theorem exposed_of_operandFields {t a b : Tree} {first second : String}
    (hcomment : t.label.isComment = false)
    (hfields : t.label.operandFields? = some (first, second)) (ha : t.inField? first = some a)
    (hb : t.inField? second = some b) : t.exposed = [a, b] := by
  obtain ⟨-, -, hidentifier, hliteral⟩ := Label.of_operandFields? hfields
  have hopen : ¬ t.label.isClosed = true := by
    simp [Label.isClosed_iff, hcomment, hidentifier, hliteral]
  simp [exposed, hopen, hfields, ha, hb]

/-- Parentheses are not closed. -/
theorem isClosed_of_parentheses {label : Label} (h : label.kind = "parenthesized_expression") :
    label.isClosed = false := by
  simp [Label.isClosed, Label.isComment, h, Kind.identifiers, Kind.literals, Kind.comments]

/-- Parentheses have no operands. -/
theorem operandFields?_of_parentheses {label : Label}
    (h : label.kind = "parenthesized_expression") : label.operandFields? = none := by
  have hshape : label.shape = .parentheses := Label.shape_of_kind rfl h
  rw [Label.operandFields?, hshape]

/-- The nodes from what a tree stands for are those from the tree. -/
theorem flatMap_shownBuilt_spread (c : Tree) : c.spread.flatMap shownBuilt = c.shownBuilt := by
  induction c using induction_descendants with
  | step c ih =>
    by_cases hkind : c.label.kind = "arguments"
    · have hshape : c.label.shape = .other := by
        simp [Label.shape, hkind, Kind.identifiers, Kind.literals]
      have hclosed : c.label.isClosed = false := by
        simp [Label.isClosed, Label.isComment, hkind, Kind.identifiers, Kind.literals,
          Kind.comments]
      have hfields : c.label.operandFields? = none := by rw [Label.operandFields?, hshape]
      have hexposed : c.exposed = c.constituents := by
        rw [exposed_of_no_operandFields hfields (by simp [hkind]), hclosed]
        rfl
      have hbuilt : c.isBuilt = false := by simp [isBuilt, hkind]
      rw [spread_of_arguments hkind, parts_eq, List.flatMap_assoc, shownBuilt_eq, hbuilt, hexposed]
      apply List.flatMap_congr
      intro d hd
      exact ih d (mem_descendants_of_mem_children (mem_children_of_mem_constituents hd))
    · rw [spread_of_ne hkind, List.flatMap_singleton]

/-- The branches of an intact tree and the children a walk goes on to lead to the same trees. -/
theorem IntactAt.flatMap_shownBuilt_branches {t : Tree} (h : t.IntactAt)
    (hkind : t.label.kind ≠ "parenthesized_expression") (hcomment : t.label.isComment = false) :
    t.branches.flatMap shownBuilt = t.exposed.flatMap shownBuilt := by
  cases hfields : t.label.operandFields? with
  | none =>
    rw [branches_of_no_operandFields hfields hcomment, exposed_of_no_operandFields hfields hkind]
    split
    · rfl
    · simp only [parts_eq, List.flatMap_assoc, flatMap_shownBuilt_spread]
  | some fields =>
    obtain ⟨first, second⟩ := fields
    obtain ⟨a, b, ha, hb, -, -⟩ := h.operands _ _ hfields
    rw [h.branches_eq hfields ha hb, exposed_of_operandFields hcomment hfields ha hb]
    simp [flatMap_shownBuilt_spread]

variable (source : Source)

/-- The pre-order of the node of an intact tree is what a walk comes by. -/
theorem preorder_toNode_eq_map_shownBuilt {t : Tree} (hintact : ∀ s ∈ t.subtrees, s.IntactAt)
    (hcomment : t.label.isComment = false) (harguments : t.label.kind ≠ "arguments") :
    (t.toNode source).preorder = t.shownBuilt.map (toNode source) := by
  induction t using induction_descendants with
  | step t ih =>
    have hself := hintact t t.self_mem_subtrees
    have hbelow {s : Tree} (hs : s ∈ t.descendants) (hscomment : s.label.isComment = false)
        (hskind : s.label.kind ≠ "arguments") :
        (s.toNode source).preorder = s.shownBuilt.map (toNode source) := by
      apply ih s hs _ hscomment hskind
      intro r hr
      exact hintact r (mem_subtrees_trans (mem_subtrees_of_mem_descendants hs) hr)
    by_cases hkind : t.label.kind = "parenthesized_expression"
    · obtain ⟨c, rest, hc⟩ := List.exists_cons_of_ne_nil (hself.parentheses hkind)
      have hmem : c ∈ t.constituents := by simp [hc]
      have hckind := hself.kind_ne_arguments_of_parentheses hkind hmem
      have hparts : t.parts = c :: rest.flatMap spread := by
        rw [parts_eq, hc, List.flatMap_cons, spread_of_ne hckind]
        rfl
      have hexposed : t.exposed = [c] := by
        simp [exposed, isClosed_of_parentheses hkind, operandFields?_of_parentheses hkind, hkind,
          hc]
      have hbuilt : t.isBuilt = false := by simp [isBuilt, hkind]
      have hnode : t.toNode source = c.toNode source := by
        rw [← toNode_unwrap source t, unwrap_of_parts hkind hparts, toNode_unwrap]
      rw [hnode, shownBuilt_eq, hbuilt, hexposed, List.flatMap_singleton]
      exact hbelow (mem_descendants_of_mem_children (mem_children_of_mem_constituents hmem))
        (isComment_of_mem_constituents hmem) hckind
    · have hbuilt : t.isBuilt = true := by simp [isBuilt, hkind, harguments]
      rw [preorder_toNode source (isBare_of_kind_ne hkind), shownBuilt_eq, hbuilt, if_pos rfl,
        ← hself.flatMap_shownBuilt_branches hkind hcomment, List.singleton_append, List.map_cons,
        List.map_flatMap]
      congr 1
      apply List.flatMap_congr
      intro b hb
      obtain ⟨hbcomment, hbkind⟩ := hself.of_mem_branches hcomment hb
      exact hbelow (mem_descendants_of_mem_branches hb) hbcomment hbkind

/-! ## An account of all calls -/

/-- A call. -/
def isCall (t : Tree) : Bool := t.label.kind = "call_expression"

/-- The calls that are reached from a tree. -/
def reachedCalls (t : Tree) : List Tree := t.reached.filter isCall

/-- The calls a walk comes by. -/
def shownCalls (t : Tree) : List Tree := t.shown.filter isCall

/-- The calls in what a walk passes over. -/
def lostCalls (t : Tree) : List Tree := t.shown.flatMap fun s => s.hidden.flatMap reachedCalls

/-- The trees at the sites do not depend on the parent. -/
theorem map_tree_sites (parent : Option Label) (t : Tree) :
    (t.sites parent).map Site.tree = t.reached := by
  rw [reached, sites_eq, sites_eq none]
  rfl

/-- What is reached from a tree is the tree and what is reached from its named children. -/
theorem reached_eq (t : Tree) :
    t.reached = t :: if t.label.isClosed then []
      else (t.children.filter (·.label.named)).flatMap reached := by
  rw [reached, sites_eq, List.map_cons]
  congr 1
  split
  · rfl
  · rw [List.map_flatMap]
    apply List.flatMap_congr
    intro c _
    exact map_tree_sites _ c

/-- No calls are reached from a comment. -/
theorem reachedCalls_of_isComment {t : Tree} (h : t.label.isComment = true) :
    t.reachedCalls = [] := by
  have hclosed : t.label.isClosed = true := by simp [Label.isClosed, h]
  have hcall : t.isCall = false := by
    by_contra hcall
    rw [Bool.not_eq_false, isCall, decide_eq_true_eq] at hcall
    rw [Label.isComment, hcall] at h
    exact absurd h (by decide)
  rw [reachedCalls, reached_eq, hclosed, if_pos rfl, List.filter_cons, hcall]
  rfl

/-- The calls that are reached from a tree are the tree, if it is one, and those that are reached
from its constituents. -/
theorem reachedCalls_eq (t : Tree) :
    t.reachedCalls = (if t.isCall then [t] else []) ++
      if t.label.isClosed then [] else t.constituents.flatMap reachedCalls := by
  have hconstituents := t.flatMap_constituents_of_nil fun c hc => reachedCalls_of_isComment hc
  rw [hconstituents, reachedCalls, reached_eq, List.filter_cons]
  cases t.label.isClosed <;> cases t.isCall <;> simp [List.filter_flatMap, reachedCalls]

/-- The calls a walk comes by are the tree, if it is one, and those from the children it goes on
to. -/
theorem shownCalls_eq (t : Tree) :
    t.shownCalls = (if t.isCall then [t] else []) ++ t.exposed.flatMap shownCalls := by
  rw [shownCalls, shown_eq, List.filter_cons, List.filter_flatMap]
  cases t.isCall <;> rfl

/-- The calls that are lost are those in what is passed over at the tree and at the children the
walk goes on to. -/
theorem lostCalls_eq (t : Tree) :
    t.lostCalls = t.hidden.flatMap reachedCalls ++ t.exposed.flatMap lostCalls := by
  rw [lostCalls, shown_eq, List.flatMap_cons, List.flatMap_assoc]
  rfl

/-- The constituents of an intact tree are those a walk goes on to and those it passes over. -/
theorem IntactAt.exposed_append_hidden {t : Tree} (h : t.IntactAt)
    (hopen : t.label.isClosed = false) : t.exposed ++ t.hidden ~ t.constituents := by
  have hsub : t.exposed <+~ t.constituents := by
    cases hfields : t.label.operandFields? with
    | none =>
      simp only [exposed, hopen, hfields, Bool.false_eq_true, if_false]
      split
      · exact (List.take_sublist 1 t.constituents).subperm
      · exact (List.Sublist.refl _).subperm
    | some fields =>
      obtain ⟨first, second⟩ := fields
      obtain ⟨a, b, ha, hb, hmema, hmemb⟩ := h.operands first second hfields
      have hne : a ≠ b := by
        rintro rfl
        have hfirst := List.find?_some ha
        have hsecond := List.find?_some hb
        simp only [decide_eq_true_eq] at hfirst hsecond
        rw [hfirst, Option.some.injEq] at hsecond
        exact Label.ne_of_operandFields? hfields hsecond
      have hexposed : t.exposed = [a, b] := by simp [exposed, hopen, hfields, ha, hb]
      rw [hexposed]
      apply List.Nodup.subperm
      · simp [hne]
      · intro c hc
        simp only [List.mem_cons, List.not_mem_nil, or_false] at hc
        rcases hc with rfl | rfl
        · exact hmema
        · exact hmemb
  rw [hidden, hopen]
  exact List.subperm_append_diff_self_of_count_le fun c _ => hsub.count_le c

/-- Every call that is reached is one a walk comes by, or lies in what the walk passes over. -/
theorem reachedCalls_perm {t : Tree} (hintact : ∀ s ∈ t.subtrees, s.IntactAt) :
    t.reachedCalls ~ t.shownCalls ++ t.lostCalls := by
  induction t using induction_descendants with
  | step t ih =>
    have hbelow : ∀ c ∈ t.exposed, c.reachedCalls ~ c.shownCalls ++ c.lostCalls := by
      intro c hc
      have hdesc := mem_descendants_of_mem_children (mem_children_of_mem_exposed hc)
      apply ih c hdesc
      intro r hr
      exact hintact r (mem_subtrees_trans (mem_subtrees_of_mem_descendants hdesc) hr)
    rw [reachedCalls_eq, shownCalls_eq, lostCalls_eq, List.append_assoc]
    apply List.Perm.append_left
    cases hopen : t.label.isClosed with
    | true => simp [exposed, hidden, hopen]
    | false =>
      have hsplit := (hintact t t.self_mem_subtrees).exposed_append_hidden hopen
      calc
        t.constituents.flatMap reachedCalls
        _ ~ (t.exposed ++ t.hidden).flatMap reachedCalls := hsplit.symm.flatMap_right _
        _ = t.exposed.flatMap reachedCalls ++ t.hidden.flatMap reachedCalls :=
          List.flatMap_append
        _ ~ (t.exposed.flatMap fun c => c.shownCalls ++ c.lostCalls) ++
            t.hidden.flatMap reachedCalls := (List.Perm.flatMap_left _ hbelow).append_right _
        _ ~ (t.exposed.flatMap shownCalls ++ t.exposed.flatMap lostCalls) ++
            t.hidden.flatMap reachedCalls :=
          (List.flatMap_append_perm _ _ _).symm.append_right _
        _ ~ t.exposed.flatMap shownCalls ++
            (t.hidden.flatMap reachedCalls ++ t.exposed.flatMap lostCalls) := by
          rw [List.append_assoc]
          exact List.perm_append_comm.append_left _

/-- The node of a bare tree is a call if the tree is one. -/
theorem isCall_toNode {t : Tree} (hbare : t.IsBare) : (t.toNode source).isCall = t.isCall := by
  have hshape : t.isCall = decide (t.label.shape = .call) := by
    rw [isCall, decide_eq_decide, Label.shape_eq_iff _ (by decide), Shape.kinds,
      List.mem_singleton]
  rw [hshape, toNode_eq source hbare]
  cases t.label.shape <;> rfl

/-- The calls of the walk are the calls it comes by. -/
theorem filter_isCall_walk {t : Tree} (hintact : ∀ s ∈ t.subtrees, s.IntactAt)
    (hcomment : t.label.isComment = false) (harguments : t.label.kind ≠ "arguments") :
    (t.toNode source).walk.filter Node.isCall = t.shownCalls.map (toNode source) := by
  rw [Node.walk_eq_preorder,
    preorder_toNode_eq_map_shownBuilt source hintact hcomment harguments, List.filter_map,
    shownBuilt, List.filter_filter, shownCalls]
  congr 1
  apply List.filter_congr
  intro s _
  cases hbuilt : s.isBuilt with
  | true =>
    have hkind : s.label.kind ≠ "parenthesized_expression" := by
      simp only [isBuilt, Bool.and_eq_true, decide_eq_true_eq] at hbuilt
      exact hbuilt.1
    simp [isCall_toNode source (isBare_of_kind_ne hkind)]
  | false =>
    simp only [isBuilt, Bool.and_eq_false_iff, decide_eq_false_iff_not, not_not] at hbuilt
    rcases hbuilt with hkind | hkind <;> simp [isCall, hkind]

/-- After errors the walk over a tree has exactly the calls it comes by, and every other call that
is reached from the root lies in a hidden child. So if no hidden child holds a call, every call that
is reached becomes a call of the walk, with its span. -/
theorem walk_calls_of_recovered (t : Tree) (h : t.Recovered) :
    (t.toNode source).walk.filter Node.isCall = t.shownCalls.map (toNode source) ∧
      t.reachedCalls ~ t.shownCalls ++ t.lostCalls ∧
      (t.lostCalls = [] → ∀ c ∈ t.reached, c.label.kind = "call_expression" →
        ∃ n ∈ (t.toNode source).walk, n.isCall = true ∧ n.head.kind = "CallExpression" ∧
          n.head.start = c.label.start ∧ n.head.stop = c.label.stop) := by
  obtain ⟨s, hs, hsteps⟩ := h
  obtain ⟨hlabel, hintact⟩ :=
    intact_of_insertions hsteps fun r hr => (hs.regular r hr).intactAt
  have hwalk := filter_isCall_walk source hintact (hlabel ▸ hs.not_comment)
    (hlabel ▸ hs.not_arguments)
  have haccount := reachedCalls_perm hintact
  refine ⟨hwalk, haccount, ?_⟩
  intro hlost c hc hkind
  have hcall : c ∈ t.reachedCalls := List.mem_filter.mpr ⟨hc, by simp [isCall, hkind]⟩
  have hshown : c ∈ t.shownCalls := by
    have hmem := haccount.subset hcall
    rwa [hlost, List.append_nil] at hmem
  have hnode : c.toNode source ∈ (t.toNode source).walk.filter Node.isCall := by
    rw [hwalk]
    exact List.mem_map_of_mem hshown
  obtain ⟨hmem, hnodeCall⟩ := List.mem_filter.mp hnode
  have hshape : c.label.shape = .call := Label.shape_of_kind rfl hkind
  have hhead : (c.toNode source).head = c.nodeHead source := by
    apply head_toNode
    apply isBare_of_kind_ne
    simp [hkind]
  refine ⟨c.toNode source, hmem, hnodeCall, ?_, ?_, ?_⟩
  · simp [hhead, nodeHead, Label.head, nodeKind, hshape]
  · simp [hhead, nodeHead, Label.head]
  · simp [hhead, nodeHead, Label.head]

/-- A call of `eval` with one argument, at the given offset of the first line. -/
def evalCallAt (start : Nat) : Tree :=
  node ⟨"call_expression", start, start + 7, 0, start, none, true⟩
    [node ⟨"identifier", start, start + 4, 0, start, some "function", true⟩ [],
      node ⟨"arguments", start + 4, start + 7, 0, start + 4, some "arguments", true⟩
        [node ⟨"identifier", start + 5, start + 6, 0, start + 5, none, true⟩ []]]

/-- The tree at an error, with what the parser still made out there. -/
def errorAt (start stop : Nat) (found : List Tree) : Tree :=
  node ⟨"ERROR", start, stop, 0, start, none, true⟩ found

/-- A program with a call of `eval` in parentheses, some errors before the call and some behind the
statement. -/
def enclosedEval (stop : Nat) (before behind : List Tree) : Tree :=
  node ⟨"program", 0, stop, 0, 0, none, true⟩
    (node ⟨"expression_statement", 0, 10, 0, 0, none, true⟩
      [node ⟨"parenthesized_expression", 0, 10, 0, 0, none, true⟩
        (node ⟨"(", 0, 1, 0, 0, none, false⟩ [] ::
          (before ++ [evalCallAt 2, node ⟨")", 9, 10, 0, 9, none, false⟩ []]))] :: behind)

/-- The tree at an error is an error tree if all trees in it are regular. -/
theorem isErrorTree_errorAt {start stop : Nat} {found : List Tree}
    (h : ∀ s ∈ (errorAt start stop found).subtrees, s.isRegularAt = true) :
    (errorAt start stop found).IsErrorTree :=
  ⟨rfl, rfl, rfl, fun s hs => (isRegularAt_iff s).mp (h s hs)⟩

/-- In `(eval(x))eval(y` the second call lies below an error and is found all the same, because a
program hides none of its children. -/
theorem walk_calls_of_recovered_behind :
    (enclosedEval 17 [] [errorAt 10 17 [evalCallAt 10]]).Recovered ∧
      (enclosedEval 17 [] [errorAt 10 17 [evalCallAt 10]]).lostCalls = [] ∧
      evalCallAt 10 ∈ (enclosedEval 17 [] [errorAt 10 17 [evalCallAt 10]]).reached ∧
      ∃ n ∈ ((enclosedEval 17 [] [errorAt 10 17 [evalCallAt 10]]).toNode []).walk,
        n.isCall = true ∧ n.head.kind = "CallExpression" ∧ n.head.start = 10 ∧
          n.head.stop = 17 := by
  have hrecovered : (enclosedEval 17 [] [errorAt 10 17 [evalCallAt 10]]).Recovered := by
    refine ⟨enclosedEval 17 [] [], by decide, Relation.ReflTransGen.single ?_⟩
    apply @Insertion.here _ [_] []
    exact isErrorTree_errorAt (by decide)
  have hlost : (enclosedEval 17 [] [errorAt 10 17 [evalCallAt 10]]).lostCalls = [] := by
    decide +kernel
  have hreached : evalCallAt 10 ∈
      (enclosedEval 17 [] [errorAt 10 17 [evalCallAt 10]]).reached := by decide
  exact ⟨hrecovered, hlost, hreached,
    (walk_calls_of_recovered [] _ hrecovered).2.2 hlost _ hreached rfl⟩

/-- In `(@eval(x))` the parser puts an error before the call. The tree is a recovered one and the
call is reached from its root, yet no call of the walk has its span: of the parentheses only the
error becomes a node. -/
theorem walk_misses_enclosed_call :
    (enclosedEval 10 [errorAt 1 2 []] []).Recovered ∧
      evalCallAt 2 ∈ (enclosedEval 10 [errorAt 1 2 []] []).reached ∧
      (evalCallAt 2).label.kind = "call_expression" ∧
      ∀ n ∈ ((enclosedEval 10 [errorAt 1 2 []] []).toNode
          [40, 64, 101, 118, 97, 108, 40, 120, 41, 41]).walk,
        ¬(n.isCall = true ∧ n.head.start = (evalCallAt 2).label.start ∧
          n.head.stop = (evalCallAt 2).label.stop) := by
  have hrecovered : (enclosedEval 10 [errorAt 1 2 []] []).Recovered := by
    refine ⟨enclosedEval 10 [] [], by decide, Relation.ReflTransGen.single ?_⟩
    apply @Insertion.inChild _ [] []
    apply @Insertion.inChild _ [] []
    apply @Insertion.here _ [_] [_, _]
    exact isErrorTree_errorAt (by decide)
  refine ⟨hrecovered, by decide, rfl, ?_⟩
  decide +kernel

end Concrete.Tree

end ScriptAudit
