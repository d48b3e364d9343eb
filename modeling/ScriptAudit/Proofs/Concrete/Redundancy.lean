import Mathlib.Logic.Relation
import ScriptAudit.Proofs.Concrete.Conversion

/-!
# Comments and parentheses that mean nothing

Two edits of a concrete tree are meant to go unnoticed: a comment may be put anywhere among the
children of a tree, and a tree may be put in parentheses. `Edit` is one such edit below the root of
a tree, and `Step` also allows parentheses around the root.

A parent gets to know its children in three ways: by what they contribute, by the first child in a
field, and by the argument list of a call. `assemble_congr` says that nothing else counts. An
inserted comment shows in none of these, and a tree in parentheses shows in all of them as it did
before. The operator of a binary expression is the exception, because its text is read as it stands.
-/

set_option autoImplicit false

namespace ScriptAudit.Concrete

/-! ## What a parent depends on -/

/-- A node depends on what its children contribute, on the nodes in its fields, on its arguments and
on the text of its operator. -/
theorem assemble_congr {source : Source} {label : Label} {as bs : List Adapted}
    (hparts : as.flatMap Adapted.contribution = bs.flatMap Adapted.contribution)
    (hfield : ∀ field, (childIn? field as).map (·.built) = (childIn? field bs).map (·.built))
    (harguments : callArguments as = callArguments bs)
    (hoperator : label.kind = "binary_expression" →
      (childIn? "operator" as).map (·.label.text source) =
        (childIn? "operator" bs).map (·.label.text source)) :
    assemble source label as = assemble source label bs := by
  have hbuild (parts : List Built) : build source label as parts = build source label bs parts := by
    rw [build_eq, build_eq]
    cases hshape : label.shape with
    | member computed => simp only [buildMember, hfield]
    | call => simp only [buildCall, hfield, harguments]
    | binary =>
      have hkind : label.kind = "binary_expression" := Label.kind_of_shape rfl hshape
      simp only [buildBinary, hfield, hoperator hkind]
    | _ => rfl
  simp only [assemble, hparts, hbuild]

/-- A tree without a field does not change what is found in a field. -/
theorem childIn?_insert {field : String} {pre post : List Adapted} {c : Adapted}
    (hfree : c.label.field = none) :
    childIn? field (pre ++ c :: post) = childIn? field (pre ++ post) := by
  simp [childIn?, List.find?_append, hfree]

/-- Two children that a parent cannot tell apart, unless it reads the text of one. -/
structure Adapted.Alike (a b : Adapted) : Prop where
  field : a.label.field = b.label.field
  built : a.built = b.built
  contribution : a.contribution = b.contribution
  left_kind : a.label.kind ≠ "arguments"
  right_kind : b.label.kind ≠ "arguments"

/-- If one of two like children stands for the other, the same child is found in a field, or one of
the two. -/
theorem childIn?_replace (field : String) (pre post : List Adapted) {a b : Adapted}
    (h : a.Alike b) :
    childIn? field (pre ++ a :: post) = childIn? field (pre ++ b :: post) ∨
      childIn? field (pre ++ a :: post) = some a ∧ childIn? field (pre ++ b :: post) = some b := by
  simp only [childIn?, List.find?_append, List.find?_cons, h.field]
  cases pre.find? (·.label.field = some field) with
  | some c => simp
  | none => by_cases hfield : b.label.field = some field <;> simp [hfield]

/-- A child that has no field and contributes nothing does not change the node. -/
theorem assemble_insert {source : Source} {label : Label} {pre post : List Adapted} {c : Adapted}
    (hfree : c.label.field = none) (hnothing : c.contribution = []) :
    assemble source label (pre ++ c :: post) = assemble source label (pre ++ post) := by
  apply assemble_congr
  · simp [hnothing]
  · intro field
    rw [childIn?_insert hfree]
  · simp only [callArguments, childIn?_insert hfree]
  · intro _
    rw [childIn?_insert hfree]

/-- A child can be replaced by one like it, unless it is the operator. -/
theorem assemble_replace {source : Source} {label : Label} {pre post : List Adapted}
    {a b : Adapted} (h : a.Alike b)
    (hoperator : label.kind = "binary_expression" → a.label.field = some "operator" →
      ∃ o ∈ pre, o.label.field = some "operator") :
    assemble source label (pre ++ a :: post) = assemble source label (pre ++ b :: post) := by
  apply assemble_congr
  · simp [h.contribution]
  · intro field
    rcases childIn?_replace field pre post h with heq | ⟨ha, hb⟩
    · rw [heq]
    · simp [ha, hb, h.built]
  · unfold callArguments
    rcases childIn?_replace "arguments" pre post h with heq | ⟨ha, hb⟩
    · rw [heq]
    · simp [ha, hb, h.built, h.left_kind, h.right_kind]
  · intro hkind
    -- the operator is found before the place of the edit, or the field is another one
    by_cases hfield : a.label.field = some "operator"
    · obtain ⟨o, ho, hofield⟩ := hoperator hkind hfield
      have hfound : (pre.find? (·.label.field = some "operator")).isSome := by
        rw [List.find?_isSome]
        exact ⟨o, ho, by simpa using hofield⟩
      obtain ⟨first, hfirst⟩ := Option.isSome_iff_exists.mp hfound
      simp [childIn?, List.find?_append, hfirst]
    · have hfield' : b.label.field ≠ some "operator" := h.field ▸ hfield
      simp [childIn?, List.find?_append, hfield, hfield']

namespace Tree

/-! ## The edits -/

/-- A named comment without a field. -/
structure IsFreeComment (c : Tree) : Prop where
  named : c.label.named = true
  comment : c.label.isComment = true
  free : c.label.field = none

/-- The same tree in another field of its parent, or in none. -/
def withField (t : Tree) (field : Option String) : Tree := node { t.label with field } t.children

/-- The first tree is the second one in parentheses. It takes over the field, its span does not
matter, and of its children only the enclosed tree is named and no comment. What is enclosed is a
named tree, no comment and no argument list. -/
structure Encloses (p x : Tree) : Prop where
  kind : p.label.kind = "parenthesized_expression"
  named : p.label.named = true
  field : p.label.field = x.label.field
  inner : ∃ field, p.constituents = [x.withField field]
  inner_named : x.label.named = true
  inner_comment : x.label.isComment = false
  inner_kind : x.label.kind ≠ "arguments"

/-- One edit below the root of a tree: a comment is inserted among the children of a tree, or a
child is put in parentheses. The operator of a binary expression, the first child in the field of
that name, is not put in parentheses. -/
inductive Edit : Tree → Tree → Prop
  | comment {label : Label} {pre post : List Tree} {c : Tree} (hc : c.IsFreeComment) :
    Edit (node label (pre ++ post)) (node label (pre ++ c :: post))
  | parentheses {label : Label} {pre post : List Tree} {x p : Tree} (hp : p.Encloses x)
    (hoperator : label.kind = "binary_expression" → x.label.field = some "operator" →
      ∃ o ∈ pre, o.label.field = some "operator") :
    Edit (node label (pre ++ x :: post)) (node label (pre ++ p :: post))
  | inChild {label : Label} {pre post : List Tree} {x y : Tree} (hxy : Edit x y) :
    Edit (node label (pre ++ x :: post)) (node label (pre ++ y :: post))

/-- One edit anywhere in a tree, its root included. -/
inductive Step : Tree → Tree → Prop
  | inside {t u : Tree} (h : Edit t u) : Step t u
  | root {t p : Tree} (h : p.Encloses t) : Step t p

/-! ## The edits go unnoticed -/

variable (source : Source)

/-- A comment contributes nothing. -/
theorem contribution_adapt_of_comment {c : Tree} (h : c.label.isComment = true) :
    (c.adapt source).contribution = [] := by
  simp [contribution_adapt, h]

/-- The field of a tree does not change what is built for it. -/
theorem built_adapt_withField (t : Tree) (field : Option String) :
    ((t.withField field).adapt source).built = (t.adapt source).built := by
  obtain ⟨label, children⟩ := t
  simp only [withField, adapt, assemble]
  rfl

/-- A tree in parentheses is built into the same node. -/
theorem built_adapt_of_encloses {p x : Tree} (h : p.Encloses x) :
    (p.adapt source).built = (x.adapt source).built := by
  obtain ⟨field, hinner⟩ := h.inner
  have hshape : p.label.shape = .parentheses := Label.shape_of_kind rfl h.kind
  have hkind : (x.withField field).label.kind ≠ "arguments" := h.inner_kind
  have hparts : p.parts = [x.withField field] := by
    rw [parts_eq, hinner, List.flatMap_singleton, spread_of_ne hkind]
  rw [built_adapt, build_eq, hshape, parts_adapt, hparts]
  exact built_adapt_withField source x field

/-- A parent cannot tell a tree from the same tree in parentheses. -/
theorem alike_of_encloses {p x : Tree} (h : p.Encloses x) :
    (x.adapt source).Alike (p.adapt source) := by
  have hkind : p.label.kind ≠ "arguments" := by
    rw [h.kind]
    decide
  have hcomment : p.label.isComment = false := by
    rw [Label.isComment, h.kind]
    decide
  have hbuilt := (built_adapt_of_encloses source h).symm
  refine ⟨?_, hbuilt, ?_, ?_, ?_⟩
  · simp [h.field]
  · simp [contribution_adapt, h.named, h.inner_named, hcomment, h.inner_comment, hkind,
      h.inner_kind, hbuilt]
  · simpa using h.inner_kind
  · simpa using hkind

/-- A tree is assembled from its adapted children. -/
theorem adapt_node (label : Label) (children : List Tree) :
    (node label children).adapt source = assemble source label (children.map (adapt source)) := by
  rw [adapt, adaptAll_eq_map]

/-- Nothing a parent gets to know of a tree changes when the tree is edited below its root. -/
theorem adapt_eq_of_edit {t u : Tree} (h : Edit t u) : u.adapt source = t.adapt source := by
  induction h with
  | comment hc =>
    simp only [adapt_node, List.map_append, List.map_cons]
    apply assemble_insert
    · simpa using hc.free
    · exact contribution_adapt_of_comment source hc.comment
  | parentheses hp hoperator =>
    simp only [adapt_node, List.map_append, List.map_cons]
    symm
    apply assemble_replace (alike_of_encloses source hp)
    intro hkind hfield
    rw [label_adapt] at hfield
    obtain ⟨o, ho, hofield⟩ := hoperator hkind hfield
    exact ⟨o.adapt source, List.mem_map_of_mem ho, by simpa using hofield⟩
  | inChild _ ih => simp only [adapt_node, List.map_append, List.map_cons, ih]

/-- One edit does not change what is built. -/
theorem built_adapt_of_step {t u : Tree} (h : Step t u) :
    (u.adapt source).built = (t.adapt source).built := by
  cases h with
  | inside h => rw [adapt_eq_of_edit source h]
  | root h => exact built_adapt_of_encloses source h

/-- However many edits do not change what is built. -/
theorem built_adapt_of_steps {t u : Tree} (h : Relation.ReflTransGen Step t u) :
    (u.adapt source).built = (t.adapt source).built := by
  induction h with
  | refl => rfl
  | tail _ hstep ih => rw [built_adapt_of_step source hstep, ih]

/-- Comments and redundant parentheses, however many and however nested, change nothing: the trees
become the same node, the same numbers are unreadable, and every scan does the same with both, in
its diagnostics and in everything else. -/
theorem toNode_eq_of_steps {t u : Tree} (h : Relation.ReflTransGen Step t u) :
    u.toNode source = t.toNode source ∧ u.unreadable source = t.unreadable source ∧
      ∀ (registry : Registry) (path : Option Path) (r : Report.Reporter),
        Scan.run registry (u.toNode source) path r =
          Scan.run registry (t.toNode source) path r := by
  have hbuilt := built_adapt_of_steps source h
  have hnode : u.toNode source = t.toNode source := congrArg Built.node hbuilt
  refine ⟨hnode, congrArg Built.unreadable hbuilt, ?_⟩
  intro registry path r
  rw [hnode]

/-- A call with the given function and argument list. -/
def callOf (function list : Tree) : Tree :=
  node ⟨"call_expression", 0, 7, 0, 0, none, true⟩ [function, list]

/-- The function of `eval(x)`. -/
def evalName : Tree := node ⟨"identifier", 0, 4, 0, 0, some "function", true⟩ []

/-- The argument list of `eval(x)`, behind some trees that are put in front of its argument. -/
def argumentList (trivia : List Tree) : Tree :=
  node ⟨"arguments", 4, 7, 0, 4, some "arguments", true⟩
    (trivia ++ [node ⟨"identifier", 5, 6, 0, 5, none, true⟩ []])

/-- A comment that has a child. -/
def commentWithChild : Tree :=
  node ⟨"html_comment", 0, 1, 0, 0, none, true⟩ [node ⟨"identifier", 0, 1, 0, 0, none, true⟩ []]

/-- The function of `eval(x)` in parentheses, behind a comment. -/
def enclosedName : Tree :=
  node ⟨"parenthesized_expression", 2, 2, 1, 1, some "function", true⟩
    [node ⟨"comment", 0, 1, 0, 0, none, true⟩ [], evalName]

/-- The call of the enclosed function in parentheses of its own, with an improper span. -/
def annotatedCall : Tree :=
  node ⟨"parenthesized_expression", 9, 3, 7, 7, none, true⟩
    [node ⟨"(", 0, 0, 0, 0, none, false⟩ [], callOf enclosedName (argumentList [commentWithChild])]

/-- A comment among the arguments, then parentheses around the function, then around the call. -/
theorem toNode_eq_of_steps_annotatedCall :
    Relation.ReflTransGen Step (callOf evalName (argumentList [])) annotatedCall ∧
      annotatedCall.toNode [101, 118, 97, 108, 40, 120, 41] =
        (callOf evalName (argumentList [])).toNode [101, 118, 97, 108, 40, 120, 41] := by
  have hcomment : Edit (argumentList []) (argumentList [commentWithChild]) := by
    apply @Edit.comment _ [] [_]
    exact ⟨rfl, by decide, rfl⟩
  have hlist : Step (callOf evalName (argumentList []))
      (callOf evalName (argumentList [commentWithChild])) := by
    apply Step.inside
    exact @Edit.inChild _ [evalName] [] _ _ hcomment
  have hname : Step (callOf evalName (argumentList [commentWithChild]))
      (callOf enclosedName (argumentList [commentWithChild])) := by
    apply Step.inside
    apply @Edit.parentheses _ [] [_]
    · exact ⟨rfl, rfl, rfl, ⟨some "function", rfl⟩, rfl, by decide, by decide⟩
    · intro hkind
      exact absurd hkind (by decide)
  have hroot : Step (callOf enclosedName (argumentList [commentWithChild])) annotatedCall := by
    apply Step.root
    exact ⟨rfl, rfl, rfl, ⟨none, rfl⟩, rfl, by decide, by decide⟩
  have hsteps := ((Relation.ReflTransGen.single hlist).tail hname).tail hroot
  exact ⟨hsteps, (toNode_eq_of_steps _ hsteps).1⟩

end Tree

end ScriptAudit.Concrete
