import ScriptAudit.Node.Adapt
import ScriptAudit.Proofs.Concrete.Parts
import ScriptAudit.Proofs.Rule.Placement

/-!
# The node of a concrete tree

The abstract tree is built from the leaves up. Here it is described from the root down: parentheses
are taken off, the shape of what is left decides what kind of node it becomes, and the children of
the node are the nodes of its branches, trees that are found through parts and fields.

So every node of an abstract tree is the node of a bare subtree of the concrete tree, and stands at
the place of that subtree.
-/

set_option autoImplicit false

namespace ScriptAudit.Concrete

/-! ## Shapes -/

/-- What a kind of the grammar is built into. -/
inductive Shape where
  | parentheses
  | identifier
  | literal
  | member (computed : Bool)
  | call
  | binary
  | other
  deriving DecidableEq, Repr

/-- The shape of a label. -/
def Label.shape (label : Label) : Shape :=
  if label.kind = "parenthesized_expression" then .parentheses
  else if Kind.identifiers.contains label.kind then .identifier
  else if Kind.literals.contains label.kind then .literal
  else if label.kind = "member_expression" then .member false
  else if label.kind = "subscript_expression" then .member true
  else if label.kind = "call_expression" then .call
  else if label.kind = "binary_expression" then .binary
  else .other

/-- The kinds of a shape; every other kind has the shape `other`. -/
def Shape.kinds : Shape → List String
  | .parentheses => ["parenthesized_expression"]
  | .identifier => Kind.identifiers
  | .literal => Kind.literals
  | .member false => ["member_expression"]
  | .member true => ["subscript_expression"]
  | .call => ["call_expression"]
  | .binary => ["binary_expression"]
  | .other => []

/-- A shape of its own is that of the kinds that it lists. -/
theorem Label.shape_eq_iff {shape : Shape} (label : Label) (hother : shape ≠ .other) :
    label.shape = shape ↔ label.kind ∈ shape.kinds := by
  constructor
  · intro h
    subst h
    unfold Label.shape at hother ⊢
    repeat' split
    all_goals simp_all [Shape.kinds]
  · intro h
    -- no kind belongs to two shapes
    cases shape with
    | member computed =>
      cases computed <;>
        simp_all [Shape.kinds, Label.shape, Kind.identifiers, Kind.literals]
    | identifier =>
      have hkind : label.kind ≠ "parenthesized_expression" := by
        have hall : ∀ k ∈ Kind.identifiers, k ≠ "parenthesized_expression" := by decide
        exact hall _ h
      simp_all [Shape.kinds, Label.shape]
    | literal =>
      have hkind : label.kind ≠ "parenthesized_expression" ∧ label.kind ∉ Kind.identifiers := by
        have hall : ∀ k ∈ Kind.literals,
            k ≠ "parenthesized_expression" ∧ k ∉ Kind.identifiers := by decide
        exact hall _ h
      simp_all [Shape.kinds, Label.shape]
    | _ => simp_all [Shape.kinds, Label.shape, Kind.identifiers, Kind.literals]

/-- The only kind of a shape has that shape. -/
theorem Label.shape_of_kind {label : Label} {shape : Shape} {kind : String}
    (hkinds : shape.kinds = [kind]) (h : label.kind = kind) : label.shape = shape := by
  have hother : shape ≠ .other := by
    rintro rfl
    cases hkinds
  rw [label.shape_eq_iff hother, hkinds, h]
  exact List.mem_singleton_self kind

/-- A shape with one kind is that of no other. -/
theorem Label.kind_of_shape {label : Label} {shape : Shape} {kind : String}
    (hkinds : shape.kinds = [kind]) (h : label.shape = shape) : label.kind = kind := by
  have hother : shape ≠ .other := by
    rintro rfl
    cases hkinds
  rw [label.shape_eq_iff hother, hkinds] at h
  exact List.mem_singleton.mp h

/-- A node is built by its shape. -/
theorem build_eq (source : Source) (label : Label) (children : List Adapted) (parts : List Built) :
    build source label children parts =
      match label.shape with
      | .parentheses => parts.head?.getD (buildGeneric source label parts)
      | .identifier =>
        { node := .identifier (label.head source "Identifier") (some (label.text source)) }
      | .literal => buildLiteral source label
      | .member computed => buildMember source label children computed
      | .call => buildCall source label children
      | .binary => buildBinary source label children
      | .other => buildGeneric source label parts := by
  unfold build Label.shape
  split
  · cases parts <;> rfl
  · repeat' split
    all_goals simp_all

/-! ## What a parent sees of its children -/

namespace Tree

variable (source : Source)

/-- Adaptation keeps the label. -/
@[simp] theorem label_adapt (t : Tree) : (t.adapt source).label = t.label := by
  obtain ⟨label, children⟩ := t
  rw [adapt]
  rfl

/-- Comments and unnamed trees contribute nothing, arguments what they contain, and all others the
node that is built for them. -/
theorem contribution_adapt (c : Tree) :
    (c.adapt source).contribution =
      if c.label.named && !c.label.isComment then
        if c.label.kind = "arguments" then (c.adapt source).parts else [(c.adapt source).built]
      else [] := by
  rw [Adapted.contribution, label_adapt]
  unfold Label.isComment
  cases c.label.named <;> cases Kind.comments.contains c.label.kind <;> rfl

/-- The parts of a tree are what its constituents contribute. -/
theorem parts_adapt_eq_flatMap (t : Tree) :
    (t.adapt source).parts = t.constituents.flatMap fun c => (c.adapt source).contribution := by
  obtain ⟨label, children⟩ := t
  have hdropped : ∀ c ∈ (node label children).children,
      (c.label.named && !c.label.isComment) = false → (c.adapt source).contribution = [] := by
    intro c _ hc
    rw [contribution_adapt, hc]
    rfl
  rw [constituents, flatMap_filter_of_nil hdropped, adapt, adaptAll_eq_map]
  simp only [assemble, List.flatMap_map]
  rfl

/-- The parts of an adapted tree are built from the parts of the tree. -/
theorem parts_adapt (t : Tree) :
    (t.adapt source).parts = t.parts.map fun p => (p.adapt source).built := by
  induction t using induction_descendants with
  | step t ih =>
    rw [parts_adapt_eq_flatMap, parts_eq, List.map_flatMap]
    apply List.flatMap_congr
    intro c hc
    have hkept := (List.mem_filter.mp hc).2
    have hbelow := mem_descendants_of_mem_children (mem_children_of_mem_constituents hc)
    rw [contribution_adapt, if_pos hkept, ih c hbelow, spread]
    split <;> rfl

/-- The adapted tree in a field is the adaptation of the tree in it. -/
theorem childIn?_adaptAll (field : String) (t : Tree) :
    childIn? field (adaptAll source t.children) = (t.inField? field).map (adapt source) := by
  rw [adaptAll_eq_map, childIn?, List.find?_map, inField?]
  congr 2
  funext c
  simp

/-- What is built for a tree is built from its label, its children and its parts. -/
theorem built_adapt (t : Tree) :
    (t.adapt source).built =
      build source t.label (adaptAll source t.children) (t.adapt source).parts := by
  obtain ⟨label, children⟩ := t
  rw [adapt]
  rfl

/-! ## From the root down -/

/-- The arguments of a call: the parts of its argument list, or the single template it is applied
to. -/
def arguments (t : Tree) : List Tree := (t.inField? "arguments").toList.flatMap spread

/-- The text of the operator of a binary expression. -/
def operator? (t : Tree) : Option String := (t.inField? "operator").map (·.label.text source)

/-- The field of the property of a member access. -/
def propertyField (computed : Bool) : String := if computed then "index" else "property"

/-- The kind of the node a bare tree becomes. -/
def nodeKind (t : Tree) : String :=
  match t.label.shape with
  | .identifier => "Identifier"
  | .literal => "Literal"
  | .member _ => "MemberExpression"
  | .call => "CallExpression"
  | .binary =>
    if (t.operator? source).any (Kind.logicalOperators.contains ·) then "LogicalExpression"
    else "BinaryExpression"
  | .parentheses | .other => Kind.ofGrammar t.label.kind

/-- The head of the node a bare tree becomes. -/
def nodeHead (t : Tree) : Head := t.label.head source (t.nodeKind source)

/-- The node of a bare tree is decided by its shape. -/
theorem toNode_eq {t : Tree} (hbare : t.IsBare) :
    t.toNode source =
      match t.label.shape with
      | .identifier => .identifier (t.nodeHead source) (some (t.label.text source))
      | .literal =>
        .literal (t.nodeHead source)
          ((literalValue? t.label.kind (t.label.text source)).getD .null)
          (some (t.label.text source))
      | .member computed =>
        .member (t.nodeHead source) ((t.inField? "object").map (toNode source))
          ((t.inField? (propertyField computed)).map (toNode source)) computed
      | .call =>
        .call (t.nodeHead source) ((t.inField? "function").map (toNode source))
          (t.arguments.map (toNode source))
      | .binary =>
        .binary (t.nodeHead source) (t.operator? source) ((t.inField? "left").map (toNode source))
          ((t.inField? "right").map (toNode source))
      | .parentheses | .other => .generic (t.nodeHead source) (t.parts.map (toNode source)) := by
  have hfield (field : String) :
      node? ((childIn? field (adaptAll source t.children)).map (·.built)) =
        (t.inField? field).map (toNode source) := by
    rw [childIn?_adaptAll]
    cases t.inField? field <;> rfl
  have hparts : (t.adapt source).parts.map (·.node) = t.parts.map (toNode source) := by
    rw [parts_adapt, List.map_map]
    rfl
  rw [toNode, built_adapt, build_eq]
  cases hshape : t.label.shape with
  | parentheses =>
    have hnil : t.parts = [] := hbare (Label.kind_of_shape rfl hshape)
    simp [parts_adapt, hnil, buildGeneric, nodeHead, nodeKind, hshape]
  | identifier => simp [nodeHead, nodeKind, hshape]
  | literal => simp [buildLiteral, nodeHead, nodeKind, hshape]
  | member computed =>
    simp only [buildMember, nodeHead, nodeKind, hshape, hfield]
    rfl
  | call =>
    have harguments : (callArguments (adaptAll source t.children)).map (·.node) =
        t.arguments.map (toNode source) := by
      rw [callArguments, childIn?_adaptAll, arguments]
      cases t.inField? "arguments" with
      | none => rfl
      | some list =>
        simp only [Option.map_some, Option.toList_some, List.flatMap_singleton, label_adapt,
          parts_adapt, spread]
        split
        · rw [List.map_map]
          rfl
        · rfl
    simp only [buildCall, nodeHead, nodeKind, hshape, hfield, harguments]
  | binary =>
    have hoperator : (childIn? "operator" (adaptAll source t.children)).map (·.label.text source) =
        t.operator? source := by
      rw [childIn?_adaptAll, operator?]
      cases t.inField? "operator" <;> simp
    simp only [buildBinary, nodeHead, nodeKind, hshape, hfield, hoperator]
  | other => simp only [buildGeneric, nodeHead, nodeKind, hshape, hparts]

/-- A bare tree becomes a node with its own place and type. -/
theorem head_toNode {t : Tree} (hbare : t.IsBare) : (t.toNode source).head = t.nodeHead source := by
  rw [toNode_eq source hbare]
  split <;> rfl

/-- Parentheses make no difference to the node of a tree. -/
theorem toNode_unwrap (t : Tree) : t.unwrap.toNode source = t.toNode source := by
  induction t using induction_descendants with
  | step t ih =>
    rcases t.isBare_or_exists_parts with hbare | ⟨hkind, inner, rest, hparts⟩
    · rw [unwrap_of_isBare hbare]
    · have hinner := ih inner (mem_descendants_of_parts_eq_cons hparts)
      have hshape : t.label.shape = .parentheses := Label.shape_of_kind rfl hkind
      rw [unwrap_of_parts hkind hparts, hinner, toNode, toNode, built_adapt source t, build_eq,
        hshape, parts_adapt, hparts]
      rfl

/-- The name of an identifier in parentheses, or without. -/
def name? (t : Tree) : Option String :=
  if t.unwrap.label.shape = .identifier then some (t.unwrap.label.text source) else none

/-- The name that stands in a field. -/
def nameIn? (t : Tree) (field : String) : Option String :=
  (t.inField? field).bind (·.name? source)

/-- The name of a node can be read off the tree. -/
theorem name?_toNode (t : Tree) : (t.toNode source).name? = t.name? source := by
  rw [← toNode_unwrap, toNode_eq source t.unwrap_spec.1, name?]
  cases t.unwrap.label.shape <;> rfl

/-- The name in a field can be read off the tree. -/
theorem nameIn?_map_toNode (t : Tree) (field : String) :
    Rule.nameIn? ((t.inField? field).map (toNode source)) = t.nameIn? source field := by
  rw [Rule.nameIn?, nameIn?]
  cases t.inField? field with
  | none => rfl
  | some c => exact name?_toNode source c

/-! ## Branches -/

/-- The trees whose nodes are the children of the node of a bare tree. -/
def branches (t : Tree) : List Tree :=
  match t.label.shape with
  | .identifier | .literal => []
  | .member computed => (t.inField? "object").toList ++ (t.inField? (propertyField computed)).toList
  | .call => (t.inField? "function").toList ++ t.arguments
  | .binary => (t.inField? "left").toList ++ (t.inField? "right").toList
  | .parentheses | .other => t.parts

/-- The children of the node of a bare tree are the nodes of its branches. -/
theorem children_toNode {t : Tree} (hbare : t.IsBare) :
    (t.toNode source).children = t.branches.map (toNode source) := by
  rw [toNode_eq source hbare, branches]
  cases t.label.shape <;> simp [Node.children, Option.toList_map]

/-- A branch lies below its tree. -/
theorem mem_descendants_of_mem_branches {b t : Tree} (h : b ∈ t.branches) :
    b ∈ t.descendants := by
  have hfield {field : String} (h : b ∈ (t.inField? field).toList) : b ∈ t.descendants :=
    mem_descendants_of_inField? (Option.mem_toList.mp h)
  unfold branches at h
  split at h
  · cases h
  · cases h
  · exact (List.mem_append.mp h).elim hfield hfield
  · rcases List.mem_append.mp h with h | h
    · exact hfield h
    · obtain ⟨list, hlist, hb⟩ := List.mem_flatMap.mp h
      have hchild := mem_children_of_inField? (Option.mem_toList.mp hlist)
      exact List.mem_flatMap.mpr ⟨list, hchild, mem_subtrees_of_mem_spread hb⟩
  · exact (List.mem_append.mp h).elim hfield hfield
  · exact mem_descendants_of_mem_parts h
  · exact mem_descendants_of_mem_parts h

/-- In pre-order the node of a bare tree comes first, and then the nodes of its branches. -/
theorem preorder_toNode {t : Tree} (hbare : t.IsBare) :
    (t.toNode source).preorder =
      t.toNode source :: t.branches.flatMap fun b => (b.toNode source).preorder := by
  rw [Node.preorder_eq, children_toNode source hbare, List.flatMap_map]

/-- Every node of an abstract tree is the node of a bare subtree of the concrete tree. -/
theorem exists_of_mem_preorder {t : Tree} {n : Node} (h : n ∈ (t.toNode source).preorder) :
    ∃ s ∈ t.subtrees, s.IsBare ∧ s.toNode source = n := by
  induction t using induction_descendants generalizing n with
  | step t ih =>
    obtain ⟨hbare, hmem⟩ := t.unwrap_spec
    rw [← toNode_unwrap, preorder_toNode source hbare, List.mem_cons, List.mem_flatMap] at h
    rcases h with rfl | ⟨b, hb, hn⟩
    · exact ⟨t.unwrap, hmem, hbare, rfl⟩
    · have hdesc := mem_descendants_trans hmem (mem_descendants_of_mem_branches hb)
      obtain ⟨s, hs, hsbare, rfl⟩ := ih b hdesc hn
      exact ⟨s, mem_subtrees_trans (mem_subtrees_of_mem_descendants hdesc) hs, hsbare, rfl⟩

/-- The nodes of an abstract tree stand at proper places, whatever the concrete tree looks like. -/
theorem allPlaced_toNode (t : Tree) : (t.toNode source).AllPlaced := by
  intro n hn
  obtain ⟨s, -, hbare, rfl⟩ := exists_of_mem_preorder source hn
  have hline : (s.nodeHead source).line = (s.label.row : Int) + 1 := rfl
  have hcolumn : (s.nodeHead source).column =
      source.characterColumn s.label.start s.label.column := rfl
  rw [Node.IsPlaced, head_toNode source hbare, hline, hcolumn, Source.characterColumn]
  omega

end Tree

end ScriptAudit.Concrete
