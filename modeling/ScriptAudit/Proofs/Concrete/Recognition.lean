import ScriptAudit.Proofs.Concrete.Conversion

/-!
# What the rules recognise, in the concrete tree

A rule looks at a node; the node was built from a bare tree. Here each test of a rule on the node is
traced back to the tree: which kind it has, which of its fields are filled, and what stands there
once parentheses are taken off. A node that merely calls itself by the name of some shape is built
from a tree of no special shape, and no test holds of it.
-/

set_option autoImplicit false

namespace ScriptAudit.Concrete.Tree

variable (source : Source)

/-- The tree is a member access, written with a point or with brackets, and its property stands in
the field. -/
inductive IsAccess : Tree → String → Prop
  | member {t : Tree} (h : t.label.kind = "member_expression") : IsAccess t "property"
  | subscript {t : Tree} (h : t.label.kind = "subscript_expression") : IsAccess t "index"

/-- A tree with the shape of an access is one. -/
theorem isAccess_of_shape {t : Tree} {computed : Bool} (h : t.label.shape = .member computed) :
    t.IsAccess (propertyField computed) := by
  cases computed with
  | false => exact .member (Label.kind_of_shape rfl h)
  | true => exact .subscript (Label.kind_of_shape rfl h)

/-- A call of the function that goes by the name `eval`. -/
def callsEval (t : Tree) : Bool :=
  t.label.kind = "call_expression" && t.nameIn? source "function" = some "eval"

/-- A tree calls `eval` if it is a call and that is the name of its function. -/
theorem callsEval_iff (t : Tree) :
    t.callsEval source = true ↔
      t.label.kind = "call_expression" ∧ t.nameIn? source "function" = some "eval" := by
  simp [callsEval]

/-- The node of a bare tree is a call of `eval` if the tree is one. -/
theorem isEvalCall_toNode {t : Tree} (hbare : t.IsBare) :
    Rule.isEvalCall (t.toNode source) = t.callsEval source := by
  rw [Rule.isEvalCall, toNode_eq source hbare, callsEval]
  cases hshape : t.label.shape with
  | call =>
    have hkind : t.label.kind = "call_expression" := Label.kind_of_shape rfl hshape
    simp [Node.callee?, nameIn?_map_toNode, hkind]
  | _ =>
    have hkind : t.label.kind ≠ "call_expression" := by
      intro hkind
      have hcall : t.label.shape = .call := Label.shape_of_kind rfl hkind
      rw [hshape] at hcall
      cases hcall
    simp [Node.callee?, Rule.nameIn?, hkind]

/-- A tree that calls `eval` becomes a call. -/
theorem kind_of_callsEval {t : Tree} (h : t.callsEval source = true) :
    t.nodeKind source = "CallExpression" := by
  have hshape : t.label.shape = .call :=
    Label.shape_of_kind rfl ((callsEval_iff source t).mp h).1
  rw [nodeKind, hshape]

/-- The property of a node that has a name there is the property of an access. -/
theorem exists_access_of_property {t : Tree} {name : String} (hbare : t.IsBare)
    (h : Rule.nameIn? (t.toNode source).property? = some name) :
    ∃ field, t.IsAccess field ∧ t.nameIn? source field = some name ∧
      Rule.nameIn? (t.toNode source).object? = t.nameIn? source "object" := by
  rw [toNode_eq source hbare] at h ⊢
  cases hshape : t.label.shape with
  | member computed =>
    rw [hshape] at h
    refine ⟨propertyField computed, isAccess_of_shape hshape, ?_, nameIn?_map_toNode source t _⟩
    rw [← nameIn?_map_toNode]
    exact h
  | _ => simp [hshape, Node.property?, Rule.nameIn?] at h

/-- A node that logs to the console comes from an access to one of the two methods of the
console. -/
theorem exists_of_isConsoleLog {t : Tree} (hbare : t.IsBare)
    (h : Rule.isConsoleLog (t.toNode source) = true) :
    ∃ field method, t.IsAccess field ∧ t.nameIn? source "object" = some "console" ∧
      t.nameIn? source field = some method ∧ method ∈ ["log", "debug"] := by
  simp only [Rule.isConsoleLog, Bool.and_eq_true, decide_eq_true_eq] at h
  obtain ⟨hobject, hproperty⟩ := h
  cases hname : Rule.nameIn? (t.toNode source).property? with
  | none => simp [hname] at hproperty
  | some method =>
    rw [hname] at hproperty
    obtain ⟨field, haccess, hfield, hobject'⟩ := exists_access_of_property source hbare hname
    rw [hobject'] at hobject
    exact ⟨field, method, haccess, hobject, hfield, by simpa [Rule.loggingMethods] using hproperty⟩

/-- The operator and the operands of a node are those of a binary expression. -/
theorem binary_of_operator? {t : Tree} {operator : String} (hbare : t.IsBare)
    (h : (t.toNode source).operator? = some operator) :
    t.label.kind = "binary_expression" ∧ t.operator? source = some operator ∧
      (t.toNode source).operands =
        ((t.inField? "left").map (toNode source), (t.inField? "right").map (toNode source)) := by
  rw [toNode_eq source hbare] at h ⊢
  cases hshape : t.label.shape with
  | binary =>
    rw [hshape] at h
    exact ⟨Label.kind_of_shape rfl hshape, h, rfl⟩
  | _ => simp [hshape, Node.operator?] at h

/-- The kind of a node is that of the tree without its parentheses. -/
theorem kind_toNode (t : Tree) : (t.toNode source).kind = t.unwrap.nodeKind source := by
  rw [Node.kind, ← toNode_unwrap, head_toNode source t.unwrap_spec.1]
  rfl

/-- A node with a raw text comes from a literal, whose text that is. -/
theorem literal_of_raw? {t : Tree} {raw : String} (h : (t.toNode source).raw? = some raw) :
    t.unwrap.label.kind ∈ Kind.literals ∧ t.unwrap.label.text source = raw := by
  have hiff := t.unwrap.label.shape_eq_iff (show Shape.literal ≠ .other by decide)
  rw [← toNode_unwrap, toNode_eq source t.unwrap_spec.1] at h
  cases hshape : t.unwrap.label.shape with
  | literal =>
    rw [hshape] at h
    exact ⟨hiff.mp hshape, Option.some.inj h⟩
  | _ => simp [hshape, Node.raw?] at h

/-- A node that truncates comes from a binary expression with a bar and a zero on one side. -/
theorem exists_of_isTruncation {t : Tree} (hbare : t.IsBare)
    (h : Rule.isTruncation (t.toNode source) = true) :
    t.label.kind = "binary_expression" ∧ t.operator? source = some "|" ∧
      ∃ side operand, side ∈ ["left", "right"] ∧ t.inField? side = some operand ∧
        operand.unwrap.label.kind ∈ Kind.literals ∧ operand.unwrap.label.text source = "0" := by
  simp only [Rule.isTruncation, Bool.and_eq_true, decide_eq_true_eq, Bool.or_eq_true] at h
  obtain ⟨hoperator, hzero⟩ := h
  obtain ⟨hkind, hoperator', hoperands⟩ := binary_of_operator? source hbare hoperator
  have hside (side : String)
      (h : Rule.isZeroLiteral ((t.inField? side).map (toNode source)) = true) :
      ∃ operand, t.inField? side = some operand ∧
        operand.unwrap.label.kind ∈ Kind.literals ∧ operand.unwrap.label.text source = "0" := by
    cases hfield : t.inField? side with
    | none => simp [hfield, Rule.isZeroLiteral] at h
    | some operand =>
      have hraw : (operand.toNode source).raw? = some "0" := by
        simpa [hfield, Rule.isZeroLiteral] using h
      exact ⟨operand, rfl, literal_of_raw? source hraw⟩
  rw [hoperands] at hzero
  refine ⟨hkind, hoperator', ?_⟩
  rcases hzero with hleft | hright
  · obtain ⟨operand, hoperand⟩ := hside "left" hleft
    exact ⟨"left", operand, by simp, hoperand⟩
  · obtain ⟨operand, hoperand⟩ := hside "right" hright
    exact ⟨"right", operand, by simp, hoperand⟩

/-- A number is never read as a text. -/
theorem numberValue?_ne_text (raw text : String) :
    Literal.numberValue? raw ≠ some (.text text) := by
  unfold Literal.numberValue?
  cases Literal.numberText? raw with
  | none => simp
  | some cs =>
    cases hwhole : Literal.wholeNumber? cs <;> cases hfraction : Literal.fractional? cs <;>
      simp [hwhole, hfraction]

/-- Only the literals of texts have a text as their value. -/
theorem literalValue?_getD_eq_text {kind raw text : String}
    (h : (literalValue? kind raw).getD .null = .text text) :
    kind = "string" ∧ text = Literal.textValue raw := by
  unfold literalValue? at h
  split at h
  · rename_i hkind
    simp only [Option.getD_some, Value.text.injEq] at h
    exact ⟨hkind, h.symm⟩
  · split at h
    · cases hnumber : Literal.numberValue? raw with
      | none => simp [hnumber] at h
      | some v =>
        simp only [hnumber, Option.getD_some] at h
        exact absurd (h ▸ hnumber) (numberValue?_ne_text raw text)
    · repeat' split at h
      all_goals cases h

/-- The text value of a node is the value of a text literal. -/
theorem string_of_value {t : Tree} {text : String} (hbare : t.IsBare)
    (h : (t.toNode source).value = .text text) :
    t.label.kind = "string" ∧ text = Literal.textValue (t.label.text source) := by
  rw [toNode_eq source hbare] at h
  cases hshape : t.label.shape with
  | literal =>
    rw [hshape] at h
    exact literalValue?_getD_eq_text h
  | _ => simp [hshape, Node.value] at h

end ScriptAudit.Concrete.Tree
