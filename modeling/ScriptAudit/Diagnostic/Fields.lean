import ScriptAudit.Diagnostic.Whole

/-!
# Diagnostics from fields

A diagnostic can be made from a JSON object. Every field is checked and all faults are reported, in
the order of the fields; members that are no fields are ignored.
-/

set_option autoImplicit false

namespace ScriptAudit.Diagnostic

/-- A text. -/
def text : Json → Except FieldFault String
  | .string s => .ok s
  | _ => .error .notText

/-- A severity by its exact name. -/
def severityOf : Json → Except FieldFault Severity
  | .string s =>
    match Severity.ofName? s with
    | some severity => .ok severity
    | none => .error .notSeverity
  | _ => .error .notSeverity

/-- A position. -/
def positionOf (v : Json) : Except FieldFault { n : Nat // 1 ≤ n } := integer v >>= position

/-- A path. -/
def pathOf : Json → Except FieldFault Path
  | .string s => .ok (Path.ofString s)
  | _ => .error .notPath

/-- A member that has to be there. -/
def required {α : Type} (read : Json → Except FieldFault α) : Option Json → Except FieldFault α
  | some v => read v
  | none => .error .missing

/-- A member that may be absent or null. -/
def optional {α : Type} (read : Json → Except FieldFault α) :
    Option Json → Except FieldFault (Option α)
  | none => .ok none
  | some .null => .ok none
  | some v => (read v).map some

/-- The fault of a field, if it has one. -/
def faultOf {α : Type} (field : Field) : Except FieldFault α → Faults
  | .ok _ => []
  | .error fault => [(field, fault)]

/-- A diagnostic from a JSON object, or all the faults of its fields. -/
def ofFields (fields : Json) : Except Faults Diagnostic :=
  let member (field : Field) := fields.member? field.name
  let ruleId := required text (member .ruleId)
  let severity := required severityOf (member .severity)
  let message := required text (member .message)
  let line := required positionOf (member .line)
  let column := optional positionOf (member .column)
  let path := optional pathOf (member .path)
  match ruleId, severity, message, line, column, path with
  | .ok ruleId, .ok severity, .ok message, .ok ⟨l, hl⟩, .ok none, .ok path =>
    .ok { ruleId, severity, message, line := l, column := none, path, line_pos := hl,
          column_pos := absent_pos }
  | .ok ruleId, .ok severity, .ok message, .ok ⟨l, hl⟩, .ok (some ⟨c, hc⟩), .ok path =>
    .ok { ruleId, severity, message, line := l, column := some c, path, line_pos := hl,
          column_pos := present_pos hc }
  | _, _, _, _, _, _ =>
    .error (faultOf .ruleId ruleId ++ faultOf .severity severity ++ faultOf .message message ++
      faultOf .line line ++ faultOf .column column ++ faultOf .path path)

end ScriptAudit.Diagnostic
