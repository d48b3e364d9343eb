import ScriptAudit.Json.Writer
import ScriptAudit.Path

/-!
# Diagnostics

A diagnostic is one finding of a rule at one place. Lines and columns count from one, and the type
says so. `Diagnostic.toJson` fixes the fields and their order in JSON output.
-/

set_option autoImplicit false

namespace ScriptAudit

/-- How loudly a finding is presented. -/
inductive Severity where
  | info
  | warning
  deriving DecidableEq, Repr

/-- The name of a severity. -/
def Severity.name : Severity → String
  | info => "info"
  | warning => "warning"

/-- The severity of a name. -/
def Severity.ofName? (s : String) : Option Severity :=
  [info, warning].find? (·.name = s)

/-- One finding of a rule. -/
structure Diagnostic where
  ruleId : String
  severity : Severity
  message : String
  line : Nat
  column : Option Nat
  path : Option Path := none
  line_pos : 1 ≤ line
  column_pos : ∀ c ∈ column, 1 ≤ c
  deriving DecidableEq

namespace Diagnostic

/-- The fields of a diagnostic. -/
inductive Field where
  | ruleId
  | severity
  | message
  | line
  | column
  | path
  deriving DecidableEq, Repr

/-- The name of a field in JSON. -/
def Field.name : Field → String
  | ruleId => "rule_id"
  | severity => "severity"
  | message => "message"
  | line => "line"
  | column => "column"
  | path => "path"

/-- What can be wrong with a field. -/
inductive FieldFault where
  | missing
  | notText
  | notSeverity
  | notInteger
  | unreadableInteger
  | longInteger
  | fractional
  | infinite
  | tooSmall
  | notPath
  deriving DecidableEq, Repr

/-- The faults of a diagnostic, in the order of its fields. -/
abbrev Faults := List (Field × FieldFault)

/-- A position counts from one. -/
def position (i : Int) : Except FieldFault { n : Nat // 1 ≤ n } :=
  if h : 1 ≤ i then .ok ⟨i.toNat, by omega⟩ else .error .tooSmall

/-- An absent column counts from one. -/
theorem absent_pos : ∀ c ∈ (none : Option Nat), 1 ≤ c := fun _ h => nomatch h

/-- A column that is there counts from one if its number does. -/
theorem present_pos {c : Nat} (h : 1 ≤ c) : ∀ d ∈ some c, 1 ≤ d := fun _ hd =>
  Option.some.inj hd ▸ h

/-- A diagnostic at a line and a column, if both count from one. -/
def at? (ruleId : String) (severity : Severity) (message : String) (line column : Int) :
    Except Faults Diagnostic :=
  match position line, position column with
  | .ok ⟨l, hl⟩, .ok ⟨c, hc⟩ =>
    .ok { ruleId, severity, message, line := l, column := some c, line_pos := hl,
          column_pos := present_pos hc }
  | .error e, .ok _ => .error [(.line, e)]
  | .ok _, .error e => .error [(.column, e)]
  | .error e, .error e' => .error [(.line, e), (.column, e')]

/-- The same finding in a file. -/
def inFile (d : Diagnostic) (path : Path) : Diagnostic := { d with path := some path }

/-- The fields of a diagnostic as a JSON object. -/
def toJson (d : Diagnostic) : Json :=
  .object
    [(Field.ruleId.name, .string d.ruleId),
      (Field.severity.name, .string d.severity.name),
      (Field.message.name, .string d.message),
      (Field.line.name, .nat d.line),
      (Field.column.name, Json.ofOption Json.nat d.column),
      (Field.path.name, Json.ofOption (fun p : Path => .string p.toText) d.path)]

end Diagnostic

end ScriptAudit
