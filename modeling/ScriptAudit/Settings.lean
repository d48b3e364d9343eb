import ScriptAudit.Rule.Basic
import ScriptAudit.Text.Quoted

/-!
# Settings

What an analysis is run with: its rules, the form of its output, and whether a text report ends
with a summary.
-/

set_option autoImplicit false

namespace ScriptAudit

/-- The forms of output. -/
inductive OutputFormat where
  | text
  | json
  deriving DecidableEq, Repr

namespace OutputFormat

/-- Every form of output. -/
def all : List OutputFormat := [text, json]

/-- The name of a form of output. -/
def name : OutputFormat → String
  | text => "text"
  | json => "json"

/-- The form of output of a name. -/
def ofName? (s : String) : Option OutputFormat := all.find? (·.name = s)

/-- A name is read back. -/
@[simp] theorem ofName?_name (format : OutputFormat) : ofName? format.name = some format := by
  cases format <;> decide

end OutputFormat

/-- The settings of an analysis. -/
structure Settings where
  rules : List Rule := Rule.all
  format : OutputFormat := .text
  showSummary : Bool := true
  deriving DecidableEq, Repr

/-- What can be wrong with settings. -/
inductive SettingsError where
  | unknownFormat (name : String)
  deriving DecidableEq, Repr

/-- The error in words. -/
def SettingsError.message : SettingsError → String
  | unknownFormat name =>
    "Unknown output format " ++ Text.quoted name ++ "; expected one of (" ++
      ", ".intercalate (OutputFormat.all.map fun format => Text.quoted format.name) ++ ")"

/-- Settings with all rules. -/
def Settings.ofNames (format : String) (showSummary : Bool) : Except SettingsError Settings :=
  match OutputFormat.ofName? format with
  | some format => .ok { format, showSummary }
  | none => .error (.unknownFormat format)

end ScriptAudit
