import ScriptAudit.Log
import ScriptAudit.Report.Panel
import ScriptAudit.Report.Sink
import ScriptAudit.Report.Template

/-!
# Reporters

A reporter takes diagnostics one by one, in the order in which they are found. It keeps them, writes
each as one line of JSON, or writes each as text for a console. Between diagnostics a console also
gets a header before each file and a summary at the end.

A diagnostic that cannot be written fails the reporter, and a failed reporter takes no diagnostics
any more. A malformed template, or one that asks for a form that its value cannot be given, fails it
too. A template that asks for a value that does not exist, or that closes a tag it has not opened,
refuses the diagnostic but does not fail the reporter; neither does a header or a summary that
cannot be written.
-/

set_option autoImplicit false

namespace ScriptAudit.Report

/-- How a console is written to. The host answers for objects that the templates may reach. -/
structure Console where
  width : Nat := 80
  colour : Bool := false
  templates : Templates := {}
  host : Template.Host := {}
  workingDirectory : Path := { root := .slash, segments := [] }

/-- What becomes of a diagnostic. -/
inductive Format where
  | collecting
  | jsonLines
  | console (console : Console)

/-- Whether diagnostics are collected can be asked, though consoles cannot be compared. -/
instance (format : Format) : Decidable (format = .collecting) :=
  match format with
  | .collecting => isTrue rfl
  | .jsonLines => isFalse Format.noConfusion
  | .console _ => isFalse Format.noConfusion

/-- How many diagnostics of each severity were taken. -/
structure Counts where
  info : Nat := 0
  warning : Nat := 0
  deriving DecidableEq, Repr

namespace Counts

/-- The number of a severity. -/
def of (counts : Counts) : Severity → Nat
  | .info => counts.info
  | .warning => counts.warning

/-- One more of a severity. -/
def add (counts : Counts) : Severity → Counts
  | .info => { counts with info := counts.info + 1 }
  | .warning => { counts with warning := counts.warning + 1 }

/-- All diagnostics that were taken. -/
def total (counts : Counts) : Nat := counts.info + counts.warning

end Counts

/-- Why a diagnostic has no text: its template cannot be filled, or what it is filled to is no
proper markup. -/
inductive TextFault where
  | template (fault : TemplateFault)
  | markup (fault : MarkupFault)
  deriving DecidableEq, Repr

namespace TextFault

/-- The fault in words. -/
def message : TextFault → String
  | template fault => fault.message
  | markup fault => fault.message

/-- The fault makes the reporter fail. -/
def isFatal : TextFault → Bool
  | template fault => fault.isFatal
  | markup _ => false

end TextFault

/-- Why a diagnostic was not written. -/
inductive WriteFault where
  | sink (fault : SinkFault)
  | text (fault : TextFault)
  deriving DecidableEq, Repr

namespace WriteFault

/-- The fault in words. -/
def message : WriteFault → String
  | sink fault => fault.message
  | text fault => fault.message

end WriteFault

/-- Why a diagnostic was not taken: the reporter had failed before, it fails now, or the diagnostic
has no text. -/
inductive EmitFault where
  | failedBefore
  | failedNow (cause : WriteFault)
  | refused (cause : TextFault)
  deriving DecidableEq, Repr

/-- The fault in words. -/
def EmitFault.message : EmitFault → String
  | failedBefore => "output sink already failed; diagnostic dropped"
  | failedNow cause => "failed to write diagnostic: " ++ cause.message
  | refused cause => cause.message

/-- A reporter. -/
structure Reporter where
  format : Format
  sink : Sink := {}
  held : List Diagnostic := []
  counts : Counts := {}
  failed : Bool := false

/-- The lines of a text with markup as they are written to a console. -/
def Console.shown (console : Console) (markup : String) : String :=
  String.join ((Line.ofMarkup markup).map fun line => line.shown console.colour ++ "\n")

/-- A diagnostic as it is written to a console. -/
def Console.text (console : Console) (d : Diagnostic) : Except TextFault String :=
  match console.templates.render d console.host with
  | .error fault => .error (.template fault)
  | .ok markup =>
    match (Passage.ofMarkup markup).fault with
    | some fault => .error (.markup fault)
    | none => .ok (console.shown markup)

/-- The header of a file. -/
def Console.header (console : Console) (path : Path) : Panel :=
  { border := .plain .blue, box := .blank,
    text := "[bold cyan]" ++ Markup.escape (Path.shownFrom console.workingDirectory path) ++
      "[/bold cyan]" }

/-- The summary of what was reported. Severities that did not occur are not mentioned. -/
def Counts.summary (counts : Counts) : Panel :=
  let part (severity : Severity) (style : String) : List String :=
    if counts.of severity = 0 then []
    else ["[" ++ style ++ "]" ++ toString (counts.of severity) ++ " " ++ severity.name ++ "[/]"]
  { border := if counts.total = 0 then .plain .green else .plain .yellow, box := .rounded,
    title := some "Summary",
    text := " | ".intercalate
      (["[bold]" ++ toString counts.total ++ " finding" ++
          (if counts.total = 1 then "" else "s") ++ "[/bold]"] ++
        part .warning "red" ++ part .info "yellow") }

namespace Reporter

/-- The text of a diagnostic in the sink, if the format writes to it. -/
def rendered (r : Reporter) (d : Diagnostic) : Except TextFault (Option String) :=
  match r.format with
  | .collecting => .ok none
  | .jsonLines => .ok (some (d.toJson.render ++ "\n"))
  | .console console => (console.text d).map some

/-- Writes a text to the sink. -/
def put (r : Reporter) (text : String) : Reporter × Option WriteFault :=
  match r.sink.write text with
  | .ok sink => ({ r with sink }, none)
  | .error fault => (r, some (.sink fault))

/-- Writes a diagnostic, or keeps it. Improper markup is found when the console has begun to write,
so it takes an empty write, and a sink that does not take that write is the graver fault. -/
def write (r : Reporter) (d : Diagnostic) : Reporter × Option WriteFault :=
  match r.rendered d with
  | .ok none => ({ r with held := r.held ++ [d] }, none)
  | .ok (some text) => r.put text
  | .error (.template fault) => (r, some (.text (.template fault)))
  | .error (.markup fault) =>
    match r.put "" with
    | (r, none) => (r, some (.text (.markup fault)))
    | (r, some fault) => (r, some fault)

/-- The log entry for a write that fails the reporter. -/
def failureEntry (fault : WriteFault) : Log.Entry :=
  { level := .debug, channel := .sink, text := "Sink write failed: " ++ fault.message }

/-- A reporter that fails now. -/
def fail (r : Reporter) (fault : WriteFault) : Reporter × Log × Option EmitFault :=
  ({ r with failed := true }, [failureEntry fault], some (.failedNow fault))

/-- Takes a diagnostic. -/
def emit (r : Reporter) (d : Diagnostic) : Reporter × Log × Option EmitFault :=
  if r.failed then (r, [], some .failedBefore)
  else
    match r.write d with
    | (r, none) => ({ r with counts := r.counts.add d.severity }, [], none)
    | (r, some (.sink fault)) => r.fail (.sink fault)
    | (r, some (.text fault)) =>
      if fault.isFatal then r.fail (.text fault) else (r, [], some (.refused fault))

/-- Writes an empty line and a panel, if the reporter writes to a console. -/
def showPanel (r : Reporter) (panel : Console → Panel) : Reporter × Option SinkFault :=
  match r.format with
  | .console console =>
    match r.sink.writeAll ["\n", (panel console).shown console.width console.colour] with
    | (.ok (), sink) => ({ r with sink }, none)
    | (.error fault, sink) => ({ r with sink }, some fault)
  | _ => (r, none)

/-- The header before the diagnostics of a file. -/
def beginFile (r : Reporter) (path : Path) : Reporter × Option SinkFault :=
  r.showPanel fun console => console.header path

/-- The summary after all files. -/
def summarize (r : Reporter) : Reporter × Option SinkFault :=
  r.showPanel fun _ => r.counts.summary

end Reporter

end ScriptAudit.Report
