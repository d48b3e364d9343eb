import ScriptAudit.Command.Arguments
import ScriptAudit.FileTree.Discover
import ScriptAudit.Scan
import ScriptAudit.Settings

/-!
# Running the command

The command analyses a script file, or all script files below a directory. Files are analysed one
by one; one that cannot be read is logged and left out. If there are several, each gets a header. A
text report ends with a summary.

The run stops at the first output that fails. That failure is logged, unless a header or a summary
met a closed sink.
-/

set_option autoImplicit false

namespace ScriptAudit.Command

open ScriptAudit.Report

/-- What the command works on. -/
structure World where
  files : FileTree
  grammar : Grammar
  width : Nat := 80
  sink : Sink := {}

/-- Why a run stopped. -/
inductive Stop where
  | scan (fault : Scan.Fault)
  | panel (fault : SinkFault)
  deriving DecidableEq, Repr

/-- The output failure that a stop is taken for, in words. A stop that is none is not handled. -/
def Stop.outputFailure? : Stop → Option String
  | scan (.emission (.refused _)) => none
  | scan (.emission fault) => some fault.message
  | scan (.placement _) => none
  | panel .noSpace => some SinkFault.noSpace.message
  | panel .closed => none

/-- How a run ended. -/
inductive Exit where
  | completed
  | usage (error : UsageError)
  | outputFailed
  | unhandled (cause : Stop)
  deriving DecidableEq, Repr

/-- The exit code of a run. -/
def Exit.code : Exit → Nat
  | completed => 0
  | usage _ => 2
  | outputFailed => 2
  | unhandled _ => 1

/-- What a run leaves behind. -/
structure Outcome where
  exit : Exit
  sink : Sink
  log : Log

/-- What a run has done so far. -/
structure Progress where
  reporter : Reporter
  log : Log := []

/-- Analyses one file, behind a header if asked for one. -/
def analyzeFile (world : World) (registry : Registry) (header : Bool) (p : Progress) (path : Path) :
    Progress × Option Stop :=
  match world.files.load world.grammar path with
  | (none, log) => ({ p with log := p.log ++ log }, none)
  | (some context, log) =>
    let p := { p with log := p.log ++ log }
    match (if header then p.reporter.beginFile path else (p.reporter, none)) with
    | (reporter, some fault) => ({ p with reporter }, some (.panel fault))
    | (reporter, none) =>
      match Scan.runFile registry context reporter with
      | (s, fault) => ({ reporter := s.reporter, log := p.log ++ s.log }, fault.map .scan)

/-- Analyses files in order, and ends with a summary if asked for one. -/
def analyzeFiles (world : World) (settings : Settings) (reporter : Reporter) (paths : List Path) :
    Progress × Option Stop :=
  let registry := Registry.ofRules settings.rules
  match untilFault (analyzeFile world registry (1 < paths.length)) { reporter } paths with
  | (p, some stop) => (p, some stop)
  | (p, none) =>
    if settings.format = .text ∧ settings.showSummary then
      match p.reporter.summarize with
      | (reporter, fault) => ({ p with reporter }, fault.map .panel)
    else (p, none)

/-- The reporter for a form of output. -/
def reporterFor (world : World) : OutputFormat → Reporter
  | .json => { format := .jsonLines, sink := world.sink }
  | .text =>
    { format := .console
        { width := world.width, workingDirectory := world.files.workingDirectory },
      sink := world.sink }

/-- The log entry for a failure of the output. -/
def failureEntry (message : String) : Log.Entry :=
  { level := .error, channel := .command, text := "Output failed, scan aborted: " ++ message }

/-- The outcome of a run that got as far as analysing files. -/
def outcome (p : Progress) : Option Stop → Outcome
  | none => { exit := .completed, sink := p.reporter.sink, log := p.log }
  | some stop =>
    match stop.outputFailure? with
    | some message =>
      { exit := .outputFailed, sink := p.reporter.sink, log := p.log ++ [failureEntry message] }
    | none => { exit := .unhandled stop, sink := p.reporter.sink, log := p.log }

/-- The script files of a target. A target that must not be read is refused, before anything else is
asked of it. -/
def collect (files : FileTree) (target : Path) : Except UsageError (List Path) × Log :=
  match files.entry target with
  | .error _ => (.error .targetMissing, [])
  | .ok entry =>
    if !entry.isReadable then (.error .targetUnreadable, [])
    else
      match entry with
      | .file _ _ => if target.isScript then (.ok [target], []) else (.error .targetNotScript, [])
      | .directory _ _ =>
        match files.discover {} target with
        | (.error _, log) => (.error .targetUnusable, log)
        | (.ok paths, log) =>
          (.ok paths,
            log ++
              if paths = [] then
                [{ level := .warning, channel := .command,
                   text := "No JavaScript files found under " ++ target.toText }]
              else [])
      | _ => (.error .targetUnusable, [])

/-- The outcome of a command that was not understood. -/
def refused (world : World) (e : UsageError) : Outcome :=
  { exit := .usage e, sink := world.sink, log := [] }

/-- Analyses a target with the given settings. -/
def analyzeTarget (world : World) (settings : Settings) (target : Path) : Outcome :=
  match collect world.files target with
  | (.error e, _) => refused world e
  | (.ok paths, log) =>
    let (p, stop) := analyzeFiles world settings (reporterFor world settings.format) paths
    outcome { p with log := log ++ p.log } stop

/-- The least level that is logged. -/
def logLevel (verbose : Bool) : Log.Level := if verbose then .debug else .warning

/-- Carries out a command that was read. -/
def perform (world : World) (a : Arguments) : Outcome :=
  match a.target with
  | .error e => refused world e
  | .ok target =>
    match OutputFormat.ofName? a.format with
    | none => refused world (.unknownFormat a.format)
    | some format =>
      let o := analyzeTarget world { format, showSummary := a.summary }
        (world.files.canonical (Path.ofString target))
      { o with log := o.log.atLeast (logLevel a.verbose) }

/-- Runs a command line. -/
def run (world : World) (args : List String) : Outcome :=
  match read args with
  | .error e => refused world e
  | .ok a => perform world a

end ScriptAudit.Command
