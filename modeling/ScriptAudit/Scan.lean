import ScriptAudit.Loading
import ScriptAudit.Repeat
import ScriptAudit.Report.Reporter
import ScriptAudit.Rule.Registry

/-!
# Scanning a tree

A scan walks a tree once. Every node is handed to the rules that are registered for its kind, and
what a rule finds is reported at once, before the next rule looks at the node. The scan stops at the
first diagnostic that is not taken.
-/

set_option autoImplicit false

namespace ScriptAudit.Scan

open ScriptAudit.Report

/-- Why a scan stopped: a diagnostic was not taken, or a node does not stand at a proper place. -/
inductive Fault where
  | emission (fault : EmitFault)
  | placement (faults : Diagnostic.Faults)
  deriving DecidableEq, Repr

/-- What a scan has done so far. -/
structure State where
  reporter : Reporter
  log : Log := []
  visited : Nat := 0
  emitted : Nat := 0

/-- A diagnostic in the file that is scanned. -/
def located (path : Option Path) (d : Diagnostic) : Diagnostic :=
  match path with
  | some path => d.inFile path
  | none => d

/-- Reports one diagnostic. -/
def report (s : State) (d : Diagnostic) : State × Option Fault :=
  match s.reporter.emit d with
  | (reporter, log, none) =>
    ({ s with reporter, log := s.log ++ log, emitted := s.emitted + 1 }, none)
  | (reporter, log, some fault) => ({ s with reporter, log := s.log ++ log }, some (.emission fault))

/-- The tree as a rule gets to see it. -/
def visibleTree (rule : Rule) (root : Node) : Option Node :=
  if rule.needsTree then some root else none

/-- Applies one rule to a node. -/
def apply (root : Node) (path : Option Path) (n : Node) (s : State) (rule : Rule) :
    State × Option Fault :=
  let s := { s with log := s.log ++ rule.notes (visibleTree rule root) n }
  match rule.check (visibleTree rule root) n with
  | .error faults => (s, some (.placement faults))
  | .ok found => untilFault report s (found.map (located path))

/-- Applies the rules for its kind to a node. -/
def visit (registry : Registry) (root : Node) (path : Option Path) (s : State) (n : Node) :
    State × Option Fault :=
  untilFault (apply root path n) { s with visited := s.visited + 1 } (registry.rulesFor n.kind)

/-- The log entry at the end of a scan. -/
def completion (path : Option Path) (s : State) : Log.Entry :=
  { level := .debug, channel := .scan,
    text := "Scan complete" ++ (path.map fun p => " for " ++ p.toText).getD "" ++ ": " ++
      toString s.visited ++ " nodes visited, " ++ toString s.emitted ++ " diagnostic(s)" }

/-- Scans a tree. -/
def run (registry : Registry) (root : Node) (path : Option Path) (reporter : Reporter) :
    State × Option Fault :=
  match untilFault (visit registry root path) { reporter } root.walk with
  | (s, some fault) => (s, some fault)
  | (s, none) => ({ s with log := s.log ++ [completion path s] }, none)

/-- Scans a loaded file. -/
def runFile (registry : Registry) (context : Context) (reporter : Reporter) :
    State × Option Fault :=
  run registry context.tree (some context.path) reporter

end ScriptAudit.Scan
