/-!
# Sinks

A sink takes texts, one write at a time, and may stop taking them. What it has taken is kept write
by write; a write that fails leaves it as it was.
-/

set_option autoImplicit false

namespace ScriptAudit.Report

/-- Why a sink takes no more. -/
inductive SinkFault where
  | noSpace
  | closed
  deriving DecidableEq, Repr

/-- The fault in words. -/
def SinkFault.message : SinkFault → String
  | noSpace => "No space left on device"
  | closed => "I/O operation on closed file"

/-- A sink: what was written, how many more writes it takes if there is a limit, and the fault it
reports when the limit is reached. -/
structure Sink where
  writes : List String := []
  room : Option Nat := none
  fault : SinkFault := .noSpace
  deriving DecidableEq, Repr

namespace Sink

/-- One write. -/
def write (sink : Sink) (s : String) : Except SinkFault Sink :=
  match sink.room with
  | none => .ok { sink with writes := sink.writes ++ [s] }
  | some 0 => .error sink.fault
  | some (n + 1) => .ok { sink with writes := sink.writes ++ [s], room := some n }

/-- Writes in order until one fails; the writes before it stay. -/
def writeAll (sink : Sink) : List String → Except SinkFault Unit × Sink
  | [] => (.ok (), sink)
  | s :: rest =>
    match sink.write s with
    | .ok sink => sink.writeAll rest
    | .error fault => (.error fault, sink)

/-- All text written so far. -/
def text (sink : Sink) : String := String.join sink.writes

end Sink

end ScriptAudit.Report
