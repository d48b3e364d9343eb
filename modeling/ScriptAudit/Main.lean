import ScriptAudit.Command.Bundle
import ScriptAudit.Json.Reader

/-!
# The command line

The program takes its command from its arguments and its files, as one line of JSON, from standard
input. The report goes to standard output, the log to standard error.
-/

set_option autoImplicit false

namespace ScriptAudit

/-- The world of a bundle. -/
def worldOf (v : Json) : Command.World :=
  let bundle := Command.Bundle.ofJson v
  { files := bundle.files (Path.ofString ((v.textOf? "directory").getD "/")),
    grammar := bundle.grammar,
    width := ((v.member? "width").bind Json.nat?).getD 80 }

/-- Writes an outcome. -/
def writeOutcome (outcome : Command.Outcome) : IO UInt32 := do
  IO.print outcome.sink.text
  for entry in outcome.log do
    IO.eprintln entry.line
  if let .usage e := outcome.exit then
    IO.eprintln e.message
  return UInt32.ofNat outcome.exit.code

end ScriptAudit

/-- Runs the command in the arguments on the files in standard input. -/
def main (args : List String) : IO UInt32 := do
  let line ← (← IO.getStdin).getLine
  match ScriptAudit.Json.read? line with
  | some v => ScriptAudit.writeOutcome (ScriptAudit.Command.run (ScriptAudit.worldOf v) args)
  | none =>
    IO.eprintln "standard input holds no files"
    return 2
