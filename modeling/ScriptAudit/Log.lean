/-!
# Log entries

Functions that have something to log return it as a list of entries, in the order in which it
happened. Where an entry is shown, and from which level on, is for the caller to decide.
-/

set_option autoImplicit false

namespace ScriptAudit.Log

/-- How important an entry is. -/
inductive Level where
  | debug
  | info
  | warning
  | error
  deriving DecidableEq, Repr

/-- The rank of a level; a higher rank is more important. -/
def Level.rank : Level → Nat
  | debug => 0
  | info => 1
  | warning => 2
  | error => 3

/-- The name of a level. -/
def Level.name : Level → String
  | debug => "DEBUG"
  | info => "INFO"
  | warning => "WARNING"
  | error => "ERROR"

/-- The part of the library an entry comes from. -/
inductive Channel where
  | grammar
  | loading
  | literal
  | scan
  | fieldAccess
  | sink
  | discovery
  | command
  deriving DecidableEq, Repr

/-- One entry. -/
structure Entry where
  level : Level
  channel : Channel
  text : String
  deriving DecidableEq, Repr

/-- An entry as one line. -/
def Entry.line (entry : Entry) : String := entry.level.name ++ " " ++ entry.text

end ScriptAudit.Log

namespace ScriptAudit

/-- Entries in the order in which they were made. -/
abbrev Log := List Log.Entry

/-- The entries from a level on. -/
def Log.atLeast (level : Log.Level) (log : Log) : Log :=
  log.filter fun entry => level.rank ≤ entry.level.rank

end ScriptAudit
