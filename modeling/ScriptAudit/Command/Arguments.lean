/-!
# Command arguments

The arguments name a command and, for it, a target and options in any order. A long option may carry
its value behind an equals sign; short options may be joined, and what follows an option that takes
a value is that value. Behind two dashes everything is a target. Where an option is repeated, the
last one counts.
-/

set_option autoImplicit false

namespace ScriptAudit.Command

/-- Why a command cannot be carried out. -/
inductive UsageError where
  | missingCommand
  | unknownCommand (name : String)
  | unknownOption (name : String)
  | valueMissing
  | valueUnexpected (name : String)
  | missingTarget
  | extraTarget (name : String)
  | unknownFormat (name : String)
  | targetMissing
  | targetUnreadable
  | targetNotScript
  | targetUnusable
  deriving DecidableEq, Repr

/-- The error in words. -/
def UsageError.message : UsageError → String
  | missingCommand => "missing command"
  | unknownCommand name => "no such command: " ++ name
  | unknownOption name => "no such option: " ++ name
  | valueMissing => "option requires a value"
  | valueUnexpected name => "option takes no value: " ++ name
  | missingTarget => "missing target"
  | extraTarget name => "unexpected extra argument: " ++ name
  | unknownFormat name => "unknown output format: " ++ name
  | targetMissing => "target does not exist"
  | targetUnreadable => "target is not readable"
  | targetNotScript => "target file must be a script"
  | targetUnusable => "target is neither a file nor a directory"

/-- One option that was given. -/
inductive Setting where
  | format (name : String)
  | summary (on : Bool)
  | verbose
  deriving DecidableEq, Repr

/-- The arguments of the analysis. -/
structure Arguments where
  targets : List String := []
  format : String := "text"
  summary : Bool := true
  verbose : Bool := false
  deriving DecidableEq, Repr

namespace Arguments

/-- Carries out one option. -/
def set (a : Arguments) : Setting → Arguments
  | .format name => { a with format := name }
  | .summary on => { a with summary := on }
  | .verbose => { a with verbose := true }

/-- Adds targets. -/
def addTargets (a : Arguments) (names : List String) : Arguments :=
  { a with targets := a.targets ++ names }

end Arguments

/-- Options, and whether the last of them waits for its value, the name of a format. -/
structure Given where
  settings : List Setting
  awaitsFormat : Bool := false
  deriving DecidableEq, Repr

/-- A long option: its name, and its value if one stands behind an equals sign. -/
def longOption (name : String) (value : Option String) : Except UsageError Given :=
  let flag (setting : Setting) : Except UsageError Given :=
    match value with
    | none => .ok { settings := [setting] }
    | some _ => .error (.valueUnexpected name)
  match name with
  | "--format" =>
    match value with
    | some value => .ok { settings := [.format value] }
    | none => .ok { settings := [], awaitsFormat := true }
  | "--summary" => flag (.summary true)
  | "--no-summary" => flag (.summary false)
  | "--verbose" => flag .verbose
  | _ => .error (.unknownOption name)

/-- Short options that are joined. -/
def shortOptions : List Char → Except UsageError Given
  | [] => .ok { settings := [] }
  | ['f'] => .ok { settings := [], awaitsFormat := true }
  | 'f' :: value => .ok { settings := [.format (String.ofList value)] }
  | 'v' :: rest =>
    (shortOptions rest).map fun given => { given with settings := .verbose :: given.settings }
  | c :: _ => .error (.unknownOption (String.ofList ['-', c]))

/-- An argument that is an option. A single dash is not. -/
def isOption (arg : String) : Bool :=
  match arg.toList with
  | '-' :: _ :: _ => true
  | _ => false

/-- The options in one argument. -/
def options (arg : String) : Except UsageError Given :=
  match arg.toList with
  | '-' :: '-' :: rest =>
    let name := String.ofList ('-' :: '-' :: rest.takeWhile (· ≠ '='))
    longOption name
      (match rest.dropWhile (· ≠ '=') with
      | _ :: value => some (String.ofList value)
      | [] => none)
  | '-' :: rest => shortOptions rest
  | _ => .ok { settings := [] }

/-- Reads the arguments of the analysis. -/
def readFrom (a : Arguments) : List String → Except UsageError Arguments
  | [] => .ok a
  | arg :: rest =>
    if arg = "--" then .ok (a.addTargets rest)
    else if isOption arg then
      match options arg with
      | .error e => .error e
      | .ok given =>
        if given.awaitsFormat then
          match rest with
          | [] => .error .valueMissing
          | value :: rest =>
            readFrom ((given.settings.foldl Arguments.set a).set (.format value)) rest
        else readFrom (given.settings.foldl Arguments.set a) rest
    else readFrom (a.addTargets [arg]) rest

/-- The name of the command. -/
def analyze : String := "analyze"

/-- Reads a command name and what follows it. -/
def readCommand : List String → Except UsageError Arguments
  | [] => .error .missingCommand
  | name :: rest => if name = analyze then readFrom {} rest else .error (.unknownCommand name)

/-- Reads a command line. There are no options before the command. -/
def read (args : List String) : Except UsageError Arguments :=
  match args with
  | [] => .error .missingCommand
  | arg :: rest =>
    if arg = "--" then readCommand rest
    else if isOption arg then .error (.unknownOption arg)
    else readCommand (arg :: rest)

/-- The one target there has to be. -/
def Arguments.target (a : Arguments) : Except UsageError String :=
  match a.targets with
  | [] => .error .missingTarget
  | [target] => .ok target
  | _ :: extra :: _ => .error (.extraTarget extra)

end ScriptAudit.Command
