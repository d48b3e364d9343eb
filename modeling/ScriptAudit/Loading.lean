import ScriptAudit.FileTree.Basic
import ScriptAudit.Log
import ScriptAudit.Node.Adapt
import ScriptAudit.Node.Walk

/-!
# Loading files

A grammar turns bytes into a concrete tree; it always gives a tree, and says whether it had to
recover from errors. Loading a file reads it, applies the grammar and adapts the tree. A file that
cannot be read is logged and left out.
-/

set_option autoImplicit false

namespace ScriptAudit

/-- What a grammar gives for the bytes of a file. -/
structure Parse where
  tree : Concrete.Tree
  hasErrors : Bool
  deriving Repr

/-- A grammar, taken as a function of the bytes. -/
abbrev Grammar := Source → Parse

/-- The log of applying a grammar. -/
def Parse.log (parse : Parse) : Log :=
  if parse.hasErrors then
    [{ level := .warning, channel := .grammar,
       text := "Parse completed with errors: root=" ++ parse.tree.label.kind }]
  else
    [{ level := .debug, channel := .grammar,
       text := "Parse succeeded: root=" ++ parse.tree.label.kind }]

/-- A loaded file. -/
structure Context where
  path : Path
  source : Source
  tree : Node
  hasErrors : Bool

/-- The log entry for a numeric literal that cannot be read. -/
def unreadableNumber (raw : String) : Log.Entry :=
  { level := .debug, channel := .literal, text := "Unreadable numeric literal: " ++ raw }

/-- The text of a span of a loaded file. -/
def Context.spanText (context : Context) (n : Node) : String :=
  context.source.text n.head.start n.head.stop

namespace Context

/-- A loaded file from its bytes and their concrete tree. -/
def ofParse (path : Path) (source : Source) (parse : Parse) : Context :=
  { path, source, tree := parse.tree.toNode source, hasErrors := parse.hasErrors }

/-- The log of loading a file whose bytes are at hand. -/
def loadingLog (path : Path) (source : Source) (parse : Parse) : Log :=
  let recovered : Log :=
    if parse.hasErrors then
      [{ level := .warning, channel := .loading,
         text := "File " ++ path.toText ++ " parsed with syntax errors; tree may be incomplete" }]
    else []
  let census := (parse.tree.toNode source).census
  parse.log ++ recovered ++ (parse.tree.unreadable source).map unreadableNumber ++
    [{ level := .info, channel := .loading,
       text := "Parsed " ++ path.toText ++ ": " ++ toString census.nodes ++ " nodes, " ++
         toString census.functions ++ " function(s)" ++
         (if parse.hasErrors then " (with parse errors)" else "") }]

/-- Loads a file whose bytes are at hand. -/
def ofSource (grammar : Grammar) (path : Path) (source : Source) : Context × Log :=
  (ofParse path source (grammar source), loadingLog path source (grammar source))

end Context

/-- The log entry for a file that cannot be read. -/
def unreadableFile (channel : Log.Channel) (path : Path) (fault : FileFault) : Log.Entry :=
  { level := .error, channel,
    text := "Failed to read file " ++ path.toText ++ ": " ++ fault.message path }

namespace FileTree

/-- Loads a file. -/
def load (tree : FileTree) (grammar : Grammar) (path : Path) : Option Context × Log :=
  match tree.read path with
  | .error fault => (none, [unreadableFile .loading path fault])
  | .ok source =>
    let (context, log) := Context.ofSource grammar path source
    (some context, log)

/-- Loads files in order and leaves out those that cannot be read. -/
def loadAll (tree : FileTree) (grammar : Grammar) (paths : List Path) : List Context × Log :=
  let loaded := paths.map (tree.load grammar)
  (loaded.filterMap (·.1), loaded.flatMap (·.2))

/-- Applies a grammar to a file, without adapting the tree. -/
def parse (tree : FileTree) (grammar : Grammar) (path : Path) : Option Parse × Log :=
  match tree.read path with
  | .error fault => (none, [unreadableFile .grammar path fault])
  | .ok source =>
    let parse := grammar source
    (some parse, parse.log ++
      [{ level := .info, channel := .grammar,
         text := "Parsed file " ++ path.toText ++ ": success=" ++
           (if parse.hasErrors then "False" else "True") }])

end FileTree

end ScriptAudit
