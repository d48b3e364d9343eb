import ScriptAudit.Command.Run
import ScriptAudit.Concrete.Exchange
import ScriptAudit.FileTree.Build
import ScriptAudit.Text.Digit

/-!
# Bundles

A bundle holds what an analysis needs from outside: files and, for scripts among them, the trees a
grammar gave for them. In JSON it is an object whose member `files` lists objects with a `path` and
one of: `link` with a target, `dir` for an empty directory, or the content of a file as text
(`source`) or in hexadecimal (`source_hex`). The tree of a file is its member `cst`, and `has_error`
says whether the grammar had to recover from errors.
-/

set_option autoImplicit false

namespace ScriptAudit.Command

/-- Files, and the parses of contents. -/
structure Bundle where
  entries : List (Path × Entry) := []
  parses : List (Source × Parse) := []

namespace Bundle

/-- The bytes that pairs of hexadecimal digits spell. -/
def bytesOfHex : List Char → List UInt8
  | high :: low :: rest => UInt8.ofNat (Text.ofDigits 16 [high, low]) :: bytesOfHex rest
  | _ => []

/-- The content of a file. -/
def source (v : Json) : Source :=
  match v.textOf? "source", v.textOf? "source_hex" with
  | some s, _ => Text.Utf8.encode s.toList
  | none, some digits => bytesOfHex digits.toList
  | none, none => []

/-- The parse of a file, if its tree is given. -/
def parse? (v : Json) : Option Parse :=
  (v.member? "cst").map fun tree =>
    { tree := Concrete.Tree.ofJson tree, hasErrors := v.flagOf "has_error" }

/-- The entry of a file. -/
def entry (v : Json) : Entry :=
  if v.flagOf "dir" then .directory none []
  else
    match v.textOf? "link" with
    | some target => .link (LinkTarget.ofString target)
    | none => .file none (source v)

/-- Reads a bundle. -/
def ofJson (v : Json) : Bundle :=
  let files := v.elementsOf "files"
  { entries := files.map fun file => (Path.ofString ((file.textOf? "path").getD ""), entry file),
    parses := files.filterMap fun file => (parse? file).map fun parse => (source file, parse) }

/-- What is said of a content whose tree is not given: an empty program. -/
def unparsed : Parse :=
  { tree := .node { Concrete.Label.empty with kind := "program" } [], hasErrors := false }

/-- The grammar of a bundle: it knows the contents whose trees are given. -/
def grammar (bundle : Bundle) : Grammar := fun source => (bundle.parses.lookup source).getD unparsed

/-- The file tree of a bundle. The null device is part of it. -/
def files (bundle : Bundle) (workingDirectory : Path) : FileTree :=
  .ofEntries workingDirectory ((Path.ofString "/dev/null", .special) :: bundle.entries)

end Bundle

end ScriptAudit.Command
