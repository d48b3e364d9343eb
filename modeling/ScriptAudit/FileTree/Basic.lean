import ScriptAudit.Path
import ScriptAudit.Source
import ScriptAudit.Text.Quoted

/-!
# File trees

A file system as a value: directories, regular files, links and anything else. A directory may
refuse to be listed, and a file may refuse to be read.

`FileTree.follow` goes from a path to a place in the tree, the way an open file does: it fails at
the first segment that is missing or no directory, and after `maxLinks` links. Names and paths that
are too long are refused.
-/

set_option autoImplicit false

namespace ScriptAudit

/-- Why a file or directory could not be used. -/
inductive FileFault where
  | notFound
  | inputOutput
  | permission
  | notDirectory
  | isDirectory
  | nameTooLong
  | tooManyLinks
  deriving DecidableEq, Repr

namespace FileFault

/-- The number of a fault. -/
def number : FileFault → Nat
  | notFound => 2
  | inputOutput => 5
  | permission => 13
  | notDirectory => 20
  | isDirectory => 21
  | nameTooLong => 36
  | tooManyLinks => 40

/-- The reason in words. -/
def reason : FileFault → String
  | notFound => "No such file or directory"
  | inputOutput => "Input/output error"
  | permission => "Permission denied"
  | notDirectory => "Not a directory"
  | isDirectory => "Is a directory"
  | nameTooLong => "File name too long"
  | tooManyLinks => "Too many levels of symbolic links"

/-- The message of a fault at a path. -/
def message (fault : FileFault) (path : Path) : String :=
  "[Errno " ++ toString fault.number ++ "] " ++ fault.reason ++ ": " ++ Text.quoted path.toText

end FileFault

/-- Where a link leads: to a path, which may have to be a directory. -/
structure LinkTarget where
  path : Path
  directory : Bool := false
  deriving DecidableEq, Repr

namespace LinkTarget

/-- Reads a target. It has to be a directory if its text ends with a slash or a single dot. -/
def ofString (s : String) : LinkTarget :=
  let last := (Path.pieces s.toList).getLast?
  { path := Path.ofString s, directory := last = some [] || last = some ['.'] }

/-- The segments to go. A single dot at the end stays where it is, but only in a directory. -/
def steps (target : LinkTarget) : List String :=
  target.path.segments ++ if target.directory then ["."] else []

/-- The place from which a target is seen by a link in a directory. -/
def start (target : LinkTarget) (place : List String) : List String :=
  if target.path.isAbsolute then [] else place

end LinkTarget

/-- An entry of a directory. -/
inductive Entry where
  | file (refusal : Option FileFault) (bytes : Source)
  | directory (refusal : Option FileFault) (entries : List (String × Entry))
  | link (target : LinkTarget)
  | special
  deriving Repr

/-- Nobody forbids to read an entry. It may still fail to be read for another reason. -/
def Entry.isReadable : Entry → Bool
  | file refusal _ => refusal ≠ some .permission
  | directory refusal _ => refusal ≠ some .permission
  | _ => true

/-- A file tree: the entries of its root and the working directory. -/
structure FileTree where
  entries : List (String × Entry)
  workingDirectory : Path
  deriving Repr

namespace FileTree

/-- The most links that one path may lead through. -/
def maxLinks : Nat := 40

/-- The most bytes a name may have. -/
def maxNameBytes : Nat := 255

/-- The most bytes a path may have. -/
def maxPathBytes : Nat := 4095

/-- The entry of a name in a list of entries. -/
def entryNamed? (name : String) (entries : List (String × Entry)) : Option Entry :=
  (entries.find? (·.1 = name)).map (·.2)

/-- The entry at a place, given by its segments from the root, without following links. -/
def entryAt? (entries : List (String × Entry)) : List String → Option Entry
  | [] => some (.directory none entries)
  | [name] => entryNamed? name entries
  | name :: rest =>
    match entryNamed? name entries with
    | some (.directory _ inner) => entryAt? inner rest
    | _ => none

/-- The place of a path seen from a place, and the number of links that are left. Every link on the
way is followed, the last one included. -/
def follow (tree : FileTree) (links : Nat) (place todo : List String) :
    Except FileFault (Nat × List String) :=
  match todo with
  | [] => .ok (links, place)
  | name :: rest =>
    if name = ".." then follow tree links place.dropLast rest
    else if name = "." then follow tree links place rest
    else if maxNameBytes < name.utf8ByteSize then .error .nameTooLong
    else
      match entryAt? tree.entries (place ++ [name]) with
      | none => .error .notFound
      | some (.link target) =>
        match links with
        | 0 => .error .tooManyLinks
        | links + 1 => follow tree links (target.start place) (target.steps ++ rest)
      | some (.directory _ _) => follow tree links (place ++ [name]) rest
      | some _ => if rest = [] then .ok (links, place ++ [name]) else .error .notDirectory
termination_by (links, todo.length)

/-- The path of a place. -/
def pathOf (place : List String) : Path := { root := .slash, segments := place }

/-- A path seen from the working directory. -/
def absolute (tree : FileTree) (path : Path) : Path := tree.workingDirectory.within path

/-- The entry at a path, with links followed. -/
def entry (tree : FileTree) (path : Path) : Except FileFault Entry := do
  if maxPathBytes < (tree.absolute path).toText.utf8ByteSize then
    .error .nameTooLong
  else
    let (_, place) ← tree.follow maxLinks [] (tree.absolute path).segments
    match entryAt? tree.entries place with
    | some entry => .ok entry
    | none => .error .notFound

/-- The bytes of a file. -/
def read (tree : FileTree) (path : Path) : Except FileFault Source := do
  match ← tree.entry path with
  | .file none bytes => .ok bytes
  | .file (some fault) _ => .error fault
  | .directory _ _ => .error .isDirectory
  | _ => .ok []

end FileTree

end ScriptAudit
