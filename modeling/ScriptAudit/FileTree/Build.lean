import ScriptAudit.FileTree.Canonical

/-!
# Building file trees

A file tree is built from the paths of its entries, one after the other. Directories on the way to
an entry come into being with it, also those that a double dot leaves again. Links that are already
there are followed, so that an entry behind a link is put where the link leads.
-/

set_option autoImplicit false

namespace ScriptAudit.FileTree

/-- Puts an entry at a place. A directory that is already there stays as it is; anything else is
replaced. -/
def insertAt (entry : Entry) : List String → List (String × Entry) → List (String × Entry)
  | [], entries => entries
  | [name], entries =>
    match entry, entryNamed? name entries with
    | .directory _ _, some (.directory _ _) => entries
    | _, _ => entries.filter (·.1 ≠ name) ++ [(name, entry)]
  | name :: rest, entries =>
    let inner :=
      match entryNamed? name entries with
      | some (.directory _ inner) => inner
      | _ => []
    entries.filter (·.1 ≠ name) ++ [(name, .directory none (insertAt entry rest inner))]

/-- The tree with an entry at a place. -/
def put (tree : FileTree) (entry : Entry) (place : Path) : FileTree :=
  { tree with entries := insertAt entry place.segments tree.entries }

/-- The tree with a directory at a path. -/
def makeDirectory (tree : FileTree) (path : Path) : FileTree :=
  tree.put (.directory none []) (tree.canonical path)

/-- The paths of the directories on the way to an entry, the outermost first. -/
def ancestors (path : Path) : List Path :=
  (List.range path.segments.length).map fun n => { path with segments := path.segments.take n }

/-- The place at which an entry is made: a link where its path says, anything else where links at
its path lead. -/
def destination (tree : FileTree) (path : Path) : Entry → Path
  | .link _ =>
    (tree.canonical { path with segments := path.segments.dropLast }).child path.name
  | _ => tree.canonical path

/-- The tree with an entry at a path and all directories on the way to it. -/
def insert (tree : FileTree) (path : Path) (entry : Entry) : FileTree :=
  let tree := (ancestors path).foldl makeDirectory tree
  tree.put entry (tree.destination path entry)

/-- A file tree with entries at the given paths, seen from the working directory. The working
directory itself is always there. -/
def ofEntries (workingDirectory : Path) (entries : List (Path × Entry)) : FileTree :=
  let empty : FileTree := { workingDirectory, entries := [] }
  entries.foldl (fun tree (path, entry) => tree.insert path entry)
    (empty.insert workingDirectory (.directory none []))

end ScriptAudit.FileTree
