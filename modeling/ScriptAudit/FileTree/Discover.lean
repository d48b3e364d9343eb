import ScriptAudit.FileTree.Canonical
import ScriptAudit.Log

/-!
# Finding script files

Below a root directory every directory is entered that is not ignored by its name. A regular file is
kept if it has the suffix of a script, is not minified, and passes the filter. Links are skipped
unless they are to be followed; then a link counts as what it leads to.

The files are returned in the order of their paths, so the order in which directories list their
entries does not matter.
-/

set_option autoImplicit false

namespace ScriptAudit

/-- Directories that hold no sources of the project itself. -/
def defaultIgnored : List String :=
  ["node_modules", "bower_components", "jspm_packages", "vendor", "third_party", "build", "dist",
    "out", "coverage", ".next", ".nuxt", ".git", ".svn", ".hg", ".vscode", ".idea", ".cache",
    ".parcel-cache", "__pycache__"]

/-- What is looked for. -/
structure DiscoverOptions where
  ignored : List String := defaultIgnored
  followLinks : Bool := false
  keepMinified : Bool := false
  filter : Option (Path → Bool) := none

/-- A directory that is not entered because of its name. -/
def Path.isIgnored (ignored : List String) (p : Path) : Bool := ignored.contains p.name

/-- Files found so far, and what there was to log. -/
structure Found where
  files : List Path := []
  log : Log := []

namespace Found

/-- First one finding, then another. -/
def append (a b : Found) : Found := { files := a.files ++ b.files, log := a.log ++ b.log }

/-- Nothing found but an entry to log. -/
def note (level : Log.Level) (text : String) : Found :=
  { log := [{ level, channel := .discovery, text }] }

end Found

namespace FileTree

/-- A regular file: kept, or dropped with a reason unless it is no script at all. -/
def considerFile (options : DiscoverOptions) (path : Path) : Found :=
  if !path.isScript then {}
  else if path.isMinified && !options.keepMinified then
    .note .debug ("Skipping minified file: " ++ path.toText)
  else if options.filter.any fun keep => !keep path then
    .note .debug ("Filtered out by custom filter: " ++ path.toText)
  else
    { Found.note .debug ("Found source file: " ++ path.toText) with files := [path] }

/-- What a directory yields: its content, or a warning if it refuses to be listed. -/
def listed (path : Path) (refusal : Option FileFault) (content : Found) : Found :=
  match refusal with
  | none => content
  | some .permission =>
    .note .warning ("Permission denied accessing directory " ++ path.toText ++ ": " ++
      FileFault.permission.message path)
  | some fault =>
    .note .warning ("Error accessing directory " ++ path.toText ++ ": " ++ fault.message path)

/-- What a directory below the root yields. -/
def considerDirectory (options : DiscoverOptions) (path : Path) (refusal : Option FileFault)
    (content : Found) : Found :=
  if path.isIgnored options.ignored then .note .debug ("Ignoring directory: " ++ path.toText)
  else listed path refusal content

/-- Goes through the entries of a directory that lies at a place and is shown as a path. The number
of links says how many more may be followed on the way down. -/
def collect (tree : FileTree) (options : DiscoverOptions) (links : Nat) (place : List String)
    (shown : Path) (entries : List (String × Entry)) : Found :=
  match entries with
  | [] => {}
  | (name, .file _ _) :: rest =>
    (considerFile options (shown.child name)).append
      (collect tree options links place shown rest)
  | (name, .directory refusal inner) :: rest =>
    (considerDirectory options (shown.child name) refusal
      (collect tree options links (place ++ [name]) (shown.child name) inner)).append
      (collect tree options links place shown rest)
  | (_, .special) :: rest => collect tree options links place shown rest
  | (name, .link _) :: rest =>
    let here : Found :=
      if !options.followLinks then
        .note .debug ("Skipping symlink: " ++ (shown.child name).toText)
      else
        match tree.follow links place [name] with
        | .error _ => {}
        | .ok (left, target) =>
          if left < links then
            match entryAt? tree.entries target with
            | some (.file _ _) => considerFile options (shown.child name)
            | some (.directory refusal inner) =>
              considerDirectory options (shown.child name) refusal
                (collect tree options left target (shown.child name) inner)
            | _ => {}
          else {}
    here.append (collect tree options links place shown rest)
termination_by (links, sizeOf entries)

/-- Why there is nothing to search. -/
inductive DiscoverError where
  | missing (root : Path)
  | notDirectory (root : Path)
  | linkLoop (root : Path)
  | tooLong (root : Path)
  deriving DecidableEq, Repr

/-- The message of an error. -/
def DiscoverError.message : DiscoverError → String
  | missing root => "Root directory does not exist: " ++ root.toText
  | notDirectory root => "Root path is not a directory: " ++ root.toText
  | linkLoop root => "Symlink loop from " ++ Text.quoted root.toText
  | tooLong root => FileFault.nameTooLong.message root

/-- The script files below a directory, in the order of their paths. A root that cannot be searched
is logged, unless it leads through too many links or is too long. -/
def discover (tree : FileTree) (options : DiscoverOptions) (path : Path) :
    Except DiscoverError (List Path) × Log :=
  let root := tree.canonical path
  let refuse (e : DiscoverError) : Except DiscoverError (List Path) × Log :=
    (.error e, (Found.note .error e.message).log)
  match tree.entry root with
  | .error .tooManyLinks => (.error (.linkLoop root), [])
  | .error .nameTooLong => (.error (.tooLong root), [])
  | .error _ => refuse (.missing root)
  | .ok (.directory refusal entries) =>
    let found :=
      listed root refusal (tree.collect options maxLinks root.segments root entries)
    let files := found.files.mergeSort Path.le
    (.ok files,
      (Found.note .info ("Starting traversal from: " ++ root.toText)).log ++ found.log ++
        (Found.note .info ("Traversal complete: found " ++ toString files.length ++
          " source file(s) in " ++ root.toText)).log)
  | .ok _ => refuse (.notDirectory root)

end FileTree

end ScriptAudit
