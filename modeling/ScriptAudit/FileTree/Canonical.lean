import ScriptAudit.FileTree.Basic

/-!
# Canonical paths

A path may be asked for its place although nothing is there yet. `FileTree.canonical` replaces every
link on the way by what it leads to and takes segments that are missing as they are; it never fails.
Links that lead to themselves are left in place: the rest of the path is kept behind the first link
that is met again.
-/

set_option autoImplicit false

namespace ScriptAudit

mutual
/-- The number of links in an entry. -/
def Entry.linkCount : Entry → Nat
  | .file _ _ => 0
  | .directory _ entries => Entry.linkCountIn entries
  | .link _ => 1
  | .special => 0

/-- The number of links in a list of entries. -/
def Entry.linkCountIn : List (String × Entry) → Nat
  | [] => 0
  | (_, entry) :: rest => entry.linkCount + linkCountIn rest
end

namespace FileTree

/-- How far a path could be resolved: up to its end, or up to a link that leads to itself, with the
rest of the path behind it. -/
inductive Resolution where
  | resolved (place : List String)
  | looping (segments : List String)
  deriving DecidableEq, Repr

namespace Resolution

/-- The segments of either case. -/
def segments : Resolution → List String
  | resolved place => place
  | looping segments => segments

end Resolution

/-- Resolves a path seen from a place. The links that are being resolved are given, and how many
more may be entered; a tree has no more links than `Entry.linkCountIn` counts, so this bound is
never what ends a resolution. -/
def resolve (tree : FileTree) (depth : Nat) (entered : List (List String))
    (place todo : List String) : Resolution :=
  match todo with
  | [] => .resolved place
  | name :: rest =>
    if name = ".." then resolve tree depth entered place.dropLast rest
    else
      match entryAt? tree.entries (place ++ [name]) with
      | some (.link target) =>
        match depth with
        | 0 => .looping (place ++ name :: rest)
        | depth + 1 =>
          if entered.contains (place ++ [name]) then .looping (place ++ name :: rest)
          else
            match resolve tree depth ((place ++ [name]) :: entered) (target.start place)
                target.path.segments with
            | .resolved place => resolve tree (depth + 1) entered place rest
            | .looping segments => .looping (segments ++ rest)
      | _ => resolve tree depth entered (place ++ [name]) rest
termination_by (depth, todo.length)

/-- Takes back a segment for every double dot, without regard to links. -/
def collapse (segments : List String) : List String :=
  segments.foldl (fun place name => if name = ".." then place.dropLast else place ++ [name]) []

/-- The path without links and double dots. -/
def canonical (tree : FileTree) (path : Path) : Path :=
  pathOf (collapse
    (tree.resolve (Entry.linkCountIn tree.entries) [] [] (tree.absolute path).segments).segments)

end FileTree

end ScriptAudit
