import ScriptAudit.Text.Order

/-!
# Paths

A path is a root marker and a list of segments. Reading a path drops empty segments and single
dots; double dots stay, because what they mean depends on links.
-/

set_option autoImplicit false

namespace ScriptAudit

/-- Where a path starts. Exactly two leading slashes are kept apart from one. -/
inductive Path.Root where
  | relative
  | slash
  | doubleSlash
  deriving DecidableEq, Repr

/-- A path. -/
structure Path where
  root : Path.Root
  segments : List String
  deriving DecidableEq, Repr

namespace Path

/-- Splits a text at its slashes; there is one piece more than slashes. -/
def pieces : List Char → List (List Char)
  | [] => [[]]
  | '/' :: cs => [] :: pieces cs
  | c :: cs =>
    match pieces cs with
    | piece :: rest => (c :: piece) :: rest
    | [] => [[c]]

/-- The root marker of a text. -/
def rootOf : List Char → Root
  | '/' :: '/' :: '/' :: _ => .slash
  | '/' :: '/' :: _ => .doubleSlash
  | '/' :: _ => .slash
  | _ => .relative

/-- The segments of a text. -/
def segmentsOf (cs : List Char) : List String :=
  ((pieces cs).map String.ofList).filter fun s => s ≠ "" ∧ s ≠ "."

/-- Reads a path. -/
def ofString (s : String) : Path :=
  { root := rootOf s.toList, segments := segmentsOf s.toList }

/-- The text of a root marker. -/
def Root.text : Root → String
  | relative => ""
  | slash => "/"
  | doubleSlash => "//"

/-- The text of a path; the empty relative path is a single dot. -/
def toText (p : Path) : String :=
  if p.root = .relative ∧ p.segments = [] then "."
  else p.root.text ++ "/".intercalate p.segments

/-- A path that does not depend on a working directory. -/
def isAbsolute (p : Path) : Bool := p.root ≠ .relative

/-- A path seen from a directory; an absolute path stays what it is. -/
def within (directory p : Path) : Path :=
  if p.isAbsolute then p else { directory with segments := directory.segments ++ p.segments }

/-- The entry of a directory with the given name. -/
def child (directory : Path) (name : String) : Path :=
  { directory with segments := directory.segments ++ [name] }

/-- The path relative to a directory that it lies in, segment by segment. -/
def relativeTo? (directory p : Path) : Option Path :=
  if p.root = directory.root ∧ directory.segments.isPrefixOf p.segments then
    some { root := .relative, segments := p.segments.drop directory.segments.length }
  else none

/-- A path is shown relative to the working directory if it lies in it. -/
def shownFrom (directory p : Path) : String := ((relativeTo? directory p).getD p).toText

/-- The last segment, empty if there is none. -/
def name (p : Path) : String := p.segments.getLast?.getD ""

/-- The suffix of a name: from its last dot on, unless that dot comes first or last. -/
def suffixOf (name : String) : String :=
  let tail := (name.toList.reverse.takeWhile (· ≠ '.')).reverse
  let dot := name.length - tail.length
  if tail ≠ [] ∧ 2 ≤ dot then String.ofList ('.' :: tail) else ""

/-- The suffix of the last segment. -/
def suffix (p : Path) : String := suffixOf p.name

/-- The text with the letters of ASCII in lower case. No other character has a lower case that could
complete one of the suffixes below. -/
def lowerCase (s : String) : String := String.ofList (s.toList.map Char.toLower)

/-- The suffixes of script files. -/
def scriptSuffixes : List String := [".js", ".mjs", ".cjs"]

/-- A script file by its name. -/
def isScript (p : Path) : Bool := scriptSuffixes.contains (lowerCase p.suffix)

/-- A minified script by its name. -/
def isMinified (p : Path) : Bool :=
  ".min.js".toList.isSuffixOf (lowerCase p.name).toList

/-- The parts by which paths are ordered: the root marker and the segments. -/
def parts (p : Path) : List String :=
  if p.isAbsolute then p.root.text :: p.segments else p.segments

/-- Paths are ordered part by part, parts character by character. -/
def le (p q : Path) : Bool := Text.textsLe p.parts q.parts

end Path

end ScriptAudit
