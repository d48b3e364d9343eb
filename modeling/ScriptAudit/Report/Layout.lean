import ScriptAudit.Report.Passage
import ScriptAudit.Text.Columns

/-!
# Lines of glyphs

Glyphs are laid out in lines: the text is split at its line feeds, and tabs become blanks. Lines
that stand in a frame are also wrapped: words stay whole as long as they fit in a line of their
own, and the blanks behind a word belong to it.

`Line.shown` turns a line into what is written to a terminal. Without colours these are just its
characters.
-/

set_option autoImplicit false

namespace ScriptAudit.Report

open ScriptAudit.Text

/-- The glyphs of one line. -/
abbrev Line := List Glyph

namespace Line

/-- A line of one style. -/
def ofText (style : Style) (s : String) : Line := s.toList.map fun c => { char := c, style }

/-- The number of columns a line takes. -/
def width (line : Line) : Nat := columns (line.map Glyph.char)

/-- A glyph that shows nothing. -/
def isBlankGlyph (g : Glyph) : Bool := isBlank g.char

/-- Glyphs of one run, between the codes of its style. -/
def paintedRun : List Glyph → String
  | [] => ""
  | g :: rest => g.style.paint (String.ofList ((g :: rest).map (·.char)))

/-- What is written to a terminal for a line, with or without colours. -/
def shown (colour : Bool) (line : Line) : String :=
  if colour then String.join ((line.splitBy fun g h => g.run == h.run).map paintedRun)
  else String.ofList (line.map (·.char))

/-- The distance between tab stops. -/
def tabStop : Nat := 8

/-- The blanks that stand for a tab behind a part of a line that starts at a tab stop: one, and as
many more as are needed to reach a tab stop. -/
def tabBlanks (part : Line) (tab : Glyph) : Line :=
  let blank := { tab with char := ' ' }
  let column := (part ++ [blank]).width
  List.replicate (1 + (tabStop - column % tabStop) % tabStop) blank

/-- Replaces tabs by blanks up to the next tab stop. The part of the line behind the last tab is
begun and starts at a tab stop. The tabs before it are counted, because a run does not go on behind
a tab. -/
def expandTabsFrom (part : Line) (tabs : Nat) : Line → Line
  | [] => part
  | g :: rest =>
    let g := { g with run := g.run + tabs }
    if g.char = '\t' then part ++ tabBlanks part g ++ expandTabsFrom [] (tabs + 1) rest
    else expandTabsFrom (part ++ [g]) tabs rest

/-- Replaces the tabs of a line by blanks. -/
def expandTabs (line : Line) : Line := expandTabsFrom [] 0 line

/-- Splits glyphs at their line feeds; there is one line more than line feeds. -/
def split : List Glyph → List Line
  | [] => [[]]
  | g :: rest =>
    if g.char = '\n' then [] :: split rest
    else
      match split rest with
      | line :: lines => (g :: line) :: lines
      | [] => [[g]]

/-- The lines of a text with markup. -/
def ofMarkup (markup : String) : List Line :=
  (split (Passage.ofMarkup markup).glyphs).map expandTabs

/-- The words of a line, each with the blanks behind it; the first also has the blanks before it.
A line of blanks has no words. -/
def words (line : Line) : List Line :=
  match line.splitBy fun g h => !(isBlankGlyph g && !isBlankGlyph h) with
  | first :: second :: rest =>
    if first.all isBlankGlyph then (first ++ second) :: rest else first :: second :: rest
  | [only] => if only.all isBlankGlyph then [] else [only]
  | [] => []

/-- A line without the blanks at its end. -/
def bare (line : Line) : Line := (line.reverse.dropWhile isBlankGlyph).reverse

/-- Glyphs that are shown as one. -/
def clusters (line : Line) : List (Cluster Glyph) := Text.clusters Glyph.char line

/-- Puts clusters into chunks of at most so many columns, behind a chunk that is begun and takes
some of them already. -/
def chunksFrom (limit : Nat) (chunk : Line) (used : Nat) : List (Cluster Glyph) → List Line
  | [] => [chunk]
  | cluster :: rest =>
    if limit < used + cluster.width then
      chunk :: chunksFrom limit cluster.members cluster.width rest
    else chunksFrom limit (chunk ++ cluster.members) (used + cluster.width) rest

/-- Cuts a word into chunks of at most so many columns. -/
def chop (limit : Nat) (word : Line) : List Line := chunksFrom limit [] 0 word.clusters

/-- Lines that are full, the line that is being filled, and the columns that count as used in it. -/
structure Filling where
  full : List Line := []
  current : Line := []
  used : Nat := 0

namespace Filling

/-- Begins a new line. There is nothing to begin at the very start. -/
def next (f : Filling) : Filling :=
  if f.full = [] ∧ f.current = [] then f else { f with full := f.full ++ [f.current], current := [] }

/-- Puts a piece on a new line. -/
def begin (f : Filling) (piece : Line) : Filling :=
  { f.next with current := piece, used := piece.width }

/-- Adds a word: on the current line if it fits there, cut into chunks if it fits on no line, and
on a new line otherwise. The blanks behind a word may stick out. -/
def add (limit : Nat) (f : Filling) (word : Line) : Filling :=
  if f.used + word.bare.width ≤ limit then
    { f with current := f.current ++ word, used := f.used + word.width }
  else if limit < word.bare.width then (chop limit word).foldl begin f
  else f.begin word

/-- All lines. -/
def lines (f : Filling) : List Line := f.full ++ [f.current]

end Filling

/-- Drops blanks at the end of a line, only as far as there are too many characters. -/
def trimExcess (limit : Nat) (line : Line) : Line :=
  let blanks := (line.reverse.takeWhile isBlankGlyph).length
  line.take (line.length - min blanks (line.length - limit))

/-- The clusters that fit in so many columns. A wide one that is cut in half becomes a blank. -/
def takeClusters (limit : Nat) : List (Cluster Glyph) → Line
  | [] => []
  | cluster :: rest =>
    if cluster.width ≤ limit then cluster.members ++ takeClusters (limit - cluster.width) rest
    else if limit = 0 then []
    else (cluster.members.take 1).map fun g => { g with char := ' ' }

/-- Cuts a line that is too long to so many columns. -/
def cut (limit : Nat) (line : Line) : Line :=
  if line.width ≤ limit then line else takeClusters limit line.clusters

/-- Wraps a line. -/
def wrap (limit : Nat) (line : Line) : List Line :=
  let lines :=
    match line.words with
    | [] => [line]
    | words => (words.foldl (Filling.add limit) {}).lines
  lines.map fun line => cut limit (trimExcess limit line)

end Line

end ScriptAudit.Report
