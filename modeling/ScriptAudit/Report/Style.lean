import ScriptAudit.Text.Blank

/-!
# Styles

A style switches attributes such as boldness on or off and sets the colours of text and background.
It is written as a list of words, for instance `bold cyan on black` or `not bold`; the order of the
words does not count, and `Style.name` is the one spelling all of them share. On a terminal a styled
text stands between a sequence that switches the style on and one that switches it off.
-/

set_option autoImplicit false

namespace ScriptAudit.Report

open ScriptAudit.Text

/-- The basic colours of a terminal. -/
inductive Hue where
  | black
  | red
  | green
  | yellow
  | blue
  | magenta
  | cyan
  | white
  deriving DecidableEq, Repr

namespace Hue

/-- All hues, in the order of their codes. -/
def all : List Hue := [black, red, green, yellow, blue, magenta, cyan, white]

/-- The name of a hue. -/
def name : Hue → String
  | black => "black"
  | red => "red"
  | green => "green"
  | yellow => "yellow"
  | blue => "blue"
  | magenta => "magenta"
  | cyan => "cyan"
  | white => "white"

/-- The place of a hue among the codes. -/
def index : Hue → Nat
  | black => 0
  | red => 1
  | green => 2
  | yellow => 3
  | blue => 4
  | magenta => 5
  | cyan => 6
  | white => 7

end Hue

/-- A colour: the one the terminal uses anyway, a hue, or a hue in its bright form. -/
inductive Colour where
  | usual
  | plain (hue : Hue)
  | bright (hue : Hue)
  deriving DecidableEq, Repr

namespace Colour

/-- All colours. -/
def all : List Colour := usual :: Hue.all.map plain ++ Hue.all.map bright

/-- The name of a colour. -/
def name : Colour → String
  | usual => "default"
  | plain hue => hue.name
  | bright hue => "bright_" ++ hue.name

/-- The colour of a name. -/
def ofName? (s : String) : Option Colour := all.find? (·.name = s)

/-- The code of a colour of the text. -/
def code : Colour → Nat
  | usual => 39
  | plain hue => 30 + hue.index
  | bright hue => 90 + hue.index

/-- The code of a colour of the background. -/
def backgroundCode (c : Colour) : Nat := c.code + 10

end Colour

/-- What a style can switch on and off besides colours. -/
inductive Attribute where
  | bold
  | dim
  | italic
  | underline
  | blink
  | fastBlink
  | reverse
  | conceal
  | strike
  | doubleUnderline
  | frame
  | encircle
  | overline
  deriving DecidableEq, Repr

namespace Attribute

/-- All attributes, in the order in which they are written. -/
def all : List Attribute :=
  [bold, dim, italic, underline, blink, fastBlink, reverse, conceal, strike, doubleUnderline, frame,
    encircle, overline]

/-- The names of an attribute: the full one and, where there is one, the short one. -/
def names : Attribute → String × Option String
  | bold => ("bold", some "b")
  | dim => ("dim", some "d")
  | italic => ("italic", some "i")
  | underline => ("underline", some "u")
  | blink => ("blink", none)
  | fastBlink => ("blink2", none)
  | reverse => ("reverse", some "r")
  | conceal => ("conceal", some "c")
  | strike => ("strike", some "s")
  | doubleUnderline => ("underline2", some "uu")
  | frame => ("frame", none)
  | encircle => ("encircle", none)
  | overline => ("overline", some "o")

/-- The full name of an attribute. -/
def name (a : Attribute) : String := a.names.1

/-- The attribute of a name, full or short. -/
def ofName? (s : String) : Option Attribute :=
  all.find? fun a => a.name = s || a.names.2 = some s

/-- The code of an attribute. -/
def code : Attribute → Nat
  | bold => 1
  | dim => 2
  | italic => 3
  | underline => 4
  | blink => 5
  | fastBlink => 6
  | reverse => 7
  | conceal => 8
  | strike => 9
  | doubleUnderline => 21
  | frame => 51
  | encircle => 52
  | overline => 53

end Attribute

/-- How a text is shown. Of two switches of one attribute the first one counts. -/
structure Style where
  switches : List (Attribute × Bool) := []
  colour : Option Colour := none
  background : Option Colour := none
  deriving DecidableEq, Repr

namespace Style

/-- The style of plain text. -/
def plain : Style := {}

/-- A style on top of another: what it sets itself counts, the rest is inherited. -/
def onto (upper lower : Style) : Style :=
  { switches := upper.switches ++ lower.switches, colour := upper.colour <|> lower.colour,
    background := upper.background <|> lower.background }

/-- An attribute switched on or off. -/
def switch (style : Style) (a : Attribute) (on : Bool) : Style :=
  { style with switches := (a, on) :: style.switches }

/-- A text in lower case. -/
def lowered (s : String) : String := String.ofList (s.toList.map Char.toLower)

/-- A style with one more word: an attribute or a colour of the text. -/
def addWord? (style : Style) (word : String) : Option Style :=
  match Attribute.ofName? (lowered word) with
  | some a => some (style.switch a true)
  | none => (Colour.ofName? (lowered word)).map fun c => { style with colour := some c }

/-- A style with more words. After `not` an attribute is switched off, after `on` a colour is that
of the background. A word that is no style spoils the whole. -/
def addWords? (style : Style) : List String → Option Style
  | [] => some style
  | [word] => style.addWord? word
  | word :: next :: rest =>
    if lowered word = "on" then
      match Colour.ofName? (lowered next) with
      | some c => addWords? { style with background := some c } rest
      | none => none
    else if lowered word = "not" then
      match Attribute.ofName? next with
      | some a => addWords? (style.switch a false) rest
      | none => none
    else
      match style.addWord? word with
      | some style => addWords? style (next :: rest)
      | none => none

/-- The words of a text; the first one is begun, its last character first. -/
def wordsFrom (word : List Char) : List Char → List String
  | [] => if word = [] then [] else [String.ofList word.reverse]
  | c :: rest =>
    if isBlank c then
      if word = [] then wordsFrom [] rest else String.ofList word.reverse :: wordsFrom [] rest
    else wordsFrom (c :: word) rest

/-- The style a text describes. The word `none`, and no word at all, describe plain text. -/
def ofText? (cs : List Char) : Option Style :=
  let words := wordsFrom [] cs
  if words = ["none"] then some plain else addWords? plain words

/-- The words for an attribute, if a style switches it. -/
def switchWords (style : Style) (a : Attribute) : List String :=
  match style.switches.lookup a with
  | some true => [a.name]
  | some false => ["not", a.name]
  | none => []

/-- The words of a style in their fixed order. -/
def words (style : Style) : List String :=
  Attribute.all.flatMap style.switchWords ++ (style.colour.map Colour.name).toList ++
    ((style.background.map fun c => ["on", c.name]).getD [])

/-- The one spelling of a style. -/
def name (style : Style) : String :=
  if style.words = [] then "none" else " ".intercalate style.words

/-- The attributes that are on. -/
def attributes (style : Style) : List Attribute :=
  Attribute.all.filter fun a => style.switches.lookup a = some true

/-- The codes of a style. -/
def codes (style : Style) : List Nat :=
  style.attributes.map Attribute.code ++ (style.colour.map Colour.code).toList ++
    (style.background.map Colour.backgroundCode).toList

/-- A text in a style. Plain and empty texts need no codes. -/
def paint (style : Style) (s : String) : String :=
  if s.isEmpty || style.codes.isEmpty then s
  else "\x1b[" ++ ";".intercalate (style.codes.map toString) ++ "m" ++ s ++ "\x1b[0m"

end Style

end ScriptAudit.Report
