import ScriptAudit.Report.Layout

/-!
# Panels

A panel is a text in a frame that takes the whole width. Left and right of the text, inside the
frame, one column stays blank. Every part of the frame is a run of its own.
-/

set_option autoImplicit false

namespace ScriptAudit.Report

/-- The characters a frame is drawn with. -/
structure Box where
  topLeft : String
  top : String
  topRight : String
  left : String
  right : String
  bottomLeft : String
  bottom : String
  bottomRight : String
  deriving DecidableEq, Repr

/-- A frame that is not seen. -/
def Box.blank : Box := ⟨" ", " ", " ", " ", " ", " ", " ", " "⟩

/-- A thin frame with rounded corners. -/
def Box.rounded : Box := ⟨"╭", "─", "╮", "│", "│", "╰", "─", "╯"⟩

/-- A panel: the colour and the characters of its frame, an optional title in the frame, and the
markup of its text. -/
structure Panel where
  border : Colour
  box : Box
  title : Option String := none
  text : String
  deriving DecidableEq, Repr

namespace Panel

/-- A text so many times. -/
def repeated (n : Nat) (s : String) : String := String.join (List.replicate n s)

/-- The columns of a panel that are not for its text: the frame and a blank on both sides. -/
def margin : Nat := 4

/-- A part of the frame. -/
def frame (panel : Panel) (colour : Bool) (s : String) : String :=
  (Line.ofText { colour := some panel.border } s).shown colour

/-- An edge from corner to corner, as far as there is room for it. -/
def edge (panel : Panel) (width : Nat) (colour : Bool) (left middle right : String) : String :=
  let full := left ++ repeated (width - 2) middle ++ right
  panel.frame colour (String.ofList (full.toList.take width))

/-- The upper edge with a title in its middle, or half a column left of it. -/
def titled (panel : Panel) (width : Nat) (colour : Bool) (title : String) : String :=
  let title := (Line.ofText {} (" " ++ title ++ " ")).cut (width - margin)
  let fill := width - margin - title.width
  String.join <| List.map (panel.frame colour)
    [panel.box.topLeft ++ panel.box.top, repeated (fill / 2) panel.box.top, title.shown false,
      repeated (fill - fill / 2) panel.box.top, panel.box.top ++ panel.box.topRight]

/-- The upper edge. A panel with no room for text has none for a title either. -/
def upper (panel : Panel) (width : Nat) (colour : Bool) : String :=
  match panel.title with
  | some title =>
    if margin < width then panel.titled width colour title
    else panel.edge width colour panel.box.topLeft panel.box.top panel.box.topRight
  | none => panel.edge width colour panel.box.topLeft panel.box.top panel.box.topRight

/-- The lower edge. -/
def lower (panel : Panel) (width : Nat) (colour : Bool) : String :=
  panel.edge width colour panel.box.bottomLeft panel.box.bottom panel.box.bottomRight

/-- A line of text between the sides of the frame. -/
def middle (panel : Panel) (width : Nat) (colour : Bool) (line : Line) : String :=
  panel.frame colour panel.box.left ++ " " ++ line.shown colour ++
    repeated (width - margin - line.width) " " ++ " " ++ panel.frame colour panel.box.right

/-- The lines of text in a panel; none if there is no room for any. -/
def content (panel : Panel) (width : Nat) : List Line :=
  if width ≤ margin then [] else (Line.ofMarkup panel.text).flatMap (Line.wrap (width - margin))

/-- The lines of a panel. -/
def lines (panel : Panel) (width : Nat) (colour : Bool) : List String :=
  panel.upper width colour ::
    ((panel.content width).map (panel.middle width colour) ++ [panel.lower width colour])

/-- A panel as it is written: every line with a line feed. -/
def shown (panel : Panel) (width : Nat) (colour : Bool) : String :=
  String.join ((panel.lines width colour).map (· ++ "\n"))

end Panel

end ScriptAudit.Report
