import ScriptAudit.Report.Markup
import ScriptAudit.Report.Style

/-!
# Passages of styled text

Markup stands for characters and for spans of them that have a style. A tag opens a span, and a tag
with a slash closes one: the innermost with the same name, or the innermost of all if it names none.
Spans that are still open at the end reach to the end. Spans need not nest: where they overlap, the
one that begins later counts more, and of two that begin at the same place the one that is closed
first.

A tag that closes nothing is a fault. It is kept with the passage, so that there is always a text to
show, and who must not accept the fault can ask for it.
-/

set_option autoImplicit false

namespace ScriptAudit.Report

open ScriptAudit.Text

/-- A tag that closes nothing, by its place in the markup. -/
inductive MarkupFault where
  | unmatched (tag : String) (position : Nat)
  | nothingOpen (position : Nat)
  deriving DecidableEq, Repr

/-- The fault in words. -/
def MarkupFault.message : MarkupFault → String
  | unmatched tag position =>
    "closing tag '" ++ tag ++ "' at position " ++ toString position ++
      " doesn't match any open tag"
  | nothingOpen position =>
    "closing tag '[/]' at position " ++ toString position ++ " has nothing to close"

/-- Characters from `start` up to `stop`, in a style. -/
structure Span where
  start : Nat
  stop : Nat
  style : Style
  deriving DecidableEq, Repr

/-- The span holds a place. -/
def Span.covers (span : Span) (i : Nat) : Bool := span.start ≤ i && i < span.stop

/-- The span holds no place. -/
def Span.isEmpty (span : Span) : Bool := span.stop ≤ span.start

namespace Markup

/-- A character to show, or a tag to carry out with its place in the markup. -/
inductive Token where
  | char (c : Char)
  | tag (position : Nat) (body : List Char)
  deriving DecidableEq, Repr

/-- The character of a token, if it is one. -/
def Token.char? : Token → Option Char
  | char c => some c
  | tag _ _ => none

/-- Characters that would move the cursor and are never shown. -/
def isCursorControl (c : Char) : Bool :=
  c.toNat = 0x07 || c.toNat = 0x08 || (0x0B ≤ c.toNat && c.toNat ≤ 0x0D)

/-- The tokens of plain text. -/
def plainTokens (cs : List Char) : List Token :=
  (cs.filter fun c => !isCursorControl c).map .char

/-- The tokens of a list of pieces, the first of which stands at the given place. Of backslashes
before a tag half remain, and an odd number makes the tag plain text. A backslash before a bracket
that opens no tag goes. -/
def tokensFrom (position : Nat) : List Piece → List Token
  | [] => []
  | .char '\\' :: .char '[' :: rest => plainTokens ['['] ++ tokensFrom (position + 2) rest
  | .char c :: rest => plainTokens [c] ++ tokensFrom (position + 1) rest
  | .tag slashes body :: rest =>
    plainTokens (List.replicate (slashes / 2) '\\') ++
      (if slashes % 2 = 1 then plainTokens ('[' :: body ++ [']'])
      else [.tag (position + slashes) body]) ++
      tokensFrom (position + slashes + body.length + 2) rest

/-- The tokens of a text with markup. -/
def tokens (s : String) : List Token := tokensFrom 0 (pieces s.toList)

/-- A tag that is open: its name, its style and where its span begins. -/
structure OpenTag where
  name : String
  style : Style
  start : Nat
  deriving DecidableEq, Repr

/-- The name under which a tag is opened and closed. All spellings of a style have one name. -/
def tagName (cs : List Char) : String :=
  match Style.ofText? cs with
  | some style => style.name
  | none => Style.lowered (String.ofList (trimBy isBlank cs))

/-- The style of a tag: that of its name, and of what follows an equals sign. -/
def tagStyle (name : String) (parameters : List Char) : Style :=
  match parameters with
  | [] => (Style.ofText? name.toList).getD .plain
  | _ :: parameters => (Style.ofText? (name.toList ++ ' ' :: parameters)).getD .plain

/-- What has been read: the number of characters, the open tags, innermost first, the spans, the
last one closed first, and the first fault. -/
structure Reading where
  length : Nat := 0
  opened : List OpenTag := []
  spans : List Span := []
  fault : Option MarkupFault := none
  deriving DecidableEq, Repr

namespace Reading

/-- A fault; only the first one counts. -/
def fail (r : Reading) (fault : MarkupFault) : Reading :=
  { r with fault := r.fault <|> some fault }

/-- The span of a tag ends here. -/
def endSpan (r : Reading) (tag : OpenTag) : Reading :=
  { r with spans := { start := tag.start, stop := r.length, style := tag.style } :: r.spans }

/-- Closes the innermost tag. -/
def closeLast (r : Reading) (position : Nat) : Reading :=
  match r.opened with
  | [] => r.fail (.nothingOpen position)
  | tag :: outer => { r with opened := outer }.endSpan tag

/-- Closes the innermost tag of a name. -/
def closeNamed (r : Reading) (name : String) (fault : MarkupFault) : Reading :=
  match r.opened.find? (·.name = name) with
  | none => r.fail fault
  | some tag => { r with opened := r.opened.eraseP (·.name = name) }.endSpan tag

/-- Carries out a tag. -/
def carryOut (r : Reading) (position : Nat) (body : List Char) : Reading :=
  match body.takeWhile (· ≠ '=') with
  | '/' :: name =>
    if name.all isBlank then r.closeLast position
    else
      r.closeNamed (tagName (trimBy isBlank name))
        (.unmatched (String.ofList ('[' :: body ++ [']'])) position)
  | name =>
    let tag : OpenTag :=
      { name := tagName name, style := tagStyle (tagName name) (body.drop name.length),
        start := r.length }
    { r with opened := tag :: r.opened }

/-- Takes in a token. -/
def step (r : Reading) : Token → Reading
  | .char _ => { r with length := r.length + 1 }
  | .tag position body => r.carryOut position body

/-- The reading of all tokens, with no span left open. -/
def ofTokens (ts : List Token) : Reading :=
  let r := ts.foldl step {}
  r.opened.foldl endSpan r

end Reading

end Markup

/-- A text with the spans of it that have a style, those that count less first, and the first fault
of its markup. -/
structure Passage where
  text : List Char
  spans : List Span := []
  fault : Option MarkupFault := none
  deriving DecidableEq, Repr

/-- A character as it is shown: its style, and the number of its run. -/
structure Glyph where
  char : Char
  style : Style := {}
  run : Nat := 0
  deriving DecidableEq, Repr

namespace Passage

/-- The passage a text with markup stands for. -/
def ofMarkup (markup : String) : Passage :=
  let ts := Markup.tokens markup
  let r := Markup.Reading.ofTokens ts
  { text := ts.filterMap Markup.Token.char?,
    spans := r.spans.mergeSort fun a b => decide (a.start ≤ b.start),
    fault := r.fault }

/-- The style at a place. -/
def styleAt (spans : List Span) (i : Nat) : Style :=
  (spans.filter (·.covers i)).foldl (fun lower span => span.style.onto lower) .plain

/-- The number of ends of spans that are not behind a place. They divide a text into runs. -/
def runAt (spans : List Span) (i : Nat) : Nat :=
  (spans.flatMap fun span => [span.start, span.stop]).countP (· ≤ i)

/-- The spans that divide the text into runs. Spans without characters do so only in a text of one
line without tabs. -/
def dividingSpans (passage : Passage) : List Span :=
  if passage.text.any fun c => c = '\n' || c = '\t' then passage.spans.filter (!·.isEmpty)
  else passage.spans

/-- The characters of a passage as they are shown. -/
def glyphs (passage : Passage) : List Glyph :=
  passage.text.zipIdx.map fun (c, i) =>
    { char := c, style := styleAt passage.spans i, run := runAt passage.dividingSpans i }

/-- Glyphs show the characters of a passage, in order. -/
theorem map_char_glyphs (passage : Passage) : passage.glyphs.map Glyph.char = passage.text := by
  simp [glyphs, Function.comp_def]

end Passage

end ScriptAudit.Report
