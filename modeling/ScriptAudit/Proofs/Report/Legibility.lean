import ScriptAudit.Proofs.Report.Escape
import ScriptAudit.Proofs.Text.Digits
import ScriptAudit.Report.Reporter

/-!
# The default templates have a text for every diagnostic

Plain characters of a template stand for themselves, and a field that is no more than a name is
replaced by its argument. The default templates put the line between a tag and its closing tag, and
the escaped message behind them. The number of a line holds no bracket, and an escaped message has
no tags, so the two tags of the template are the only ones, and the second closes the first. So
nothing can go wrong.
-/

set_option autoImplicit false

namespace ScriptAudit.Report

open ScriptAudit.Text

/-! ## Fields without a form -/

namespace Template

/-- Characters that stand for themselves are filled as they are. -/
theorem mapM_text_literals (host : Host) (arguments : Arguments)
    (fill : List Char → Except TemplateFault (List Char)) (cs : List Char) :
    (cs.map Item.literal).mapM (Item.text host arguments fill) = .ok (cs.map ([·])) := by
  induction cs with
  | nil => rfl
  | cons c cs ih =>
    rw [List.map_cons, List.mapM_cons, ih]
    rfl

/-- A number is written with its digits if no form is asked for. -/
theorem formed_number (host : Host) (n : Nat) :
    (Value.number n).formed host [] = .ok (Nat.toDigits 10 n) := by
  have hdigits : Nat.toDigits 10 n ≠ [] := List.ne_nil_of_length_pos Nat.length_toDigits_pos
  have hnumeral : ({ alignment := .right, presentation := 'd' } : Form).numeral n =
      .ok (Nat.toDigits 10 n) := by
    simp [Form.numeral, Form.whole, Form.number, Form.grouped, Form.padded, Form.plus, Form.baseOf,
      hdigits]
  show (({ alignment := .right, presentation := 'd' } : Form).numeral n).mapError .form = _
  rw [hnumeral]
  rfl

/-- A text is written as it is if no form is asked for. -/
theorem formed_text (host : Host) (cs : List Char) :
    (Value.text cs).formed host [] = .ok cs := by
  have htext : ({ alignment := .left, presentation := 's' } : Form).text cs = .ok cs := by
    simp [Form.text, Form.padded]
  show (({ alignment := .left, presentation := 's' } : Form).text cs).mapError .form = _
  rw [htext]
  rfl

/-- A field of a plain name is replaced by the argument. -/
theorem text_field_of_name {host : Host} {arguments : Arguments} {name : List Char} {value : Value}
    (fill : List Char → Except TemplateFault (List Char))
    (hname : name.takeWhile (fun c => (Access.opened? c).isNone) = name)
    (hvalue : arguments.find name = .ok value) :
    Item.text host arguments fill (.field { name }) = value.formed host [] := by
  have hreached : Field.value host arguments { name } = .ok value := by
    rw [Field.value]
    simp only [hname, List.drop_length, Access.read, hvalue]
    rfl
  rw [Item.text, hreached]
  rfl

end Template

/-! ## The default templates -/

/-- The name of the tag around the line in the default template of a severity. -/
def lineStyle : Severity → List Char
  | .info => "yellow".toList
  | .warning => "red".toList

/-- The markup of a diagnostic by the default templates. -/
def defaultMarkup (d : Diagnostic) : List Char :=
  (Markup.Piece.tag 0 (lineStyle d.severity)).text ++
    ("line ".toList ++ (toString d.line).toList ++
      ((Markup.Piece.tag 0 ('/' :: lineStyle d.severity)).text ++
        (": ".toList ++ (Markup.escape d.message).toList)))

/-- The items of a default template: the line between its tags, and the message. -/
theorem read_default (severity : Severity) :
    Template.read .text (({} : Templates).for severity).toList =
      (((Markup.Piece.tag 0 (lineStyle severity)).text ++ "line ".toList).map .literal ++
        .field { name := "line".toList } ::
          (((Markup.Piece.tag 0 ('/' :: lineStyle severity)).text ++ ": ".toList).map .literal ++
            [.field { name := "message".toList }]), none) := by
  cases severity <;> decide

/-- The argument for lines is the line. -/
theorem find_line (d : Diagnostic) :
    (Templates.arguments d).find "line".toList = .ok (.number d.line) := by
  have hindex : Template.index? "line".toList = .ok none := rfl
  rw [Template.Arguments.find, hindex]
  rfl

/-- The argument for messages is the escaped message. -/
theorem find_message (d : Diagnostic) :
    (Templates.arguments d).find "message".toList =
      .ok (.text (Markup.escape d.message).toList) := by
  have hindex : Template.index? "message".toList = .ok none := rfl
  rw [Template.Arguments.find, hindex]
  rfl

/-- The default templates give every diagnostic its markup, whatever the host. -/
theorem render_default (d : Diagnostic) (host : Template.Host) :
    ({} : Templates).render d host = .ok (String.ofList (defaultMarkup d)) := by
  let fill := Template.fill host (Templates.arguments d) 1
  have hline : Template.Item.text host (Templates.arguments d) fill
      (.field { name := "line".toList }) = .ok (toString d.line).toList := by
    rw [Template.text_field_of_name fill (by decide) (find_line d), Template.formed_number,
      toList_toString]
  have hmessage : Template.Item.text host (Templates.arguments d) fill
      (.field { name := "message".toList }) = .ok (Markup.escape d.message).toList := by
    rw [Template.text_field_of_name fill (by decide) (find_message d), Template.formed_text]
  have hflatten (cs : List Char) : (cs.map ([·])).flatten = cs := by
    rw [← List.flatMap_def, List.flatMap_singleton']
  rw [Templates.render, Template.maxDepth, Template.fill, read_default]
  simp only [List.mapM_append, List.mapM_cons, List.mapM_nil, Template.mapM_text_literals]
  rw [hline, hmessage]
  show Except.ok (String.ofList (List.flatten (_ ++ _ :: (_ ++ [_])))) = _
  rw [List.flatten_append, List.flatten_cons, List.flatten_append, hflatten, hflatten,
    List.flatten_singleton, defaultMarkup]
  simp only [List.append_assoc]

/-- The names of the styles make proper tags. -/
theorem isBody_lineStyle (severity : Severity) :
    Markup.IsBody (lineStyle severity) ∧ Markup.IsBody ('/' :: lineStyle severity) := by
  cases severity with
  | info => exact ⟨⟨'y', _, rfl, by decide, by decide⟩, ⟨'/', _, rfl, by decide, by decide⟩⟩
  | warning => exact ⟨⟨'r', _, rfl, by decide, by decide⟩, ⟨'/', _, rfl, by decide, by decide⟩⟩

/-- The part of a diagnostic that the tags of its template stand around. -/
def lineText (d : Diagnostic) : List Char := "line ".toList ++ (toString d.line).toList

/-- The style of that part. -/
def lineColour : Severity → Style
  | .info => { colour := some (.plain .yellow) }
  | .warning => { colour := some (.plain .red) }

/-- The letters, the blank and the digits that the number of a line is written with. -/
def lineAlphabet : List Char := "line 0123456789".toList

/-- The number of a line is written with the characters of its alphabet. -/
theorem mem_lineAlphabet {d : Diagnostic} {c : Char} (hc : c ∈ lineText d) : c ∈ lineAlphabet := by
  rcases List.mem_append.mp hc with hc | hc
  · have hword : "line ".toList.all (· ∈ lineAlphabet) = true := by decide
    exact of_decide_eq_true (List.all_eq_true.mp hword c hc)
  · rw [toList_toString] at hc
    apply of_isDigitOf_ten (isDigitOf_of_mem_toDigits (by decide) (by decide) hc)
    decide

/-- The number of a line holds no characters that move the cursor. -/
theorem plainTokens_lineText (d : Diagnostic) :
    Markup.plainTokens (lineText d) = (lineText d).map .char := by
  have halphabet : lineAlphabet.all (!Markup.isCursorControl ·) = true := by decide
  rw [Markup.plainTokens, List.filter_eq_self.mpr]
  intro c hc
  exact List.all_eq_true.mp halphabet c (mem_lineAlphabet hc)

/-- The tokens of the markup: the two tags of the template, and plain text. -/
theorem exists_tokens_default (d : Diagnostic) :
    ∃ position,
      Markup.tokens (String.ofList (defaultMarkup d)) =
        .tag 0 (lineStyle d.severity) ::
          ((lineText d).map .char ++
            .tag position ('/' :: lineStyle d.severity) ::
              Markup.plainTokens (": ".toList ++ Markup.shownEscaped d.message)) := by
  have hline : Avoids '\\' '[' (lineText d) := by
    have halphabet : Avoids '\\' '[' lineAlphabet := by decide
    intro c hc
    exact halphabet c (mem_lineAlphabet hc)
  obtain ⟨hopening, hclosing⟩ := isBody_lineStyle d.severity
  have hcolon : Avoids '\\' '[' ": ".toList := by decide
  have hmarkup : defaultMarkup d = (Markup.Piece.tag 0 (lineStyle d.severity)).text ++
      (lineText d ++ ((Markup.Piece.tag 0 ('/' :: lineStyle d.severity)).text ++
        (": ".toList ++ (Markup.escape d.message).toList))) := rfl
  rw [Markup.tokens, String.toList_ofList, hmarkup, Markup.pieces_tag hopening,
    Markup.pieces_append_of_plain hline, Markup.pieces_tag hclosing,
    Markup.pieces_append_of_plain hcolon, Markup.tokensFrom,
    Markup.tokensFrom_append_of_plain hline, Markup.tokensFrom,
    Markup.tokensFrom_append_of_plain hcolon,
    Markup.tokensFrom_of_isLiteral fun p hp => Markup.isLiteral_of_mem_pieces_escape hp,
    ← Markup.plainTokens_append, plainTokens_lineText]
  exact ⟨_, rfl⟩

/-- The tag of the template while it is open. -/
def lineTag (severity : Severity) : Markup.OpenTag :=
  { name := String.ofList (lineStyle severity), style := lineColour severity, start := 0 }

/-- The opening tag of the template is opened. -/
theorem step_opening (severity : Severity) (position : Nat) :
    ({} : Markup.Reading).step (.tag position (lineStyle severity)) =
      { opened := [lineTag severity] } := by
  cases severity <;> rfl

/-- The closing tag of the template closes the opening one. -/
theorem step_closing (severity : Severity) (position n : Nat) :
    ({ length := n, opened := [lineTag severity] } : Markup.Reading).step
        (.tag position ('/' :: lineStyle severity)) =
      { length := n, spans := [{ start := 0, stop := n, style := lineColour severity }] } := by
  cases severity <;> rfl

/-- The closing tag of the template closes the opening one, so the markup is proper, and nothing but
the line has a style. -/
theorem ofMarkup_default (d : Diagnostic) :
    Passage.ofMarkup (String.ofList (defaultMarkup d)) =
      { text := lineText d ++
          (": ".toList ++ Markup.shownEscaped d.message).filter fun c => !Markup.isCursorControl c
        spans := [{ start := 0, stop := (lineText d).length, style := lineColour d.severity }]
        fault := none } := by
  obtain ⟨position, htokens⟩ := exists_tokens_default d
  let message := Markup.plainTokens (": ".toList ++ Markup.shownEscaped d.message)
  have hreading : Markup.Reading.ofTokens (Markup.tokens (String.ofList (defaultMarkup d))) =
      { length := (lineText d).length + message.length,
        spans :=
          [{ start := 0, stop := (lineText d).length, style := lineColour d.severity }] } := by
    rw [Markup.Reading.ofTokens, htokens, List.foldl_cons, step_opening, List.foldl_append,
      ← plainTokens_lineText, Markup.Reading.foldl_step_plainTokens, List.foldl_cons,
      plainTokens_lineText, List.length_map, Nat.zero_add, step_closing,
      Markup.Reading.foldl_step_plainTokens]
    rfl
  have htext : (Markup.tokens (String.ofList (defaultMarkup d))).filterMap Markup.Token.char? =
      lineText d ++
        (": ".toList ++ Markup.shownEscaped d.message).filter fun c =>
          !Markup.isCursorControl c := by
    have hchars (cs : List Char) :
        (cs.map Markup.Token.char).filterMap Markup.Token.char? = cs := by
      rw [List.filterMap_map]
      exact List.filterMap_some
    rw [htokens, List.filterMap_cons_none rfl, List.filterMap_append, hchars,
      List.filterMap_cons_none rfl, Markup.plainTokens, hchars]
  rw [Passage.ofMarkup, hreading, htext, List.mergeSort_singleton]

/-- A console with the default templates has a text for every diagnostic. -/
theorem Console.text_default {console : Console} (h : console.templates = {}) (d : Diagnostic) :
    console.text d = .ok (console.shown (String.ofList (defaultMarkup d))) := by
  rw [Console.text, h, render_default]
  simp only [ofMarkup_default]

/-- With the templates by default every diagnostic is rendered. -/
theorem Reporter.rendered_default {r : Reporter} {console : Console}
    (hformat : r.format = .console console) (htemplates : console.templates = {})
    (d : Diagnostic) :
    r.rendered d = .ok (some (console.shown (String.ofList (defaultMarkup d)))) := by
  rw [rendered, hformat]
  show (console.text d).map some = _
  rw [Console.text_default htemplates]
  rfl

end ScriptAudit.Report
