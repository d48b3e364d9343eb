import ScriptAudit.Proofs.Report.Emission
import ScriptAudit.Proofs.Report.Layout
import ScriptAudit.Proofs.Report.Legibility

/-!
# Messages on a console are shown, not carried out

A message is text from outside: it may hold brackets, closing tags, braces and backslashes. A
console with the default templates takes every diagnostic, and of its markup nothing is carried out
but the two tags of the template, which stand around the line. All of the message is shown, in
order; only backslashes may come and go, and control characters that would move the cursor are
dropped. A message without any of these, and without tabs, is written exactly as it is.
-/

set_option autoImplicit false

namespace ScriptAudit.Report

/-- A clean message stands behind the number of its line as it is. -/
theorem text_ofMarkup_of_clean {d : Diagnostic} (hslash : '\\' ∉ d.message.toList)
    (hcontrol : ∀ c ∈ d.message.toList, Markup.isCursorControl c = false) :
    (Passage.ofMarkup (String.ofList (defaultMarkup d))).text =
      lineText d ++ (": ".toList ++ d.message.toList) := by
  rw [ofMarkup_default, Markup.shownEscaped_of_no_slash hslash, List.filter_eq_self.mpr]
  intro c hc
  rcases List.mem_append.mp hc with hc | hc
  · have hcolon : ": ".toList.all (!Markup.isCursorControl ·) = true := by decide
    exact List.all_eq_true.mp hcolon c hc
  · rw [hcontrol c hc]
    rfl

/-- Only five characters move the cursor. -/
theorem isCursorControl_eq_false {c : Char} (h : c.toNat ∉ [0x07, 0x08, 0x0B, 0x0C, 0x0D]) :
    Markup.isCursorControl c = false := by
  simp only [List.mem_cons, List.not_mem_nil, or_false, not_or] at h
  simp only [Markup.isCursorControl, Bool.or_eq_false_iff, decide_eq_false_iff_not,
    Bool.and_eq_false_iff]
  omega

/-- Without colours a clean message stands in one piece behind the line and a colon. -/
theorem Console.shown_of_clean {console : Console} {d : Diagnostic}
    (hcolour : console.colour = false)
    (hclean : ∀ c ∈ d.message.toList,
      c ≠ '\\' ∧ c ≠ '\t' ∧ c.toNat ∉ [0x07, 0x08, 0x0B, 0x0C, 0x0D]) :
    console.shown (String.ofList (defaultMarkup d)) =
      "line " ++ toString d.line ++ ": " ++ d.message ++ "\n" := by
  have htext := text_ofMarkup_of_clean (fun h => (hclean _ h).1 rfl)
    fun c hc => isCursorControl_eq_false (hclean c hc).2.2
  have htab : '\t' ∉ (Passage.ofMarkup (String.ofList (defaultMarkup d))).text := by
    rw [htext]
    intro hmem
    rcases List.mem_append.mp hmem with hmem | hmem
    · have halphabet : '\t' ∉ lineAlphabet := by decide
      exact halphabet (mem_lineAlphabet hmem)
    · rcases List.mem_append.mp hmem with hmem | hmem
      · exact absurd hmem (by decide)
      · exact (hclean _ hmem).2.1 rfl
  have hshown := toList_shown_of_no_tab hcolour htab
  rw [htext] at hshown
  apply String.toList_injective
  rw [hshown]
  simp [lineText]

/-- **No message holds markup.** A console with the default templates takes a diagnostic with any
message. The tags of its markup are the two of the template, which give a style to the line and to
nothing else; the rest of the tokens are characters, and they are those of the message in order,
backslashes and dropped control characters apart. Without colours a message with no backslash, tab
or control character that would move the cursor is written exactly as it is. -/
theorem Reporter.emit_shows_message (r : Reporter) (console : Console) (d : Diagnostic)
    (hformat : r.format = .console console) (htemplates : console.templates = {})
    (hworking : r.failed = false) (hunlimited : r.sink.room = none) :
    ∃ (markup : String) (position : Nat) (shown : List Char),
      console.templates.render d console.host = .ok markup ∧
      Markup.tokens markup =
        .tag 0 (lineStyle d.severity) ::
          (("line " ++ toString d.line).toList.map .char ++
            .tag position ('/' :: lineStyle d.severity) :: (": ".toList ++ shown).map .char) ∧
      shown.filter (· ≠ '\\') =
        (d.message.toList.filter (· ≠ '\\')).filter (!Markup.isCursorControl ·) ∧
      (Passage.ofMarkup markup).spans =
        [{ start := 0, stop := ("line " ++ toString d.line).length,
           style := lineColour d.severity }] ∧
      r.emit d =
        ({ r with
            sink := { r.sink with writes := r.sink.writes ++ [console.shown markup] }
            counts := r.counts.add d.severity }, [], none) ∧
      (console.colour = false →
        (∀ c ∈ d.message.toList,
          c ≠ '\\' ∧ c ≠ '\t' ∧ c.toNat ∉ [0x07, 0x08, 0x0B, 0x0C, 0x0D]) →
        console.shown markup = "line " ++ toString d.line ++ ": " ++ d.message ++ "\n") := by
  obtain ⟨position, htokens⟩ := exists_tokens_default d
  have hline : ("line " ++ toString d.line).toList = lineText d := String.toList_append
  have hrendered := rendered_default hformat htemplates d
  refine ⟨String.ofList (defaultMarkup d), position,
    (Markup.shownEscaped d.message).filter fun c => !Markup.isCursorControl c, ?_, ?_, ?_, ?_, ?_,
    Console.shown_of_clean⟩
  · rw [htemplates, render_default]
  · rw [htokens, hline, Markup.plainTokens, List.filter_append]
    rfl
  · calc
      ((Markup.shownEscaped d.message).filter (!Markup.isCursorControl ·)).filter (· ≠ '\\')
        = ((Markup.shownEscaped d.message).filter (· ≠ '\\')).filter
            (!Markup.isCursorControl ·) := by
          simp only [List.filter_filter, Bool.and_comm]
      _ = (d.message.toList.filter (· ≠ '\\')).filter (!Markup.isCursorControl ·) := by
          rw [Markup.filter_shownEscaped]
  · rw [ofMarkup_default, ← String.length_toList, hline]
  · rw [emit, hworking, write, hrendered]
    simp [put, write_of_unlimited hunlimited, hworking]

/-- A message that would close the tag of the template and open another one. -/
def closingMessage : Diagnostic where
  ruleId := "hardcoded-secret"
  severity := .warning
  message := "[/red][bold]x"
  line := 7
  column := none
  line_pos := Nat.succ_pos 6
  column_pos := Diagnostic.absent_pos

/-- The tags in the message are shown as they are. -/
theorem Reporter.emit_shows_message_closing :
    ({ format := .console {} } : Reporter).failed = false ∧
      ({ format := .console {} } : Reporter).sink.room = none ∧
      (({ format := .console {} } : Reporter).emit closingMessage).1.sink.writes =
        ["line 7: [/red][bold]x\n"] := by
  obtain ⟨markup, -, -, -, -, -, -, hemit, hclean⟩ :=
    emit_shows_message { format := .console {} } {} closingMessage rfl rfl rfl rfl
  have hplain : closingMessage.message.toList.all
      (fun c => c ≠ '\\' ∧ c ≠ '\t' ∧ c.toNat ∉ [0x07, 0x08, 0x0B, 0x0C, 0x0D]) = true := by decide
  have hshown := hclean rfl fun c hc => of_decide_eq_true (List.all_eq_true.mp hplain c hc)
  refine ⟨rfl, rfl, ?_⟩
  rw [hemit, hshown]
  decide

end ScriptAudit.Report
