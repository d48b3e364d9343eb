import ScriptAudit.Proofs.Concrete.Conversion
import ScriptAudit.Proofs.Report.Layout
import ScriptAudit.Proofs.Scan.Cutoff

/-!
# The lines of a report on a console

A diagnostic is written as a line that starts with its line number. It is one line as long as its
message has no line feed, and every line feed of a message is written and begins another line.

The messages of a scan are fixed texts but for one rule, which shows the beginning of a secret. That
beginning is text from the source, and it is not checked for line feeds. So a report has a line for
each finding, and one more for each line feed among the characters of secrets that are shown.
-/

set_option autoImplicit false

namespace ScriptAudit

open ScriptAudit.Report

namespace Report.Console

variable {console : Console} (hcolour : console.colour = false)

include hcolour

/-- A diagnostic takes a line, and another one for each line feed of its message. -/
theorem count_newline_default (d : Diagnostic) :
    (console.shown (String.ofList (defaultMarkup d))).toList.count '\n' =
      d.message.toList.count '\n' + 1 := by
  have hline : '\n' ∉ lineText d := by
    intro hmem
    have halphabet : '\n' ∉ lineAlphabet := by decide
    exact halphabet (mem_lineAlphabet hmem)
  -- escaping changes the number of backslashes only
  have hmessage : (Markup.shownEscaped d.message).count '\n' = d.message.toList.count '\n' := by
    have hplain (cs : List Char) : (cs.filter (· ≠ '\\')).count '\n' = cs.count '\n' :=
      List.count_filter (by decide)
    rw [← hplain, Markup.filter_shownEscaped, hplain]
  rw [count_newline_shown hcolour, ofMarkup_default]
  simp only [List.count_append, List.count_eq_zero.mpr hline, Nat.zero_add]
  rw [List.count_filter (by decide), List.count_append, hmessage]
  simp

/-- With the templates by default a report begins with the word for its line. -/
theorem prefix_default (d : Diagnostic) :
    "line ".toList <+: (console.shown (String.ofList (defaultMarkup d))).toList := by
  have htext : (Passage.ofMarkup (String.ofList (defaultMarkup d))).text =
      "line ".toList ++ ((toString d.line).toList ++
        (": ".toList ++ Markup.shownEscaped d.message).filter
          fun c => !Markup.isCursorControl c) := by
    have hline : lineText d = "line ".toList ++ (toString d.line).toList := rfl
    rw [ofMarkup_default, hline, List.append_assoc]
  exact prefix_shown hcolour htext (by decide) (by decide)

/-- The lines of a report: one for each diagnostic, and the line feeds of the messages. -/
theorem count_newline_report (ds : List Diagnostic) :
    ((ds.map fun d => console.shown (String.ofList (defaultMarkup d))).flatMap
        String.toList).count '\n' =
      ds.length + ((ds.map (·.message)).flatMap String.toList).count '\n' := by
  induction ds with
  | nil => rfl
  | cons d ds ih =>
    simp only [List.map_cons, List.flatMap_cons, List.count_append, List.length_cons, ih,
      count_newline_default hcolour]
    omega

end Report.Console

/-! ## The messages of a scan -/

namespace Rule

/-- The messages of what is found are those of the remarks. -/
theorem map_message_found {root n : Node} (rule : Rule) (hroot : root.AllPlaced)
    (hn : n ∈ root.preorder) :
    (rule.found root n).map (·.message) = (rule.remarks (some root) n).map (·.message) :=
  map_eq_of_mapM_eq_ok (fun _ _ h => (Remark.fields_of_diagnostic h).2.2.1)
    (rule.check_eq_ok_found hroot hn)

/-- A message on a conversion has one line. -/
theorem newline_notMem_conversionMessage {n : Node} {message : String}
    (h : conversionMessage? n = some message) : '\n' ∉ message.toList := by
  unfold conversionMessage? at h
  split at h
  · split at h
    · split at h
      · cases h
      · cases h
        decide
    · cases h
  · cases h
    decide
  · cases h
    decide
  · cases h

/-- Only the beginning of a secret can bring a line feed into a message. -/
theorem newline_notMem_message {rule : Rule} (hrule : rule ≠ .hardcodedSecret)
    {tree : Option Node} {n : Node} {remark : Remark} (h : remark ∈ rule.remarks tree n) :
    '\n' ∉ remark.message.toList := by
  have fixed (condition : Bool) (severity : Severity) (message : String)
      (hmessage : '\n' ∉ message.toList) (h : remark ∈ remarkIf condition n severity message) :
      '\n' ∉ remark.message.toList := by
    unfold remarkIf at h
    split at h
    · rw [List.mem_singleton.mp h]
      exact hmessage
    · cases h
  cases rule with
  | consoleLog => exact fixed _ _ _ (by decide) h
  | evalCall => exact fixed _ _ _ (by decide) h
  | truncation => exact fixed _ _ _ (by decide) h
  | typeConversion =>
    obtain ⟨message, hmessage, rfl⟩ := List.mem_map.mp h
    exact newline_notMem_conversionMessage (Option.mem_toList.mp hmessage)
  | hardcodedSecret => exact absurd rfl hrule
  | inputFieldAccess =>
    simp only [remarks] at h
    split at h
    · split at h
      · obtain ⟨inner, -, rfl⟩ := List.mem_map.mp h
        show '\n' ∉ "direct input field access, sanitization required".toList
        decide
      · cases h
    · cases h

end Rule

namespace Scan

/-- The characters of a secret that a report shows. -/
def shownSecret (m : Secret.Match) : List Char := m.text.toList.take Secret.previewLength

/-- The characters of secrets in a tree that a report shows, in the order of the report. -/
def shownSecrets (root : Node) : List Char :=
  ((root.walk.filter (·.kind = "Literal")).flatMap Rule.secrets).flatMap shownSecret

/-- The line feeds in messages on secrets are those in what is shown of the secrets. -/
theorem count_newline_secrets (tree : Option Node) (n : Node) :
    (((Rule.hardcodedSecret.remarks tree n).map (·.message)).flatMap String.toList).count '\n' =
      ((Rule.secrets n).flatMap shownSecret).count '\n' := by
  have hmessage (m : Secret.Match) :
      ("found hardcoded secret - " ++ m.preview).toList.count '\n' =
        (shownSecret m).count '\n' := by
    have hfixed : "found hardcoded secret - ".toList.count '\n' = 0 ∧
        "...".toList.count '\n' = 0 := by
      decide
    rw [Secret.Match.preview, Secret.preview, shownSecret, String.toList_append,
      String.toList_append, List.count_append, List.count_append, hfixed.1, hfixed.2,
      String.toList_ofList]
    omega
  simp only [Rule.remarks, List.map_map]
  induction Rule.secrets n with
  | nil => rfl
  | cons m ms ih =>
    simp only [List.map_cons, Function.comp_apply, List.flatMap_cons, List.count_append, hmessage,
      ih]

/-- The line feeds in the messages of some rules about one node. -/
theorem count_newline_found {root n : Node} (hroot : root.AllPlaced) (hn : n ∈ root.preorder)
    (rules : List Rule) :
    (((rules.flatMap fun rule => rule.found root n).map (·.message)).flatMap
        String.toList).count '\n' =
      rules.count .hardcodedSecret * ((Rule.secrets n).flatMap shownSecret).count '\n' := by
  induction rules with
  | nil =>
    rw [List.count_nil, Nat.zero_mul]
    rfl
  | cons rule rules ih =>
    rw [List.flatMap_cons, List.map_append, List.flatMap_append, List.count_append, ih,
      rule.map_message_found hroot hn, List.count_cons, Nat.add_mul, Nat.add_comm]
    congr 1
    by_cases hrule : rule = .hardcodedSecret
    · rw [hrule, count_newline_secrets]
      simp
    · have hnone : '\n' ∉ ((rule.remarks (some root) n).map (·.message)).flatMap String.toList := by
        intro hmem
        obtain ⟨message, hmessage, hc⟩ := List.mem_flatMap.mp hmem
        obtain ⟨remark, hremark, rfl⟩ := List.mem_map.mp hmessage
        exact Rule.newline_notMem_message hrule hremark hc
      rw [List.count_eq_zero.mpr hnone]
      simp [hrule]

/-- The line feeds in the messages of all rules: those of the secrets in literals. -/
theorem count_newline_findingsAt {root n : Node} (hroot : root.AllPlaced)
    (hn : n ∈ root.preorder) :
    (((findingsAt Rule.all root n).map (·.message)).flatMap String.toList).count '\n' =
      if n.kind = "Literal" then ((Rule.secrets n).flatMap shownSecret).count '\n' else 0 := by
  rw [findingsAt, count_newline_found hroot hn]
  split
  · rename_i hkind
    have hrules : (Rule.all.filter fun rule => rule.kinds.contains n.kind) =
        [.hardcodedSecret] := by
      rw [hkind]
      decide
    rw [hrules, List.count_cons_self, List.count_nil, Nat.one_mul]
  · rename_i hkind
    have hnone : .hardcodedSecret ∉ Rule.all.filter fun rule => rule.kinds.contains n.kind := by
      intro hmem
      have hcontains := (List.mem_filter.mp hmem).2
      exact hkind (by simpa [Rule.kinds] using hcontains)
    rw [List.count_eq_zero.mpr hnone, Nat.zero_mul]

/-- The line feeds in the messages of a whole scan. -/
theorem count_newline_findings {root : Node} (hroot : root.AllPlaced) (path : Option Path) :
    (((findings Rule.all root path).map (·.message)).flatMap String.toList).count '\n' =
      (shownSecrets root).count '\n' := by
  -- the findings at a node may look at the whole tree, so the tree stays while the nodes run out
  have hnodes : ∀ ns : List Node, (∀ n ∈ ns, n ∈ root.preorder) →
      (((ns.flatMap (findingsAt Rule.all root)).map (·.message)).flatMap
          String.toList).count '\n' =
        (((ns.filter (·.kind = "Literal")).flatMap Rule.secrets).flatMap
          shownSecret).count '\n' := by
    intro ns hns
    induction ns with
    | nil => rfl
    | cons n ns ih =>
      obtain ⟨hn, hrest⟩ := List.forall_mem_cons.mp hns
      rw [List.flatMap_cons, List.map_append, List.flatMap_append, List.count_append, ih hrest,
        count_newline_findingsAt hroot hn]
      by_cases hkind : n.kind = "Literal"
      · simp [hkind, List.count_append]
      · simp [hkind]
  rw [findings, List.map_map, shownSecrets, Node.walk_eq_preorder]
  exact hnodes root.preorder fun n hn => hn

/-! ## The report of a scan -/

/-- **A report has a line for each finding, and one for each line feed of a secret.** A scan with
all rules, of any tree, into a fresh console without colours goes well and writes a text for each
diagnostic. Each text starts with `line ` and ends with a line feed. There are as many line feeds as
diagnostics and, on top of these, as many as there are among the shown characters of secrets. So
there is one line for each diagnostic if and only if no secret shows a line feed. -/
theorem run_report_lines (source : Source) (t : Concrete.Tree) (path : Option Path) (width : Nat)
    (workingDirectory : Path) :
    let root := t.toNode source
    let scan := run (Registry.ofRules Rule.all) root path
      { format := .console { width, workingDirectory } }
    let writes := scan.1.reporter.sink.writes
    scan.2 = none ∧ writes.length = scan.1.emitted ∧
      (∀ w ∈ writes, "line ".toList <+: w.toList ∧ ['\n'] <:+ w.toList) ∧
      scan.1.reporter.sink.text.toList.count '\n' =
        scan.1.emitted + (shownSecrets root).count '\n' ∧
      (scan.1.reporter.sink.text.toList.count '\n' = scan.1.emitted ↔
        '\n' ∉ shownSecrets root) ∧
      ('\n' ∉ shownSecrets root → ∀ w ∈ writes, w.toList.count '\n' = 1) := by
  intro root scan writes
  let ds := findings Rule.all root path
  let console : Console := { width, workingDirectory }
  let text (d : Diagnostic) : String := console.shown (String.ofList (defaultMarkup d))
  have hroot : root.AllPlaced := Concrete.Tree.allPlaced_toNode source t
  have htext : ∀ d, ({ format := .console console } : Reporter).rendered d = .ok (some (text d)) :=
    Reporter.rendered_default rfl rfl
  have hreliable : ({ format := .console console } : Reporter).Reliable ds :=
    ⟨rfl, rfl, fun d _ => ⟨_, htext d⟩⟩
  obtain ⟨hreporter, hemitted, hnone⟩ :
      scan.1.reporter = ({ format := .console console } : Reporter).after ds ∧
        scan.1.emitted = 0 + ds.length ∧ scan.2 = none :=
    run_of_emitAll hroot Rule.all path (Reporter.emitAll_of_reliable hreliable 0)
  have hwrites : writes = ds.map text := by
    show scan.1.reporter.sink.writes = _
    rw [hreporter, (Reporter.after_fresh htext {} ds).1]
    rfl
  have hmessages := count_newline_findings hroot path
  have hcount : scan.1.reporter.sink.text.toList.count '\n' =
      scan.1.emitted + (shownSecrets root).count '\n' := by
    have hcolour : console.colour = false := rfl
    have hreport := Console.count_newline_report hcolour ds
    rw [hmessages] at hreport
    show (String.join writes).toList.count '\n' = _
    rw [hwrites, String.toList_join, hemitted, Nat.zero_add]
    exact hreport
  refine ⟨hnone, ?_, ?_, hcount, ?_, ?_⟩
  · rw [hwrites, hemitted, List.length_map, Nat.zero_add]
  · intro w hw
    rw [hwrites] at hw
    obtain ⟨d, -, rfl⟩ := List.mem_map.mp hw
    exact ⟨Console.prefix_default rfl d, Console.newline_suffix_shown rfl _⟩
  · rw [hcount, ← List.count_eq_zero]
    omega
  · intro hclean w hw
    rw [hwrites] at hw
    obtain ⟨d, hd, rfl⟩ := List.mem_map.mp hw
    have hmessage : '\n' ∉ d.message.toList := by
      intro hmem
      rw [← List.count_eq_zero, ← hmessages, List.count_eq_zero] at hclean
      exact hclean (List.mem_flatMap.mpr ⟨_, List.mem_map_of_mem hd, hmem⟩)
    show (text d).toList.count '\n' = 1
    rw [Console.count_newline_default rfl, List.count_eq_zero.mpr hmessage]

/-- The bytes of a literal for the text `token='`, a line feed and `line 9: ok'`. The line feed is
written as an escape, so the literal stands in one line. -/
def forgedLine : Source :=
  [34, 116, 111, 107, 101, 110, 61, 39, 92, 110, 108, 105, 110, 101, 32, 57, 58, 32, 111, 107, 39,
    34]

/-- The program that is this literal. -/
def forgedLineTree : Concrete.Tree :=
  .node ⟨"program", 0, 22, 0, 0, none, true⟩
    [.node ⟨"expression_statement", 0, 22, 0, 0, none, true⟩
      [.node ⟨"string", 0, 22, 0, 0, none, true⟩
        [.node ⟨"\"", 0, 1, 0, 0, none, false⟩ [],
          .node ⟨"string_fragment", 1, 8, 0, 1, none, true⟩ [],
          .node ⟨"escape_sequence", 8, 10, 0, 8, none, true⟩ [],
          .node ⟨"string_fragment", 10, 21, 0, 10, none, true⟩ [],
          .node ⟨"\"", 21, 22, 0, 21, none, false⟩ []]]]

/-- One diagnostic, two lines: the second one is the source's own. -/
theorem run_writes_forged_line :
    let scan := run (Registry.ofRules Rule.all) (forgedLineTree.toNode forgedLine) none
      { format := .console {} }
    scan.1.emitted = 1 ∧
      scan.1.reporter.sink.text =
        "line 1: found hardcoded secret - token='\nline 9: ok'...\n" ∧
      scan.1.reporter.sink.text.toList.count '\n' ≠ scan.1.emitted := by
  decide +kernel

end Scan

end ScriptAudit
