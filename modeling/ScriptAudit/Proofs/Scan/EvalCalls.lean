import ScriptAudit.Proofs.Concrete.Outline
import ScriptAudit.Proofs.Concrete.Recognition
import ScriptAudit.Proofs.Scan.Isolation

/-!
# Calls of `eval` are found, all of them and nothing else

From a concrete tree to its diagnostics there are four steps: the tree is adapted, the nodes are
walked, the rules are looked up by kind, and each rule checks its nodes. For a tree that has the
shape of the grammar the walk is the outline; the findings of one rule are those it has alone; and a
node is a call of `eval` if and only if its tree is. Put together, the findings of that rule are the
calls of `eval` among the trees that are reached from the root, in their order.
-/

set_option autoImplicit false

namespace ScriptAudit

/-- There is a diagnostic at every proper place. -/
theorem Diagnostic.at?_natCast (ruleId : String) (severity : Severity) (message : String)
    {line column : Nat} (hline : 1 ≤ line) (hcolumn : 1 ≤ column) :
    Diagnostic.at? ruleId severity message (line : Int) (column : Int) =
      .ok { ruleId, severity, message, line, column := some column, line_pos := hline,
            column_pos := present_pos hcolumn } := by
  have hline' : (1 : Int) ≤ (line : Int) := by omega
  have hcolumn' : (1 : Int) ≤ (column : Int) := by omega
  unfold Diagnostic.at? Diagnostic.position
  rw [dif_pos hline', dif_pos hcolumn']
  rfl

namespace Concrete.Tree

variable (source : Source)

/-- Columns count from one. -/
theorem one_le_characterColumn (offset column : Nat) :
    1 ≤ source.characterColumn offset column := by
  unfold Source.characterColumn
  omega

/-- The diagnostic for a call of `eval` in a file. -/
def evalDiagnostic (path : Option Path) (t : Tree) : Diagnostic where
  ruleId := "eval-call"
  severity := .warning
  message := "dangerous use of eval() method"
  line := t.label.row + 1
  column := some (source.characterColumn t.label.start t.label.column)
  path := path
  line_pos := Nat.le_add_left 1 _
  column_pos := Diagnostic.present_pos (one_le_characterColumn source _ _)

/-- The calls of `eval` in the outline are those among all trees that are reached. -/
theorem filter_callsEval_outline (t : Tree) :
    t.outline.filter (callsEval source) = t.reached.filter (callsEval source) := by
  unfold outline kept reached
  rw [List.filter_map, List.filter_map, List.filter_filter]
  congr 1
  apply List.filter_congr
  intro site _
  -- whatever the outline drops is of another kind than a call
  cases hcall : callsEval source site.tree with
  | false => simp [hcall]
  | true =>
    have hkind := ((callsEval_iff source site.tree).mp hcall).1
    simp [hcall, Site.isKept, isChainMark, Label.isComment, hkind, Kind.comments]

/-- The rule reports a bare tree if and only if it calls `eval`. -/
theorem found_evalCall (root : Node) {t : Tree} (hbare : t.IsBare) :
    Rule.evalCall.found root (t.toNode source) =
      if t.callsEval source then [t.evalDiagnostic source none] else [] := by
  have hplace : (t.toNode source).head = t.nodeHead source := head_toNode source hbare
  have hdiagnostic : (⟨t.nodeHead source, .warning, "dangerous use of eval() method"⟩ :
      Remark).diagnostic .evalCall = .ok (t.evalDiagnostic source none) :=
    Diagnostic.at?_natCast _ _ _ (Nat.le_add_left 1 _) (one_le_characterColumn source _ _)
  unfold Rule.found Rule.check
  simp only [Rule.remarks, Rule.remarkIf, isEvalCall_toNode source hbare, hplace]
  split
  · rw [List.mapM_cons, hdiagnostic]
    rfl
  · rfl

/-- Alone, the rule finds at a bare tree nothing but a call of `eval`. -/
theorem findingsAt_evalCall (root : Node) {t : Tree} (hbare : t.IsBare) :
    Scan.findingsAt [.evalCall] root (t.toNode source) =
      if t.callsEval source then [t.evalDiagnostic source none] else [] := by
  have hkind : (t.toNode source).kind = t.nodeKind source := by
    rw [kind_toNode, unwrap_of_isBare hbare]
  cases hcall : t.callsEval source with
  | true =>
    simp [Scan.findingsAt, hkind, kind_of_callsEval source hcall, Rule.kinds,
      found_evalCall source root hbare, hcall]
  | false =>
    have hnone := found_evalCall source root hbare
    rw [hcall, if_neg Bool.false_ne_true] at hnone
    unfold Scan.findingsAt
    rw [List.flatMap_eq_nil_iff.mpr]
    · rfl
    · intro rule hrule
      obtain rfl := List.mem_singleton.mp (List.mem_filter.mp hrule).1
      exact hnone

/-- The findings of the rule for `eval`, alone, in a tree that has the shape of the grammar. -/
theorem findings_evalCall {t : Tree} (h : t.GrammarShaped) (path : Option Path) :
    Scan.findings [.evalCall] (t.toNode source) path =
      (t.reached.filter (callsEval source)).map (evalDiagnostic source path) := by
  have hpreorder := preorder_toNode_eq_map_outline source h.regular h.not_comment h.not_arguments
  have houtline : t.outline.flatMap (fun s =>
      Scan.findingsAt [.evalCall] (t.toNode source) (s.toNode source)) =
      (t.outline.filter (callsEval source)).map (evalDiagnostic source none) := by
    have hother : ∀ s ∈ t.outline, callsEval source s = false →
        Scan.findingsAt [.evalCall] (t.toNode source) (s.toNode source) = [] := by
      intro s hs hcall
      rw [findingsAt_evalCall source _ (isBare_of_mem_outline hs), hcall]
      rfl
    rw [← flatMap_filter_of_nil hother, List.map_eq_flatMap]
    apply List.flatMap_congr
    intro s hs
    obtain ⟨hmem, hcall⟩ := List.mem_filter.mp hs
    rw [findingsAt_evalCall source _ (isBare_of_mem_outline hmem), hcall]
    rfl
  rw [Scan.findings, hpreorder, List.flatMap_map, houtline, filter_callsEval_outline, List.map_map]
  apply List.map_congr_left
  intro s _
  cases path <;> rfl

/-- A scan with all rules of a tree that has the shape of the grammar goes well, and of what it
reports to a collecting reporter the part about `eval` has exactly one entry for each call of `eval`
that is reached from the root, in pre-order and at the line and column of the call. -/
theorem held_evalCalls (t : Tree) (path : Option Path) (h : t.GrammarShaped) :
    (Scan.run (Registry.ofRules Rule.all) (t.toNode source) path { format := .collecting }).2 =
        none ∧
      (Scan.run (Registry.ofRules Rule.all) (t.toNode source) path
          { format := .collecting }).1.reporter.held.filter (·.ruleId = "eval-call") =
        (t.reached.filter (callsEval source)).map (evalDiagnostic source path) := by
  obtain ⟨hnone, hheld⟩ := Scan.held_run_collecting (allPlaced_toNode source t) Rule.all path
  refine ⟨hnone, ?_⟩
  have honly := Scan.filter_ruleId_findings (show Rule.all.Nodup by decide)
    (show Rule.evalCall ∈ Rule.all by decide) (t.toNode source) path
  rw [hheld, ← findings_evalCall source h path]
  exact honly

/-- The tree of `f((eval)());w.eval()`: a call of `eval`, in parentheses and inside an argument
list, and the call of a method that only has the same name. -/
def evalAmongArguments : Tree :=
  node ⟨"program", 0, 20, 0, 0, none, true⟩
    [node ⟨"call_expression", 0, 11, 0, 0, none, true⟩
        [node ⟨"identifier", 0, 1, 0, 0, some "function", true⟩ [],
          node ⟨"arguments", 1, 11, 0, 1, some "arguments", true⟩
            [node ⟨"call_expression", 2, 10, 0, 2, none, true⟩
                [node ⟨"parenthesized_expression", 2, 8, 0, 2, some "function", true⟩
                    [node ⟨"identifier", 3, 7, 0, 3, none, true⟩ []],
                  node ⟨"arguments", 8, 10, 0, 8, some "arguments", true⟩ []]]],
      node ⟨"call_expression", 12, 20, 0, 12, none, true⟩
        [node ⟨"member_expression", 12, 18, 0, 12, some "function", true⟩
            [node ⟨"identifier", 12, 13, 0, 12, some "object", true⟩ [],
              node ⟨"property_identifier", 14, 18, 0, 14, some "property", true⟩ []],
          node ⟨"arguments", 18, 20, 0, 18, some "arguments", true⟩ []]]

/-- The bytes of `f((eval)());w.eval()`. -/
def evalAmongArgumentsSource : Source :=
  [102, 40, 40, 101, 118, 97, 108, 41, 40, 41, 41, 59, 119, 46, 101, 118, 97, 108, 40, 41]

/-- The call among the arguments is found, with the name in parentheses; a method of that name is no
such call. -/
theorem held_evalCalls_evalAmongArguments :
    evalAmongArguments.GrammarShaped ∧
      ((Scan.run (Registry.ofRules Rule.all) (evalAmongArguments.toNode evalAmongArgumentsSource)
          none { format := .collecting }).1.reporter.held.filter (·.ruleId = "eval-call")).map
        (fun d => (d.line, d.column)) = [(1, some 3)] := by
  have hshaped : evalAmongArguments.GrammarShaped := by decide
  refine ⟨hshaped, ?_⟩
  rw [(held_evalCalls evalAmongArgumentsSource evalAmongArguments none hshaped).2]
  decide +kernel

end Concrete.Tree

end ScriptAudit
