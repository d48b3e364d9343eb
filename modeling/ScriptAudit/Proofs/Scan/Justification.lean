import ScriptAudit.Proofs.Concrete.Recognition
import ScriptAudit.Proofs.Scan.Isolation

/-!
# Every finding is borne out by the concrete tree

`Evidence` says, rule by rule, what there has to be in a concrete tree for a finding: a tree of the
right kind whose fields hold what the rule is about, parentheses taken off. It names the severity
and the message that go with it. No shape of the tree is presumed: fields may be missing, spans may
be improper, and a tree may be of any kind.

A remark of a rule leads back to such evidence. The rules look at nodes, every node comes from a
bare tree, and the tests on the node are tests on the tree. One rule remarks on another node than
the one it looks at, and so its evidence is made of two trees.
-/

set_option autoImplicit false

namespace ScriptAudit.Concrete.Tree

variable (source : Source)

/-- What bears out a finding of a rule, with its severity and message, at a tree below a root. -/
inductive Evidence (root : Tree) : Rule → Severity → String → Tree → Prop
  | evalCall {n : Tree} (hkind : n.label.kind = "call_expression")
    (hfunction : n.nameIn? source "function" = some "eval") :
    Evidence root .evalCall .warning "dangerous use of eval() method" n
  | consoleLog {n : Tree} {field method : String} (haccess : n.IsAccess field)
    (hobject : n.nameIn? source "object" = some "console")
    (hproperty : n.nameIn? source field = some method) (hmethod : method ∈ ["log", "debug"]) :
    Evidence root .consoleLog .info "information being logged to console" n
  | inputFieldAccess {n m : Tree} {field field' : String} (haccess : n.IsAccess field)
    (hproperty : n.nameIn? source field = some "getElementById") (hread : m ∈ root.subtrees)
    (haccess' : m.IsAccess field') (hproperty' : m.nameIn? source field' = some "value") :
    Evidence root .inputFieldAccess .info "direct input field access, sanitization required" n
  | looseEquality {n : Tree} (hkind : n.label.kind = "binary_expression")
    (hoperator : n.operator? source = some "==") :
    Evidence root .typeConversion .info
      "possible unsafe type conversion with ==, use === instead" n
  | looseInequality {n : Tree} (hkind : n.label.kind = "binary_expression")
    (hoperator : n.operator? source = some "!=") :
    Evidence root .typeConversion .info
      "possible unsafe type conversion with !=, use !== instead" n
  | addition {n left right : Tree} (hkind : n.label.kind = "binary_expression")
    (hoperator : n.operator? source = some "+") (hleft : n.inField? "left" = some left)
    (hright : n.inField? "right" = some right)
    (hkinds : left.unwrap.nodeKind source ≠ right.unwrap.nodeKind source) :
    Evidence root .typeConversion .info "possible unsafe type conversion with + operator" n
  | truncation {n operand : Tree} {side : String} (hkind : n.label.kind = "binary_expression")
    (hoperator : n.operator? source = some "|") (hside : side ∈ ["left", "right"])
    (hoperand : n.inField? side = some operand)
    (hliteral : operand.unwrap.label.kind ∈ Kind.literals)
    (hzero : operand.unwrap.label.text source = "0") :
    Evidence root .truncation .info "possible truncation detected using bitwise OR" n
  | hardcodedSecret {n : Tree} {found : Secret.Match} (hkind : n.label.kind = "string")
    (hfound : found ∈
      Secret.search Secret.Pattern.all (Literal.textValue (n.label.text source))) :
    Evidence root .hardcodedSecret .warning ("found hardcoded secret - " ++ found.preview) n

/-- A diagnostic is borne out at a tree: there is evidence for it, and it stands at the line and the
character column of the tree and in the file that was scanned. -/
structure Justifies (root : Tree) (path : Option Path) (d : Diagnostic) (n : Tree) : Prop where
  evidence : ∃ rule : Rule, d.ruleId = rule.id ∧ Evidence source root rule d.severity d.message n
  line : d.line = n.label.row + 1
  column : d.column = some (source.characterColumn n.label.start n.label.column)
  path : d.path = path

/-! ## From remarks to evidence -/

/-- A remark is made under its condition only. -/
theorem remark_of_mem_remarkIf {remark : Remark} {condition : Bool} {n : Node}
    {severity : Severity} {message : String}
    (h : remark ∈ Rule.remarkIf condition n severity message) :
    condition = true ∧ remark = ⟨n.head, severity, message⟩ := by
  unfold Rule.remarkIf at h
  split at h
  · rename_i hcondition
    exact ⟨hcondition, List.mem_singleton.mp h⟩
  · cases h

/-- A message on a conversion has its evidence. -/
theorem evidence_of_conversionMessage? (root : Tree) {t : Tree} {message : String}
    (hbare : t.IsBare)
    (h : Rule.conversionMessage? (t.toNode source) = some message) :
    Evidence source root .typeConversion .info message t := by
  unfold Rule.conversionMessage? at h
  split at h
  · rename_i hoperator
    obtain ⟨hkind, hoperator', hoperands⟩ := binary_of_operator? source hbare hoperator
    rw [hoperands] at h
    cases hleft : t.inField? "left" with
    | none => simp [hleft] at h
    | some left =>
      cases hright : t.inField? "right" with
      | none => simp [hleft, hright] at h
      | some right =>
        simp only [hleft, hright, Option.map_some, kind_toNode] at h
        split at h
        · cases h
        · rename_i hkinds
          obtain rfl := Option.some.inj h
          exact .addition hkind hoperator' hleft hright hkinds
  · rename_i hoperator
    obtain ⟨hkind, hoperator', -⟩ := binary_of_operator? source hbare hoperator
    obtain rfl := Option.some.inj h
    exact .looseEquality hkind hoperator'
  · rename_i hoperator
    obtain ⟨hkind, hoperator', -⟩ := binary_of_operator? source hbare hoperator
    obtain rfl := Option.some.inj h
    exact .looseInequality hkind hoperator'
  · cases h

/-- A secret that is found has its evidence. -/
theorem evidence_of_secret {root t : Tree} {found : Secret.Match} (hbare : t.IsBare)
    (h : found ∈ Rule.secrets (t.toNode source)) :
    Evidence source root .hardcodedSecret .warning ("found hardcoded secret - " ++ found.preview)
      t := by
  unfold Rule.secrets at h
  split at h
  · rename_i text hvalue
    obtain ⟨hkind, rfl⟩ := string_of_value source hbare hvalue
    exact .hardcodedSecret hkind h
  · cases h

/-- A remark about a node of a tree goes back to evidence in the concrete tree, at the place of the
remark. -/
theorem exists_evidence_of_remark {root : Tree} {rule : Rule} {n : Node} {remark : Remark}
    (hn : n ∈ (root.toNode source).preorder)
    (h : remark ∈ rule.remarks (some (root.toNode source)) n) :
    ∃ s ∈ root.subtrees, remark.place = s.nodeHead source ∧
      Evidence source root rule remark.severity remark.message s := by
  obtain ⟨t, ht, hbare, rfl⟩ := exists_of_mem_preorder source hn
  have hplace := head_toNode source hbare
  cases rule with
  | consoleLog =>
    obtain ⟨hlog, rfl⟩ := remark_of_mem_remarkIf h
    obtain ⟨field, method, haccess, hobject, hproperty, hmethod⟩ :=
      exists_of_isConsoleLog source hbare hlog
    exact ⟨t, ht, hplace, .consoleLog haccess hobject hproperty hmethod⟩
  | evalCall =>
    obtain ⟨hcall, rfl⟩ := remark_of_mem_remarkIf h
    rw [isEvalCall_toNode source hbare] at hcall
    obtain ⟨hkind, hfunction⟩ := (callsEval_iff source t).mp hcall
    exact ⟨t, ht, hplace, .evalCall hkind hfunction⟩
  | truncation =>
    obtain ⟨htruncation, rfl⟩ := remark_of_mem_remarkIf h
    obtain ⟨hkind, hoperator, side, operand, hside, hoperand, hliteral, hzero⟩ :=
      exists_of_isTruncation source hbare htruncation
    exact ⟨t, ht, hplace, .truncation hkind hoperator hside hoperand hliteral hzero⟩
  | typeConversion =>
    obtain ⟨message, hmessage, rfl⟩ := List.mem_map.mp h
    have hmessage' := Option.mem_toList.mp hmessage
    exact ⟨t, ht, hplace, evidence_of_conversionMessage? source root hbare hmessage'⟩
  | hardcodedSecret =>
    obtain ⟨found, hfound, rfl⟩ := List.mem_map.mp h
    exact ⟨t, ht, hplace, evidence_of_secret source hbare hfound⟩
  | inputFieldAccess =>
    -- the tree is the read, and the remark is about a lookup somewhere else
    simp only [Rule.remarks] at h
    split at h
    · rename_i hread
      simp only [Rule.isValueRead, decide_eq_true_eq] at hread
      obtain ⟨field', haccess', hproperty', -⟩ := exists_access_of_property source hbare hread
      split at h
      · rename_i anchor hanchor
        obtain ⟨inner, hinner, rfl⟩ := List.mem_map.mp h
        obtain ⟨hmem, hlookup⟩ := List.mem_filter.mp hinner
        rw [Node.walk_eq_preorder] at hmem
        have hroot := Node.mem_preorder_trans (Node.mem_preorder_of_firstAfter? hanchor) hmem
        obtain ⟨s, hs, hsbare, rfl⟩ := exists_of_mem_preorder source hroot
        simp only [Rule.isElementLookup, Bool.and_eq_true, decide_eq_true_eq] at hlookup
        obtain ⟨field, haccess, hproperty, -⟩ :=
          exists_access_of_property source hsbare hlookup.2
        exact ⟨s, hs, head_toNode source hsbare,
          .inputFieldAccess haccess hproperty ht haccess' hproperty'⟩
      · cases h
    · cases h

/-- Every finding of a scan is borne out by a subtree. -/
theorem exists_justifies_of_mem_findings {root : Tree} {rules : List Rule} {path : Option Path}
    {d : Diagnostic} (h : d ∈ Scan.findings rules (root.toNode source) path) :
    ∃ n ∈ root.subtrees, Justifies source root path d n := by
  obtain ⟨d', hd', rfl⟩ := List.mem_map.mp h
  obtain ⟨n, hn, hfound⟩ := List.mem_flatMap.mp hd'
  obtain ⟨rule, -, hrule⟩ := List.mem_flatMap.mp hfound
  obtain ⟨remark, hremark, hdiagnostic⟩ := Rule.exists_remark_of_mem_found hrule
  obtain ⟨hid, hseverity, hmessage, hline, hcolumn, hpath⟩ :=
    Remark.fields_of_diagnostic hdiagnostic
  obtain ⟨s, hs, hplace, hevidence⟩ := exists_evidence_of_remark source hn hremark
  rw [hplace] at hline hcolumn
  refine ⟨s, hs, ⟨⟨rule, hid, ?_⟩, hline, hcolumn, ?_⟩⟩
  · show Evidence source root rule d'.severity d'.message s
    rw [hseverity, hmessage]
    exact hevidence
  · show path.or d'.path = path
    rw [hpath, Option.or_none]

/-- No finding comes out of nothing. Whatever a tree looks like, each diagnostic that a scan with
all rules leaves with a collecting reporter is borne out by a subtree, at its line and column; and
these are the diagnostics that a scan hands to any other reporter, until one is not taken. -/
theorem held_justified (t : Tree) (path : Option Path) :
    (∀ d ∈ (Scan.run (Registry.ofRules Rule.all) (t.toNode source) path
        { format := .collecting }).1.reporter.held,
      ∃ n ∈ t.subtrees, Justifies source t path d n) ∧
    ∀ r : Report.Reporter,
      Prod.map Scan.State.delivery id
          (Scan.run (Registry.ofRules Rule.all) (t.toNode source) path r) =
        Prod.map id (Option.map Scan.Fault.emission)
          (Report.Reporter.emitAll (r, 0)
            (Scan.run (Registry.ofRules Rule.all) (t.toNode source) path
              { format := .collecting }).1.reporter.held) := by
  have hplaced := allPlaced_toNode source t
  rw [(Scan.held_run_collecting hplaced Rule.all path).2]
  constructor
  · intro d hd
    exact exists_justifies_of_mem_findings source hd
  · intro r
    exact Scan.delivery_run hplaced Rule.all path r

/-- A tree that calls itself a member access but has no such kind, around `(console)[log]` with an
improper span. -/
def oddAccess : Tree :=
  node ⟨"Member_expression", 3, 1, 0, 0, none, false⟩
    [node ⟨"subscript_expression", 12, 0, 4, 30, none, true⟩
        [node ⟨"parenthesized_expression", 0, 9, 0, 0, some "object", true⟩
            [node ⟨"identifier", 1, 8, 0, 1, none, true⟩ []],
          node ⟨"identifier", 10, 13, 0, 10, some "index", true⟩ []]]

/-- The bytes of `(console)[log]`. -/
def oddAccessSource : Source := [40, 99, 111, 110, 115, 111, 108, 101, 41, 91, 108, 111, 103, 93]

/-- The access in the odd tree is reported, and there is a tree that justifies it. -/
theorem held_justified_oddAccess :
    ∃ d ∈ (Scan.run (Registry.ofRules Rule.all) (oddAccess.toNode oddAccessSource) none
        { format := .collecting }).1.reporter.held,
      d.ruleId = "console-log" ∧ d.line = 5 ∧
        ∃ n ∈ oddAccess.subtrees, Justifies oddAccessSource oddAccess none d n := by
  have hheld : ((Scan.run (Registry.ofRules Rule.all) (oddAccess.toNode oddAccessSource) none
      { format := .collecting }).1.reporter.held.map fun d => (d.ruleId, d.line)) =
      [("console-log", 5)] := by decide +kernel
  have hmem : ("console-log", 5) ∈
      (Scan.run (Registry.ofRules Rule.all) (oddAccess.toNode oddAccessSource) none
        { format := .collecting }).1.reporter.held.map fun d => (d.ruleId, d.line) := by
    rw [hheld]
    exact List.mem_singleton_self _
  obtain ⟨d, hd, heq⟩ := List.mem_map.mp hmem
  obtain ⟨hid, hline⟩ := Prod.mk.inj heq
  exact ⟨d, hd, hid, hline, (held_justified oddAccessSource oddAccess none).1 d hd⟩

end ScriptAudit.Concrete.Tree
