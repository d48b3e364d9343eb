import ScriptAudit.Proofs.Report.Emission
import ScriptAudit.Proofs.Rule.Placement
import ScriptAudit.Proofs.Rule.Selection

/-!
# What a scan reports

`Scan.findings` says what a scan has to report without a loop: go through the nodes of the tree in
pre-order, at each node through the rules that look at its kind, in the order in which they were
given, and put together what they find.

It is a ladder. Reporting one diagnostic hands it over; applying a rule hands over what the rule
finds; visiting a node hands over what its rules find; and a scan hands over the findings. Each rung
is the loop above it, seen through the reporter and the number of diagnostics it has taken. This
holds for every reporter, also for one that fails on the way.

A reporter that takes all of them is then given exactly the findings.
-/

set_option autoImplicit false

namespace ScriptAudit.Scan

open ScriptAudit.Report

/-! ## The findings of a scan -/

/-- What a list of rules finds at one node of a tree. -/
def findingsAt (rules : List Rule) (root n : Node) : List Diagnostic :=
  (rules.filter fun rule => rule.kinds.contains n.kind).flatMap fun rule => rule.found root n

/-- What a scan has to report: the findings at all nodes in pre-order, in the file of the scan if
there is one, and otherwise as they are. -/
def findings (rules : List Rule) (root : Node) (path : Option Path) : List Diagnostic :=
  (root.preorder.flatMap (findingsAt rules root)).map fun d => { d with path := path.or d.path }

/-- A diagnostic is put in the file of the scan, and nothing else about it changes. -/
theorem located_eq (path : Option Path) :
    located path = fun d => { d with path := path.or d.path } := by
  funext d
  cases path <;> rfl

/-! ## A scan hands over its findings -/

/-- The part of the state that reporting depends on. -/
def State.delivery (s : State) : Reporter.Delivery := (s.reporter, s.emitted)

/-- Hands over one diagnostic, as a step of a scan. -/
def hand (s : Reporter.Delivery) (d : Diagnostic) : Reporter.Delivery × Option Fault :=
  Prod.map id (Option.map .emission) (Reporter.deliver s d)

/-- Reporting one diagnostic hands it over. -/
theorem delivery_report (s : State) (d : Diagnostic) :
    Prod.map State.delivery id (report s d) = untilFault hand s.delivery [d] := by
  have hreporter : s.delivery.1 = s.reporter := rfl
  simp only [report, untilFault, hand, Reporter.deliver, hreporter]
  rcases s.reporter.emit d with ⟨r, log, _ | fault⟩ <;> rfl

/-- Applying a rule hands over what it finds. -/
theorem delivery_apply {root n : Node} (hroot : root.AllPlaced) (hn : n ∈ root.preorder)
    (path : Option Path) (s : State) (rule : Rule) :
    Prod.map State.delivery id (apply root path n s rule) =
      untilFault hand s.delivery ((rule.found root n).map (located path)) := by
  have hcheck : rule.check (visibleTree rule root) n = .ok (rule.found root n) := by
    rw [rule.check_visibleTree, rule.check_eq_ok_found hroot hn]
  unfold apply
  simp only [hcheck]
  rw [untilFault_refine State.delivery report hand (fun d => [d]) _
    fun s d _ => delivery_report s d, List.flatMap_singleton']
  rfl

/-- Visiting a node hands over what the rules for its kind find there. -/
theorem delivery_visit {root n : Node} (hroot : root.AllPlaced) (hn : n ∈ root.preorder)
    (rules : List Rule) (path : Option Path) (s : State) :
    Prod.map State.delivery id (visit (Registry.ofRules rules) root path s n) =
      untilFault hand s.delivery ((findingsAt rules root n).map (located path)) := by
  unfold visit
  rw [Registry.rulesFor_ofRules, untilFault_refine State.delivery (apply root path n) hand
    (fun rule => (rule.found root n).map (located path)) _
    fun s rule _ => delivery_apply hroot hn path s rule, findingsAt, List.map_flatMap]
  rfl

/-- A scan hands over its findings, whatever the reporter does with them. -/
theorem delivery_run {root : Node} (hroot : root.AllPlaced) (rules : List Rule)
    (path : Option Path) (r : Reporter) :
    Prod.map State.delivery id (run (Registry.ofRules rules) root path r) =
      Prod.map id (Option.map .emission) (Reporter.emitAll (r, 0) (findings rules root path)) := by
  have hloop : Prod.map State.delivery id
      (untilFault (visit (Registry.ofRules rules) root path) { reporter := r } root.walk) =
      untilFault hand (r, 0) (findings rules root path) := by
    rw [Node.walk_eq_preorder, untilFault_refine State.delivery _ hand
      (fun n => (findingsAt rules root n).map (located path)) _
      fun s n hn => delivery_visit hroot hn rules path s, findings, List.map_flatMap, located_eq]
    rfl
  rw [Reporter.emitAll, ← untilFault_mapFault]
  show _ = untilFault hand (r, 0) (findings rules root path)
  rw [← hloop]
  -- the log entry at the end is no part of what is delivered
  unfold run
  rcases untilFault (visit (Registry.ofRules rules) root path) { reporter := r } root.walk with
    ⟨s, _ | fault⟩ <;> rfl

/-! ## A scan visits every node -/

/-- Applying a rule visits no node. -/
theorem visited_apply (root n : Node) (path : Option Path) (s : State) (rule : Rule)
    (h : (apply root path n s rule).2 = none) :
    (apply root path n s rule).1.visited = s.visited := by
  unfold apply at h ⊢
  cases hcheck : rule.check (visibleTree rule root) n with
  | error faults => simp [hcheck] at h
  | ok found =>
    simp only [hcheck] at h ⊢
    have hreport (s : State) (d : Diagnostic) (_ : (report s d).2 = none) :
        (report s d).1.visited = s.visited + 0 := by
      unfold report
      rcases s.reporter.emit d with ⟨r, log, _ | fault⟩ <;> rfl
    simpa using untilFault_gain State.visited 0 report hreport _ _ h

/-- Visiting a node counts it. -/
theorem visited_visit (registry : Registry) (root n : Node) (path : Option Path) (s : State)
    (h : (visit registry root path s n).2 = none) :
    (visit registry root path s n).1.visited = s.visited + 1 := by
  unfold visit at h ⊢
  have happly := untilFault_gain State.visited 0 (apply root path n)
    (fun s rule => visited_apply root n path s rule) _ _ h
  simpa using happly

/-- A scan that goes well visits every node of the tree once. -/
theorem visited_run {registry : Registry} {root : Node} {path : Option Path} {r : Reporter}
    (h : (run registry root path r).2 = none) :
    (run registry root path r).1.visited = root.size := by
  have hloop := untilFault_gain State.visited 1 (visit registry root path)
    (fun s n => visited_visit registry root n path s) { reporter := r } root.walk
  unfold run at h ⊢
  rcases hs : untilFault (visit registry root path) { reporter := r } root.walk with
    ⟨s, _ | fault⟩
  · rw [hs] at hloop
    have hvisited := hloop rfl
    simp only at hvisited ⊢
    rw [hvisited, Node.walk_eq_preorder, Node.length_preorder]
    omega
  · simp [hs] at h

/-- A scan that goes well counts each of its findings. -/
theorem emitted_run {root : Node} (hroot : root.AllPlaced) {rules : List Rule}
    {path : Option Path} {r : Reporter} (h : (run (Registry.ofRules rules) root path r).2 = none) :
    (run (Registry.ofRules rules) root path r).1.emitted = (findings rules root path).length := by
  have hdelivery := delivery_run hroot rules path r
  have hnone : (Reporter.emitAll (r, 0) (findings rules root path)).2 = none := by
    have hfault := congrArg Prod.snd hdelivery
    rw [Prod.map_snd, Prod.map_snd, id, h] at hfault
    exact Option.map_eq_none_iff.mp hfault.symm
  have hdeliver (s : Reporter.Delivery) (d : Diagnostic) (hd : (Reporter.deliver s d).2 = none) :
      (Reporter.deliver s d).1.2 = s.2 + 1 := by
    unfold Reporter.deliver at hd ⊢
    rcases hemit : s.1.emit d with ⟨r', log, _ | fault⟩
    · rfl
    · rw [hemit] at hd
      cases hd
  calc
    (run (Registry.ofRules rules) root path r).1.emitted
      = (Reporter.emitAll (r, 0) (findings rules root path)).1.2 :=
        congrArg (fun result => result.1.2) hdelivery
    _ = 0 + 1 * (findings rules root path).length :=
        untilFault_gain Prod.snd 1 Reporter.deliver hdeliver (r, 0) _ hnone
    _ = (findings rules root path).length := by omega

/-! ## A reporter that takes the findings is given exactly these -/

/-- A scan of a well-placed tree with a reporter that is reliable goes well and reports exactly its
findings: the checks of all rules at all nodes succeed, the reporter has taken what they found,
and the numbers of nodes and of diagnostics are those of the tree and of the findings. -/
theorem run_reports_findings (rules : List Rule) (root : Node) (path : Option Path) (r : Reporter)
    (hroot : root.AllPlaced) (hr : r.Reliable (findings rules root path)) :
    (∀ rule : Rule, ∀ n ∈ root.preorder, rule.check (some root) n = .ok (rule.found root n)) ∧
    (run (Registry.ofRules rules) root path r).2 = none ∧
    (run (Registry.ofRules rules) root path r).1.reporter =
      r.after (findings rules root path) ∧
    (run (Registry.ofRules rules) root path r).1.emitted = (findings rules root path).length ∧
    (run (Registry.ofRules rules) root path r).1.visited = root.size ∧
    root.count = root.size ∧ root.census.nodes = root.size := by
  have hdelivery := delivery_run hroot rules path r
  rw [Reporter.emitAll_of_reliable hr, Nat.zero_add] at hdelivery
  have hnone : (run (Registry.ofRules rules) root path r).2 = none :=
    congrArg Prod.snd hdelivery
  have hstate : (run (Registry.ofRules rules) root path r).1.delivery =
      (r.after (findings rules root path), (findings rules root path).length) :=
    congrArg Prod.fst hdelivery
  refine ⟨fun rule n hn => rule.check_eq_ok_found hroot hn, hnone, congrArg Prod.fst hstate,
    congrArg Prod.snd hstate, visited_run hnone, root.count_eq_size, root.nodes_census_eq_size⟩

/-- A call of `eval`; its argument calls itself a call but has no such shape. -/
def evalScript : Node :=
  .generic ⟨"Program", 0, 9, 1, 1⟩
    [.call ⟨"CallExpression", 0, 9, 1, 1⟩
      (some (.identifier ⟨"Identifier", 0, 4, 1, 1⟩ (some "eval")))
      [.generic ⟨"CallExpression", 5, 8, 1, 6⟩ []]]

/-- A rule that is given twice finds the call twice, and the node that only calls itself a call is
visited without a finding. -/
theorem run_reports_findings_evalScript :
    evalScript.AllPlaced ∧
    ({ format := .collecting } : Reporter).Reliable
      (findings [.evalCall, .consoleLog, .evalCall] evalScript none) ∧
    ((run (Registry.ofRules [.evalCall, .consoleLog, .evalCall]) evalScript none
      { format := .collecting }).1.reporter.held.map fun d => (d.ruleId, d.line, d.column)) =
      [("eval-call", 1, some 1), ("eval-call", 1, some 1)] ∧
    (run (Registry.ofRules [.evalCall, .consoleLog, .evalCall]) evalScript none
      { format := .collecting }).1.visited = 4 := by
  have hpreorder : evalScript.preorder =
      [evalScript,
        .call ⟨"CallExpression", 0, 9, 1, 1⟩
          (some (.identifier ⟨"Identifier", 0, 4, 1, 1⟩ (some "eval")))
          [.generic ⟨"CallExpression", 5, 8, 1, 6⟩ []],
        .identifier ⟨"Identifier", 0, 4, 1, 1⟩ (some "eval"),
        .generic ⟨"CallExpression", 5, 8, 1, 6⟩ []] := by
    simp [evalScript, Node.preorder_eq, Node.children]
  have hroot : evalScript.AllPlaced := by
    unfold Node.AllPlaced
    rw [hpreorder]
    simp [Node.IsPlaced, evalScript, Node.head]
  have hr : ({ format := .collecting } : Reporter).Reliable
      (findings [.evalCall, .consoleLog, .evalCall] evalScript none) := by
    apply Reporter.reliable_of_unlimited _ rfl rfl
    intro console h
    cases h
  obtain ⟨-, -, hreporter, -, hvisited, -, -⟩ := run_reports_findings
    [.evalCall, .consoleLog, .evalCall] evalScript none { format := .collecting } hroot hr
  refine ⟨hroot, hr, ?_, ?_⟩
  · rw [hreporter]
    simp only [findings, hpreorder]
    rfl
  · rw [hvisited, ← Node.length_preorder, hpreorder]
    rfl

end ScriptAudit.Scan
