import ScriptAudit.Proofs.Scan.Isolation

/-!
# Rules do not influence each other

What a scan reports is put together from blocks, one for each node that it visits. A block is what
the rules find at that node, and a rule finds the same there whatever other rules there are. So the
findings of one rule are those of a scan with that rule alone, and another order of the rules can
only change the order within a block.
-/

set_option autoImplicit false

namespace ScriptAudit.Scan

open ScriptAudit.Report

/-- What a scan reports while it is at one node. -/
def block (rules : List Rule) (root : Node) (path : Option Path) (n : Node) : List Diagnostic :=
  (findingsAt rules root n).map (located path)

/-- What is found comes in blocks, one for each node. -/
theorem findings_eq_flatMap_block (rules : List Rule) (root : Node) (path : Option Path) :
    findings rules root path = root.walk.flatMap (block rules root path) := by
  rw [findings, Node.walk_eq_preorder, List.map_flatMap, ← located_eq]
  rfl

/-- Another order of the rules gives the same block in another order. -/
theorem block_perm {order rules : List Rule} (h : order.Perm rules) (root : Node)
    (path : Option Path) (n : Node) :
    (block order root path n).Perm (block rules root path n) := by
  have hlooking := h.filter fun rule => rule.kinds.contains n.kind
  have hfound := hlooking.flatMap_right fun rule => rule.found root n
  exact hfound.map (located path)

/-- A scan of a well-placed tree into a collecting reporter goes well, visits every node of the
walk, and leaves the blocks of these nodes, one behind the other. -/
theorem run_collecting_blocks {root : Node} (hroot : root.AllPlaced) (rules : List Rule)
    (path : Option Path) :
    let scan := run (Registry.ofRules rules) root path { format := .collecting }
    scan.2 = none ∧ scan.1.visited = root.walk.length ∧
      scan.1.reporter.held = root.walk.flatMap (block rules root path) := by
  obtain ⟨hnone, hheld⟩ := held_run_collecting hroot rules path
  refine ⟨hnone, ?_, ?_⟩
  · rw [visited_run hnone, Node.walk_eq_preorder, Node.length_preorder]
  · rw [hheld, findings_eq_flatMap_block]

/-- **Rules do not influence each other.** Let a tree be well placed. A scan with any list of rules
goes well, visits each node of the walk once, and reports one block for each of them; a reporter
that is reliable for these diagnostics is given the same ones. With rules that are all different,
the part of the report that is about one of them is the report of a scan with that rule alone, in
the same order. With the same rules in another order the same number of nodes is visited, and the
block of each node is a permutation of what it was. -/
theorem run_separates_rules (rules : List Rule) (root : Node) (path : Option Path)
    (hnodup : rules.Nodup) (hroot : root.AllPlaced) :
    let scan (rules : List Rule) :=
      run (Registry.ofRules rules) root path { format := .collecting }
    (∀ order,
      (scan order).2 = none ∧ (scan order).1.visited = root.walk.length ∧
        (scan order).1.reporter.held = root.walk.flatMap (block order root path) ∧
        ∀ r : Reporter, r.Reliable (scan order).1.reporter.held →
          (run (Registry.ofRules order) root path r).2 = none ∧
            (run (Registry.ofRules order) root path r).1.visited = (scan order).1.visited ∧
            (run (Registry.ofRules order) root path r).1.reporter =
              r.after (scan order).1.reporter.held) ∧
    (∀ rule ∈ rules,
      (scan rules).1.reporter.held.filter (·.ruleId = rule.id) =
        (scan [rule]).1.reporter.held) ∧
    ∀ order, order.Perm rules →
      (scan order).1.visited = (scan rules).1.visited ∧
        ∀ n ∈ root.walk, (block order root path n).Perm (block rules root path n) := by
  intro scan
  have hblocks (order : List Rule) := run_collecting_blocks hroot order path
  have hheld (order : List Rule) := (held_run_collecting hroot order path).2
  refine ⟨?_, ?_, ?_⟩
  · intro order
    obtain ⟨hnone, hvisited, hreport⟩ := hblocks order
    refine ⟨hnone, hvisited, hreport, ?_⟩
    intro r hr
    rw [hheld] at hr ⊢
    have hdelivery := delivery_run hroot order path r
    rw [Reporter.emitAll_of_reliable hr] at hdelivery
    have hnone' : (run (Registry.ofRules order) root path r).2 = none :=
      congrArg Prod.snd hdelivery
    refine ⟨hnone', ?_, congrArg (fun result => result.1.1) hdelivery⟩
    rw [visited_run hnone', visited_run hnone]
  · intro rule hrule
    rw [hheld, hheld, filter_ruleId_findings hnodup hrule]
  · intro order horder
    refine ⟨?_, fun n _ => block_perm horder root path n⟩
    rw [(hblocks order).2.1, (hblocks rules).2.1]

/-- The access `console.log` at offset 5. -/
def logAccess : Node :=
  .member ⟨"MemberExpression", 5, 16, 1, 6⟩
    (some (.identifier ⟨"Identifier", 5, 12, 1, 6⟩ (some "console")))
    (some (.identifier ⟨"Identifier", 13, 16, 1, 14⟩ (some "log"))) false

/-- The tree of `eval(console.log)`. -/
def evalOfLog : Node :=
  .generic ⟨"Program", 0, 17, 1, 1⟩
    [.call ⟨"CallExpression", 0, 17, 1, 1⟩
      (some (.identifier ⟨"Identifier", 0, 4, 1, 1⟩ (some "eval"))) [logAccess]]

/-- The call comes before its argument although its rule comes last, and each of the two findings is
the only one of its rule. -/
theorem run_separates_rules_evalOfLog :
    evalOfLog.AllPlaced ∧ [Rule.consoleLog, .evalCall].Nodup ∧
      ((run (Registry.ofRules [.consoleLog, .evalCall]) evalOfLog none
        { format := .collecting }).1.reporter.held.map fun d => (d.ruleId, d.column)) =
        [("eval-call", some 1), ("console-log", some 6)] ∧
      (run (Registry.ofRules [.consoleLog, .evalCall]) evalOfLog none
          { format := .collecting }).1.reporter.held.filter (·.ruleId = Rule.evalCall.id) =
        (run (Registry.ofRules [.evalCall]) evalOfLog none
          { format := .collecting }).1.reporter.held ∧
      (run (Registry.ofRules [.evalCall, .consoleLog]) evalOfLog none
          { format := .collecting }).1.visited =
        (run (Registry.ofRules [.consoleLog, .evalCall]) evalOfLog none
          { format := .collecting }).1.visited := by
  have hpreorder : evalOfLog.preorder =
      [evalOfLog,
        .call ⟨"CallExpression", 0, 17, 1, 1⟩
          (some (.identifier ⟨"Identifier", 0, 4, 1, 1⟩ (some "eval"))) [logAccess],
        .identifier ⟨"Identifier", 0, 4, 1, 1⟩ (some "eval"), logAccess,
        .identifier ⟨"Identifier", 5, 12, 1, 6⟩ (some "console"),
        .identifier ⟨"Identifier", 13, 16, 1, 14⟩ (some "log")] := by
    simp [evalOfLog, logAccess, Node.preorder_eq, Node.children]
  have hroot : evalOfLog.AllPlaced := by
    unfold Node.AllPlaced
    rw [hpreorder]
    simp [Node.IsPlaced, evalOfLog, logAccess, Node.head]
  have hnodup : [Rule.consoleLog, .evalCall].Nodup := by decide
  obtain ⟨hreports, halone, horder⟩ :=
    run_separates_rules [.consoleLog, .evalCall] evalOfLog none hnodup hroot
  obtain ⟨-, -, hheld, -⟩ := hreports [.consoleLog, .evalCall]
  refine ⟨hroot, hnodup, ?_, halone .evalCall (by decide), (horder _ (.swap _ _ _)).1⟩
  rw [hheld, Node.walk_eq_preorder, hpreorder]
  rfl

end ScriptAudit.Scan
