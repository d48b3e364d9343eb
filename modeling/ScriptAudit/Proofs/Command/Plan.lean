import ScriptAudit.Proofs.Command.Actions

/-!
# The actions of a run

What a run does is laid out as a list of actions. For a node there are, rule by rule, the notes of
the rule and its findings; for a tree the actions of its nodes in pre-order and a note at the end;
for a file the notes of loading it, a header if it has one, and the actions of its tree; for a run
the actions of its files and a summary of what they found.

Each rung says that a loop of the program carries out the actions laid out for it. Nothing is
assumed of the reporter, which may fail at any of them.
-/

set_option autoImplicit false

namespace ScriptAudit.Command

open ScriptAudit.Report

/-! ## The actions of a scan -/

/-- The actions of a rule at a node. -/
def ruleActions (root : Node) (path : Option Path) (n : Node) (rule : Rule) : List Action :=
  (rule.notes (Scan.visibleTree rule root) n).map .note ++
    ((rule.found root n).map (Scan.located path)).map .emit

/-- The actions of some rules at a node. -/
def nodeActions (rules : List Rule) (root : Node) (path : Option Path) (n : Node) : List Action :=
  (rules.filter fun rule => rule.kinds.contains n.kind).flatMap (ruleActions root path n)

/-- A scan that has gone through a whole tree. -/
def scanned (rules : List Rule) (root : Node) (path : Option Path) : Scan.State :=
  { reporter := { format := .collecting }
    visited := root.size
    emitted := (Scan.findings rules root path).length }

/-- The actions of a scan. -/
def scanActions (rules : List Rule) (root : Node) (path : Option Path) : List Action :=
  root.preorder.flatMap (nodeActions rules root path) ++
    [.note (Scan.completion path (scanned rules root path))]

/-- A scan as a part of a run that has logged something before. -/
def progress (log : Log) (s : Scan.State) : Progress :=
  { reporter := s.reporter, log := log ++ s.log }

/-- Notes are logged in order. -/
theorem untilFault_act_notes (p : Progress) (log : Log) :
    untilFault act p (log.map .note) = ({ p with log := p.log ++ log }, none) := by
  induction log generalizing p with
  | nil => simp
  | cons entry log ih =>
    rw [List.map_cons, untilFault, act]
    show untilFault act { p with log := p.log ++ [entry] } (log.map .note) = _
    rw [ih, List.append_assoc, List.singleton_append]

/-- Reporting a diagnostic is an action. -/
theorem progress_report (log : Log) (s : Scan.State) (d : Diagnostic) :
    Prod.map (progress log) (Option.map Stop.scan) (Scan.report s d) =
      untilFault act (progress log s) [.emit d] := by
  rw [untilFault_singleton]
  simp only [Scan.report, act, progress]
  rcases s.reporter.emit d with ⟨r, more, _ | fault⟩ <;> simp [progress]

/-- The use of a rule at a node carries out the actions of the rule. -/
theorem progress_apply {root n : Node} (hroot : root.AllPlaced) (hn : n ∈ root.preorder)
    (path : Option Path) (log : Log) (s : Scan.State) (rule : Rule) :
    Prod.map (progress log) (Option.map Stop.scan) (Scan.apply root path n s rule) =
      untilFault act (progress log s) (ruleActions root path n rule) := by
  have hcheck : rule.check (Scan.visibleTree rule root) n = .ok (rule.found root n) := by
    rw [rule.check_visibleTree, rule.check_eq_ok_found hroot hn]
  have hemit (ds : List Diagnostic) : ds.map Action.emit = ds.flatMap fun d => [Action.emit d] :=
    List.map_eq_flatMap
  unfold Scan.apply ruleActions
  simp only [hcheck]
  rw [untilFault_simulate (progress log) Stop.scan Scan.report act (fun d => [.emit d]) _
    fun s d _ => progress_report log s d, untilFault_append, untilFault_act_notes, hemit]
  simp [progress]

/-- The visit of a node carries out the actions of the node. -/
theorem progress_visit {root n : Node} (hroot : root.AllPlaced) (hn : n ∈ root.preorder)
    (rules : List Rule) (path : Option Path) (log : Log) (s : Scan.State) :
    Prod.map (progress log) (Option.map Stop.scan)
        (Scan.visit (Registry.ofRules rules) root path s n) =
      untilFault act (progress log s) (nodeActions rules root path n) := by
  unfold Scan.visit
  rw [Registry.rulesFor_ofRules, untilFault_simulate (progress log) Stop.scan
    (Scan.apply root path n) act (ruleActions root path n) _
    fun s rule _ => progress_apply hroot hn path log s rule]
  rfl

/-- A scan carries out its actions. -/
theorem progress_run {root : Node} (hroot : root.AllPlaced) (rules : List Rule)
    (path : Option Path) (r : Reporter) (log : Log) :
    Prod.map (progress log) (Option.map Stop.scan)
        (Scan.run (Registry.ofRules rules) root path r) =
      untilFault act { reporter := r, log } (scanActions rules root path) := by
  have hloop : Prod.map (progress log) (Option.map Stop.scan)
      (untilFault (Scan.visit (Registry.ofRules rules) root path) { reporter := r } root.walk) =
      untilFault act { reporter := r, log }
        (root.preorder.flatMap (nodeActions rules root path)) := by
    rw [Node.walk_eq_preorder, untilFault_simulate (progress log) Stop.scan _ act
      (nodeActions rules root path) _ fun s n hn => progress_visit hroot hn rules path log s]
    simp [progress]
  rw [scanActions, untilFault_append, ← hloop]
  have hvisited := @Scan.visited_run (Registry.ofRules rules) root path r
  have hemitted := @Scan.emitted_run root hroot rules path r
  unfold Scan.run at hvisited hemitted ⊢
  rcases hs : untilFault (Scan.visit (Registry.ofRules rules) root path) { reporter := r }
    root.walk with ⟨s, _ | fault⟩
  · rw [hs] at hvisited hemitted
    -- the note at the end only reads the two numbers
    have hcompletion : Scan.completion path s = Scan.completion path (scanned rules root path) := by
      have hnodes : s.visited = root.size := hvisited rfl
      have hfindings : s.emitted = (Scan.findings rules root path).length := hemitted rfl
      simp only [Scan.completion, scanned, hnodes, hfindings]
    show _ = untilFault act (progress log s) [_]
    rw [untilFault_singleton]
    simp [progress, act, hcompletion]
  · rfl

/-! ## The actions of a file -/

/-- The actions of a file. -/
def fileActions (world : World) (rules : List Rule) (header : Bool) (path : Path) : List Action :=
  match world.files.load world.grammar path with
  | (none, log) => log.map .note
  | (some context, log) =>
    log.map .note ++
      ((if header then [.panel fun console => console.header path] else []) ++
        scanActions rules context.tree (some context.path))

/-- The nodes of a loaded file have proper places. -/
theorem allPlaced_of_load {files : FileTree} {grammar : Grammar} {path : Path}
    {context : Context} {log : Log} (h : files.load grammar path = (some context, log)) :
    context.tree.AllPlaced := by
  unfold FileTree.load at h
  split at h
  · cases h
  · rename_i source _
    cases h
    exact Concrete.Tree.allPlaced_toNode source _

/-- The analysis of a file carries out its actions. -/
theorem analyzeFile_eq (world : World) (rules : List Rule) (header : Bool) (p : Progress)
    (path : Path) :
    analyzeFile world (Registry.ofRules rules) header p path =
      untilFault act p (fileActions world rules header path) := by
  unfold analyzeFile fileActions
  rcases hload : world.files.load world.grammar path with ⟨_ | context, log⟩
  · exact (untilFault_act_notes p log).symm
  · have hscan (r : Reporter) := progress_run (allPlaced_of_load hload) rules (some context.path) r
      (p.log ++ log)
    simp only [untilFault_append, untilFault_act_notes]
    cases header with
    | false => exact hscan p.reporter
    | true =>
      simp only [if_true, untilFault_singleton, act, Reporter.beginFile]
      rcases p.reporter.showPanel fun console => console.header path with ⟨r, _ | fault⟩
      · exact hscan r
      · rfl

/-- The analysis of files carries out the actions of one after the other. -/
theorem untilFault_analyzeFile_eq (world : World) (rules : List Rule) (header : Bool)
    (p : Progress) (paths : List Path) :
    untilFault (analyzeFile world (Registry.ofRules rules) header) p paths =
      untilFault act p (paths.flatMap (fileActions world rules header)) :=
  untilFault_refine id _ act (fileActions world rules header) paths
    (fun p path _ => analyzeFile_eq world rules header p path) p

/-! ## The actions of a run -/

/-- An action without a fault counts its diagnostic. -/
theorem counts_act {p : Progress} {a : Action} (h : (act p a).2 = none) :
    (act p a).1.reporter.counts =
      p.reporter.counts.plus (Counts.ofDiagnostics a.diagnostic?.toList) := by
  cases a with
  | note entry => rfl
  | emit d =>
    simp only [act] at h ⊢
    obtain ⟨-, hemit⟩ | ⟨-, -, hemit⟩ | ⟨_, -, -, -, hemit⟩ | ⟨_, -, -, -, hemit⟩ :=
      p.reporter.emit_cases d
    · rw [hemit] at h
      cases h
    · rw [hemit]
      exact Counts.add_eq_plus _ d
    · rw [hemit] at h
      cases h
    · rw [hemit] at h
      cases h
  | panel content => exact (p.reporter.showPanel_frame content).1

/-- A run without a fault counts every diagnostic. -/
theorem counts_untilFault_act {p : Progress} {as : List Action}
    (h : (untilFault act p as).2 = none) :
    (untilFault act p as).1.reporter.counts =
      p.reporter.counts.plus (Counts.ofDiagnostics (as.filterMap Action.diagnostic?)) := by
  induction as generalizing p with
  | nil => rfl
  | cons a as ih =>
    have hstep := @counts_act p a
    rw [untilFault] at h ⊢
    rcases hact : act p a with ⟨q, _ | stop⟩
    · rw [hact] at h hstep
      rw [ih h, hstep rfl, Counts.plus_append]
      congr 2
      cases a <;> rfl
    · rw [hact] at h
      cases h

/-- The actions of the files of a run. -/
def filesActions (world : World) (settings : Settings) (paths : List Path) : List Action :=
  paths.flatMap (fileActions world settings.rules (1 < paths.length))

/-- The actions of a run with a fresh reporter. -/
def runActions (world : World) (settings : Settings) (paths : List Path) : List Action :=
  filesActions world settings paths ++
    if settings.format = .text ∧ settings.showSummary then
      [.panel fun _ => (Counts.ofDiagnostics
        ((filesActions world settings paths).filterMap Action.diagnostic?)).summary]
    else []

/-- A run carries out its actions. -/
theorem analyzeFiles_eq (world : World) (settings : Settings) (paths : List Path) :
    analyzeFiles world settings (reporterFor world settings.format) paths =
      untilFault act { reporter := reporterFor world settings.format }
        (runActions world settings paths) := by
  have hfiles := untilFault_analyzeFile_eq world settings.rules (1 < paths.length)
    { reporter := reporterFor world settings.format } paths
  rw [← filesActions] at hfiles
  have hcounts := @counts_untilFault_act { reporter := reporterFor world settings.format }
    (filesActions world settings paths)
  unfold analyzeFiles runActions
  simp only [hfiles, untilFault_append]
  rcases hrun : untilFault act { reporter := reporterFor world settings.format }
    (filesActions world settings paths) with ⟨p, _ | stop⟩
  · rw [hrun] at hcounts
    have hfresh : (reporterFor world settings.format).counts = {} := by
      cases settings.format <;> rfl
    -- the summary reads the counts of the reporter; these are known from the actions
    have htotal : p.reporter.counts = Counts.ofDiagnostics
        ((filesActions world settings paths).filterMap Action.diagnostic?) := by
      have hsum := hcounts rfl
      simp only [hfresh] at hsum
      simpa [Counts.plus] using hsum
    by_cases hsummary : settings.format = .text ∧ settings.showSummary
    · simp only [hsummary, and_self, if_true, untilFault_singleton, act, Reporter.summarize, htotal]
    · simp only [hsummary, if_false, untilFault_nil]
  · rfl

/-! ## From the command line to the actions -/

/-- A command line is understood, and the files of its target are collected. -/
structure Collected (files : FileTree) (args : List String) (a : Arguments) (format : OutputFormat)
    (paths : List Path) (log : Log) : Prop where
  understood : read args = .ok a
  known : OutputFormat.ofName? a.format = some format
  found : ∃ target, a.target = .ok target ∧
    collect files (files.canonical (Path.ofString target)) = (.ok paths, log)

/-- What is left of a run is the outcome of its actions, with the log that was asked for. -/
theorem run_of_collected {world : World} {args : List String} {a : Arguments}
    {format : OutputFormat} {paths : List Path} {log : Log} {p : Progress} {stop : Option Stop}
    (h : Collected world.files args a format paths log)
    (hrun : untilFault act { reporter := reporterFor world format }
      (runActions world { format, showSummary := a.summary } paths) = (p, stop)) :
    run world args =
      { outcome { p with log := log ++ p.log } stop with
        log :=
          (outcome { p with log := log ++ p.log } stop).log.atLeast (logLevel a.verbose) } := by
  obtain ⟨target, htarget, hcollect⟩ := h.found
  have hfiles := analyzeFiles_eq world { format, showSummary := a.summary } paths
  rw [hrun] at hfiles
  simp only [run, h.understood, perform, htarget, h.known, analyzeTarget, hcollect, hfiles]

/-! ## The reporter of a run -/

/-- The reporter of a run speaks. -/
theorem speaks_reporterFor (world : World) (format : OutputFormat) :
    (reporterFor world format).Speaks := by
  cases format with
  | json => exact ⟨rfl, Or.inl rfl⟩
  | text => exact ⟨rfl, Or.inr ⟨_, rfl, rfl⟩⟩

/-- The reporter of a run writes to the sink of its world. -/
@[simp] theorem sink_reporterFor (world : World) (format : OutputFormat) :
    (reporterFor world format).sink = world.sink := by
  cases format <;> rfl

/-- How the reporter of a run writes does not depend on the sink. -/
@[simp] theorem format_reporterFor (world : World) (sink : Sink) (format : OutputFormat) :
    (reporterFor { world with sink } format).format = (reporterFor world format).format := by
  cases format <;> rfl

/-- A run that there is room for writes the texts of all its actions. -/
theorem run_of_admits {world : World} {args : List String} {a : Arguments} {format : OutputFormat}
    {paths : List Path} {log : Log} (h : Collected world.files args a format paths log)
    (hroom : world.sink.Admits
      ((runActions world { format, showSummary := a.summary } paths).flatMap
        (·.texts (reporterFor world format).format)).length) :
    run world args =
      { exit := .completed
        sink := world.sink.wrote
          ((runActions world { format, showSummary := a.summary } paths).flatMap
            (·.texts (reporterFor world format).format))
        log := Log.atLeast (logLevel a.verbose)
          (log ++ (runActions world { format, showSummary := a.summary } paths).filterMap
            Action.entry?) } := by
  let p : Progress := { reporter := reporterFor world format }
  have hspeaks : p.reporter.Speaks := speaks_reporterFor world format
  rw [← sink_reporterFor world format] at hroom
  rw [run_of_collected h (untilFault_act_of_admits hspeaks hroom), ← sink_reporterFor world format]
  rfl

end ScriptAudit.Command
