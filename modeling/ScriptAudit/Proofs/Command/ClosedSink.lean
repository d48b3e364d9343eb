import ScriptAudit.Proofs.Command.Channels

/-!
# A sink that is closed

A closed sink cuts a run off like a full disk does, but it is not always taken for a failure of the
output. A diagnostic that cannot be written is a fault of the scan, and the command reports it. A
header or a summary that cannot be written is a fault of its own, which the command does not know:
the run ends there with exit code 1, and nothing is said about it.

So what a run does at a closed sink is decided by what the write belongs to that fails. The writes
of a run are those of its headers, of its diagnostics file by file, and of the summary.
-/

set_option autoImplicit false

namespace ScriptAudit.Command

open ScriptAudit.Report

/-- What a write of a run belongs to: a diagnostic, or the panel of a header or of the summary. -/
inductive Origin where
  | diagnostic
  | panel
  deriving DecidableEq, Repr

/-- What the writes of a run belong to, one by one: for each file the panel of its header if it has
one and then its diagnostics, and at the end the panel of the summary. -/
def writeOrigins (world : World) (settings : Settings) (paths : List Path) : List Origin :=
  (paths.flatMap fun path =>
    (if 1 < paths.length ∧ (world.files.read path).isOk then
      (headerTexts world settings.format path).map fun _ => .panel else []) ++
    (part world settings path).writes.map fun _ => .diagnostic) ++
  (summaryTexts world settings (Part.sumCounts (paths.map (part world settings)))).map fun _ =>
    .panel

/-- What the texts of an action belong to. -/
def Action.origins (format : Format) (a : Action) : List Origin :=
  (a.texts format).map fun _ =>
    match a with
    | panel _ => .panel
    | _ => .diagnostic

/-! ## The origins of a run -/

/-- Where no panel is shown every write is one of a diagnostic. -/
theorem flatMap_origins_of_no_panel {format : Format} {as : List Action}
    (h : ∀ content, .panel content ∉ as) :
    as.flatMap (·.origins format) = (as.flatMap (·.texts format)).map fun _ => .diagnostic := by
  rw [List.map_flatMap]
  apply List.flatMap_congr
  intro a ha
  cases a with
  | note entry => rfl
  | emit d => rfl
  | panel content => exact absurd ha (h content)

/-- A scan shows no panels. -/
theorem panel_notMem_scanActions (rules : List Rule) (root : Node) (path : Option Path)
    (content : Console → Panel) : .panel content ∉ scanActions rules root path := by
  intro h
  rcases List.mem_append.mp h with h | h
  · obtain ⟨n, -, hn⟩ := List.mem_flatMap.mp h
    obtain ⟨rule, -, hrule⟩ := List.mem_flatMap.mp hn
    rcases List.mem_append.mp hrule with hnote | hemit
    · obtain ⟨entry, -, heq⟩ := List.mem_map.mp hnote
      cases heq
    · obtain ⟨d, -, heq⟩ := List.mem_map.mp hemit
      cases heq
  · cases List.mem_singleton.mp h

/-- The writes of a file are those of its header, if it has one, and those of its diagnostics. -/
theorem flatMap_origins_fileActions (world : World) (settings : Settings) (header : Bool)
    (path : Path) :
    (fileActions world settings.rules header path).flatMap
        (·.origins (reporterFor world settings.format).format) =
      (if header && (world.files.read path).isOk then
        (headerTexts world settings.format path).map fun _ => .panel else []) ++
      (part world settings path).writes.map fun _ => .diagnostic := by
  have hread := isSome_load world.files world.grammar path
  have hnotes (log : Log) : (log.map Action.note).flatMap
      (·.origins (reporterFor world settings.format).format) = [] := by
    rw [List.flatMap_map]
    exact List.flatMap_eq_nil_iff.mpr fun _ _ => rfl
  unfold fileActions part
  rcases hload : world.files.load world.grammar path with ⟨_ | context, log⟩
  · rw [hload] at hread
    rw [← hread]
    simp [hnotes]
  · rw [hload] at hread
    have hscan := congrArg Part.writes (ofActions_scanActions (allPlaced_of_load hload)
      settings.rules (some context.path) world settings.format)
    simp only [Part.ofActions] at hscan
    have hscanned := @flatMap_origins_of_no_panel (reporterFor world settings.format).format _
      (panel_notMem_scanActions settings.rules context.tree (some context.path))
    rw [hscan] at hscanned
    rw [← hread]
    simp only [List.flatMap_append, hnotes, List.nil_append, hscanned, Scan.runFile]
    cases header with
    | false => rfl
    | true =>
      rw [if_pos rfl, List.flatMap_singleton]
      rfl

/-- The actions of a run write for the headers, the diagnostics and the summary in that order. -/
theorem flatMap_origins_runActions (world : World) (settings : Settings) (paths : List Path) :
    (runActions world settings paths).flatMap
        (·.origins (reporterFor world settings.format).format) =
      writeOrigins world settings paths := by
  rw [runActions, ofDiagnostics_filesActions, List.flatMap_append, filesActions,
    List.flatMap_assoc, writeOrigins]
  congr 1
  · apply List.flatMap_congr
    intro path _
    rw [flatMap_origins_fileActions]
    simp
  · unfold summaryTexts
    split
    · rw [List.flatMap_singleton]
      rfl
    · rfl

/-- There is an origin for every write. -/
theorem length_flatMap_origins (format : Format) (as : List Action) :
    (as.flatMap (·.origins format)).length = (as.flatMap (·.texts format)).length := by
  simp [List.length_flatMap, Action.origins]

/-! ## A run that meets a closed sink -/

/-- How a run ends when a write fails because the sink is closed. -/
def Origin.closedExit : Origin → Exit
  | diagnostic => .outputFailed
  | panel => .unhandled (.panel .closed)

/-- What the command reports when a write fails because the sink is closed. -/
def Origin.closedReports : Origin → Log
  | diagnostic => [failureEntry "failed to write diagnostic: I/O operation on closed file"]
  | panel => []

/-- No note of a run reports a failure. -/
theorem reportsFailure_of_mem_runActions {world : World} {settings : Settings} {paths : List Path}
    {entry : Log.Entry} (h : .note entry ∈ runActions world settings paths) :
    reportsFailure entry = false := by
  have hlog := (ofActions_runActions world settings paths).2
  have hentry : entry ∈ (runActions world settings paths).filterMap Action.entry? :=
    mem_filterMap_entry?.mpr h
  simp only [Part.ofActions] at hlog
  rw [hlog, List.mem_flatMap] at hentry
  obtain ⟨path, -, hpart⟩ := hentry
  exact reportsFailure_of_channel (channel_of_mem_part hpart)

/-- The action whose text is the one that fails is of the origin of that write. -/
theorem mem_origins_of_getElem? {format : Format} {before rest : List Action} {a : Action}
    {origin : Origin} {n : Nat} (hreached : (before.flatMap (·.texts format)).length ≤ n)
    (hmissed : n < (before.flatMap (·.texts format)).length + (a.texts format).length)
    (h : ((before ++ a :: rest).flatMap (·.origins format))[n]? = some origin) :
    origin ∈ a.origins format := by
  rw [← length_flatMap_origins] at hreached hmissed
  have hlength : (a.origins format).length = (a.texts format).length := List.length_map _
  rw [List.flatMap_append, List.getElem?_append_right hreached, List.flatMap_cons,
    List.getElem?_append_left (by omega)] at h
  exact List.mem_of_getElem? h

/-- A run at a closed sink is decided by what the write belongs to that fails. -/
theorem run_of_origin {world : World} {args : List String} {a : Arguments} {format : OutputFormat}
    {paths : List Path} {log : Log} {n : Nat} {origin : Origin}
    (h : Collected world.files args a format paths log) (hroom : world.sink.room = some n)
    (hclosed : world.sink.fault = .closed)
    (horigin : (writeOrigins world { format, showSummary := a.summary } paths)[n]? =
      some origin) :
    (run world args).exit = origin.closedExit ∧
      (run world args).log.filter reportsFailure = origin.closedReports ∧
      (run world args).sink.writes = world.sink.writes ++
        ((runActions world { format, showSummary := a.summary } paths).flatMap
          (·.texts (reporterFor world format).format)).take n := by
  let settings : Settings := { format, showSummary := a.summary }
  let p : Progress := { reporter := reporterFor world format }
  have hsink : p.reporter.sink = world.sink := sink_reporterFor world format
  have hfault : p.reporter.sink.fault = .closed := by rw [hsink, hclosed]
  have hspeaks : p.reporter.Speaks := speaks_reporterFor world format
  have hleft : p.reporter.sink.room = some n := by rw [hsink, hroom]
  have hactions := flatMap_origins_runActions world settings paths
  rw [← hactions] at horigin
  have hlt : n < ((runActions world settings paths).flatMap
      (·.texts p.reporter.format)).length := by
    rw [← length_flatMap_origins]
    exact (List.getElem?_eq_some_iff.mp horigin).1
  obtain ⟨before, action, rest, q, hsplit, hrun, hreached, hmissed, hwrites, hlog⟩ :=
    exists_untilFault_act_of_lt hspeaks hleft hlt
  have hstop : untilFault act p (runActions world settings paths) =
      (q, some (action.stop .closed)) := by
    rw [hsplit, hrun, hfault]
  rw [hsplit] at horigin
  have hmem : origin ∈ action.origins p.reporter.format :=
    mem_origins_of_getElem? hreached hmissed horigin
  -- nothing that was logged before the write is taken for a failure of the command
  have hquiet : ∀ entry ∈ log ++ before.filterMap Action.entry?, reportsFailure entry = false := by
    intro entry hentry
    rcases List.mem_append.mp hentry with hcollected | hbefore
    · obtain ⟨target, -, hcollect⟩ := h.found
      apply @reportsFailure_of_mem_collect world.files
      rw [hcollect]
      exact hcollected
    · apply @reportsFailure_of_mem_runActions world settings paths
      rw [hsplit]
      exact List.mem_append_left _ ( mem_filterMap_entry?.mp hbefore)
  have hnone : (log ++ before.filterMap Action.entry?).filter reportsFailure = [] := by
    apply List.filter_eq_nil_iff.mpr
    intro entry hentry
    rw [hquiet entry hentry]
    exact Bool.false_ne_true
  have hentries : log ++ q.log = log ++ before.filterMap Action.entry? ++
      action.failureLog .closed := by
    rw [hlog, hfault, List.append_assoc, List.append_assoc]
    rfl
  rw [run_of_collected h hstop]
  refine ⟨?_, ?_, ?_⟩
  · cases action with
    | note entry => cases hmem
    | emit d =>
      obtain ⟨text, -, rfl⟩ := List.mem_map.mp hmem
      rfl
    | panel content =>
      obtain ⟨text, -, rfl⟩ := List.mem_map.mp hmem
      rfl
  · rw [filter_reportsFailure_atLeast]
    cases action with
    | note entry => cases hmem
    | emit d =>
      obtain ⟨text, -, rfl⟩ := List.mem_map.mp hmem
      simp only [outcome, Action.stop, Stop.outputFailure?, hentries, List.filter_append, hnone]
      rfl
    | panel content =>
      obtain ⟨text, -, rfl⟩ := List.mem_map.mp hmem
      simp only [outcome, Action.stop, Stop.outputFailure?, hentries, List.filter_append, hnone]
      rfl
  · have hwritten : (outcome { q with log := log ++ q.log } (some (action.stop .closed))).sink =
        q.reporter.sink := by
      cases action <;> rfl
    rw [hwritten, hwrites, hsink]

/-- **At a closed sink the failing write decides how a run ends.** Let a command line be understood
and the files of its target be collected, and let the sink take `n` writes and then be closed. The
writes before that are those of the run with an empty sink. If the next one belongs to a diagnostic,
the command fails with exit code 2 and this failure is the one that it reports. If it belongs to a
header or to the summary, the fault is not handled: the exit code is 1 and nothing is reported. -/
theorem run_cut_by_closed_sink (world : World) (args : List String) (a : Arguments)
    (format : OutputFormat) (paths : List Path) (log : Log) (n : Nat)
    (h : Collected world.files args a format paths log) :
    let full := run { world with sink := {} } args
    let limited := run { world with sink := { room := some n, fault := .closed } } args
    let origins := writeOrigins world { format, showSummary := a.summary } paths
    full.exit = .completed ∧ origins.length = full.sink.writes.length ∧
      (n < full.sink.writes.length → limited.sink.writes = full.sink.writes.take n) ∧
      (origins[n]? = some .diagnostic →
        limited.exit = .outputFailed ∧ limited.exit.code = 2 ∧
          limited.log.filter reportsFailure =
            [failureEntry "failed to write diagnostic: I/O operation on closed file"]) ∧
      (origins[n]? = some .panel →
        limited.exit = .unhandled (.panel .closed) ∧ limited.exit.code = 1 ∧
          limited.log.filter reportsFailure = []) := by
  intro full limited origins
  let settings : Settings := { format, showSummary := a.summary }
  let closed : World := { world with sink := { room := some n, fault := .closed } }
  have hempty : Collected ({ world with sink := {} } : World).files args a format paths log := h
  have hclosed : Collected closed.files args a format paths log := h
  have hfull : full = _ := run_of_admits hempty (Sink.admits_of_unlimited rfl _)
  have hwrites : full.sink.writes = (runActions world settings paths).flatMap
      (·.texts (reporterFor world format).format) := by
    rw [hfull, format_reporterFor]
    rfl
  have hlength : origins.length = full.sink.writes.length := by
    rw [hwrites, ← length_flatMap_origins]
    exact congrArg List.length (flatMap_origins_runActions world settings paths).symm
  -- neither the actions nor the origins depend on the sink
  have hactions : runActions closed settings paths = runActions world settings paths := rfl
  have horigins : writeOrigins closed settings paths = origins := by
    rw [← flatMap_origins_runActions, format_reporterFor]
    exact flatMap_origins_runActions world settings paths
  have hlimited {origin : Origin} (horigin : origins[n]? = some origin) :
      limited.exit = origin.closedExit ∧
        limited.log.filter reportsFailure = origin.closedReports ∧
        limited.sink.writes = full.sink.writes.take n := by
    rw [← horigins] at horigin
    have hrun := run_of_origin hclosed rfl rfl horigin
    rw [hactions, format_reporterFor, ← hwrites] at hrun
    exact hrun
  refine ⟨by rw [hfull], hlength, ?_, ?_, ?_⟩
  · intro hlt
    rw [← hlength] at hlt
    exact (hlimited (List.getElem?_eq_getElem hlt)).2.2
  · intro horigin
    obtain ⟨hexit, hreports, -⟩ := hlimited horigin
    exact ⟨hexit, by rw [hexit]; rfl, hreports⟩
  · intro horigin
    obtain ⟨hexit, hreports, -⟩ := hlimited horigin
    exact ⟨hexit, by rw [hexit]; rfl, hreports⟩

/-! ## A project with one file -/

/-- The only file. -/
def loneFile : Path := FileTree.pathOf ["a.js"]

/-- One file that calls `eval`. -/
def loneProject : World where
  files :=
    { entries := [("a.js", .file none [101, 118, 97, 108, 40, 120, 41])]
      workingDirectory := { root := .slash, segments := [] } }
  grammar := fun _ => evalParse

/-- The only file is found. -/
theorem entry_loneFile :
    loneProject.files.entry loneFile = .ok (.file none [101, 118, 97, 108, 40, 120, 41]) :=
  entry_of_entryNamed? "a.js" (by decide) (by decide) (by decide) rfl

/-- The only file is what is collected. -/
theorem collected_loneProject :
    Collected loneProject.files ["analyze", "/a.js"] { targets := ["/a.js"] } .text
      [loneFile] [] := by
  have hpath : Path.ofString "/a.js" = loneFile := by decide
  have hcanonical : loneProject.files.canonical loneFile = loneFile := by
    have hresolve : loneProject.files.resolve 0 [] [] ["a.js"] = .resolved ["a.js"] := by
      rw [FileTree.resolve.eq_def]
      show FileTree.resolve _ _ _ ["a.js"] [] = _
      rw [FileTree.resolve.eq_def]
    have hsegments : (loneProject.files.absolute loneFile).segments = ["a.js"] := rfl
    have hlinks : Entry.linkCountIn loneProject.files.entries = 0 := rfl
    rw [FileTree.canonical, hsegments, hlinks, hresolve]
    rfl
  refine ⟨by decide, by decide, "/a.js", rfl, ?_⟩
  have hscript : loneFile.isScript = true := by decide
  rw [hpath, hcanonical, collect, entry_loneFile]
  simp only [Entry.isReadable, hscript, if_true, reduceCtorEq, ne_eq, not_false_eq_true,
    decide_true, Bool.not_true, Bool.false_eq_true, if_false]

/-- The run writes a diagnostic and a summary. -/
theorem writeOrigins_loneProject :
    writeOrigins loneProject {} [loneFile] = [.diagnostic, .panel, .panel] := by
  have hread : loneProject.files.read loneFile = .ok [101, 118, 97, 108, 40, 120, 41] := by
    rw [FileTree.read, entry_loneFile]
    rfl
  have hpart : (part loneProject {} loneFile).writes =
      ["line 1: dangerous use of eval() method\n"] := by
    rw [part, FileTree.load, hread]
    decide +kernel
  rw [writeOrigins, List.flatMap_singleton, hpart]
  rfl

/-- The diagnostic meets a closed sink. -/
theorem run_cut_by_closed_sink_diagnostic :
    Collected loneProject.files ["analyze", "/a.js"] { targets := ["/a.js"] } .text [loneFile] [] ∧
      (run { loneProject with sink := { room := some 0, fault := .closed } }
        ["analyze", "/a.js"]).exit.code = 2 := by
  have horigin : (writeOrigins loneProject {} [loneFile])[0]? = some .diagnostic := by
    rw [writeOrigins_loneProject]
    rfl
  obtain ⟨-, -, -, hdiagnostic, -⟩ := run_cut_by_closed_sink loneProject _ _ _ _ _ 0
    collected_loneProject
  exact ⟨collected_loneProject, (hdiagnostic horigin).2.1⟩

/-- The summary behind the diagnostic meets a closed sink. There are more writes than the sink
takes, and yet the exit code is not 2 and no failure is reported. -/
theorem run_leaves_closed_summary_unhandled :
    Collected loneProject.files ["analyze", "/a.js"] { targets := ["/a.js"] } .text [loneFile] [] ∧
      1 < (run { loneProject with sink := {} } ["analyze", "/a.js"]).sink.writes.length ∧
      (run { loneProject with sink := { room := some 1, fault := .closed } }
        ["analyze", "/a.js"]).exit = .unhandled (.panel .closed) ∧
      (run { loneProject with sink := { room := some 1, fault := .closed } }
        ["analyze", "/a.js"]).exit.code = 1 ∧
      (run { loneProject with sink := { room := some 1, fault := .closed } }
        ["analyze", "/a.js"]).log.filter reportsFailure = [] := by
  let full : World := { loneProject with sink := {} }
  let closed : World := { loneProject with sink := { room := some 1, fault := .closed } }
  have hclosed : Collected closed.files ["analyze", "/a.js"] { targets := ["/a.js"] } .text
      [loneFile] [] := collected_loneProject
  have horigin : (writeOrigins closed {} [loneFile])[1]? = some .panel := by
    show (writeOrigins loneProject {} [loneFile])[1]? = _
    rw [writeOrigins_loneProject]
    rfl
  have hwrites : (run full ["analyze", "/a.js"]).sink.writes.length = 3 := by
    have hadmits := run_of_admits collected_loneProject
      (Sink.admits_of_unlimited (show loneProject.sink.room = none from rfl) _)
    show (run loneProject _).sink.writes.length = 3
    rw [hadmits]
    show ([] ++ _).length = 3
    rw [List.nil_append, ← length_flatMap_origins]
    exact congrArg List.length
      ((flatMap_origins_runActions loneProject {} [loneFile]).trans writeOrigins_loneProject)
  obtain ⟨hexit, hreports, -⟩ := run_of_origin hclosed rfl rfl horigin
  refine ⟨collected_loneProject, ?_, hexit, ?_, hreports⟩
  · rw [hwrites]
    omega
  · rw [hexit]
    rfl

end ScriptAudit.Command
