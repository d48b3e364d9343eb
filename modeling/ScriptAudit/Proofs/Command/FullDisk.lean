import ScriptAudit.Proofs.Command.Channels

/-!
# A disk that becomes full

A sink that takes some writes and no more cuts a run off. The write that fails may be one of a
header, a diagnostic or the summary; the run ends in the same way. What was written are the first
writes of the run with an empty disk, the failure is logged once by the command, and the files
behind the one at hand are not looked at.
-/

set_option autoImplicit false

namespace ScriptAudit

/-! ## Where a list of actions is cut -/

/-- An element of two lists together is in the first or in the second. -/
theorem append_eq_append_cons {α : Type} {as bs before rest : List α} {a : α}
    (h : as ++ bs = before ++ a :: rest) :
    (∃ behind, as = before ++ a :: behind) ∨
      ∃ start, before = as ++ start ∧ bs = start ++ a :: rest := by
  rcases List.append_eq_append_iff.mp h with ⟨start, hbefore, hbs⟩ | ⟨behind, has, hrest⟩
  · exact Or.inr ⟨start, hbefore, hbs⟩
  · cases behind with
    | nil => exact Or.inr ⟨[], by simp [has], by simpa using hrest.symm⟩
    | cons b behind =>
      rw [List.cons_append] at hrest
      obtain ⟨rfl, -⟩ := List.cons.inj hrest
      exact Or.inl ⟨behind, has⟩

/-- An element of lists together is in one of them, behind all of those before it. -/
theorem exists_of_flatMap_eq_append_cons {α β : Type} {f : α → List β} {as : List α}
    {before rest : List β} {b : β} (h : as.flatMap f = before ++ b :: rest) :
    ∃ finished a later begun behind, as = finished ++ a :: later ∧ f a = begun ++ b :: behind ∧
      before = finished.flatMap f ++ begun := by
  induction as generalizing before with
  | nil => simp at h
  | cons a as ih =>
    rw [List.flatMap_cons] at h
    rcases append_eq_append_cons h with ⟨behind, ha⟩ | ⟨start, hbefore, hrest⟩
    · exact ⟨[], a, as, before, behind, rfl, ha, rfl⟩
    · obtain ⟨finished, a', later, begun, behind, has, ha', hstart⟩ := ih hrest
      refine ⟨a :: finished, a', later, begun, behind, ?_, ha', ?_⟩
      · rw [has, List.cons_append]
      · rw [hbefore, hstart, List.flatMap_cons, List.append_assoc]

namespace Command

open ScriptAudit.Report

/-- A run that is cut off has gone through some files, and has begun the next one unless it was
already at the summary. -/
theorem exists_files_of_runActions_eq {world : World} {settings : Settings} {paths : List Path}
    {before rest : List Action} {a : Action}
    (h : runActions world settings paths = before ++ a :: rest) :
    let actions := fileActions world settings.rules (1 < paths.length)
    ∃ finished unfinished begun, paths = finished ++ unfinished ∧
      before = finished.flatMap actions ++ begun ∧
      begun <+: (unfinished.take 1).flatMap actions ∧
      (unfinished ≠ [] → ∃ behind, (unfinished.take 1).flatMap actions = begun ++ a :: behind) := by
  intro actions
  rw [runActions] at h
  rcases append_eq_append_cons h with ⟨behind, hfiles⟩ | ⟨start, hbefore, hsummary⟩
  · obtain ⟨finished, path, later, begun, behind', hpaths, hpath, hbefore⟩ :=
      exists_of_flatMap_eq_append_cons hfiles
    have hcurrent : ((path :: later).take 1).flatMap actions = begun ++ a :: behind' := by
      rw [List.take_succ_cons, List.take_zero, List.flatMap_singleton]
      exact hpath
    refine ⟨finished, path :: later, begun, hpaths, hbefore, ?_, fun _ => ⟨behind', hcurrent⟩⟩
    rw [hcurrent]
    exact List.prefix_append _ _
  · -- the summary is a single action
    have hstart : start = [] := by
      cases start with
      | nil => rfl
      | cons b start =>
        have hlength := congrArg List.length hsummary
        simp only [List.length_append, List.length_cons] at hlength
        split at hlength
        · rw [List.length_singleton] at hlength
          omega
        · cases hlength
    refine ⟨paths, [], [], (List.append_nil _).symm, ?_, List.prefix_rfl, fun hne => absurd rfl hne⟩
    rw [hbefore, hstart]
    rfl

/-! ## A run that is cut off -/

/-- A run that there is not room for stops in an action of a file or at the summary. There was room
for the texts of the files that are finished, and there is none for all those of the file at
hand. -/
theorem exists_run_of_lt {world : World} {args : List String} {a : Arguments}
    {format : OutputFormat} {paths : List Path} {log : Log} {n : Nat}
    (h : Collected world.files args a format paths log) (hroom : world.sink.room = some n)
    (hlt : n < ((runActions world { format, showSummary := a.summary } paths).flatMap
      (·.texts (reporterFor world format).format)).length) :
    let settings : Settings := { format, showSummary := a.summary }
    let alone (path : Path) : Log := (part world settings path).log
    let texts : Path → List String := fileTexts world settings (1 < paths.length)
    let analysis := untilFault (analyzeFile world (Registry.ofRules Rule.all) (1 < paths.length))
      { reporter := reporterFor world format }
    ∃ (action : Action) (q : Progress) (finished unfinished : List Path) (begun : Log),
      run world args =
        { outcome { q with log := log ++ q.log } (some (action.stop world.sink.fault)) with
          log := (outcome { q with log := log ++ q.log }
            (some (action.stop world.sink.fault))).log.atLeast (logLevel a.verbose) } ∧
      q.reporter.sink.writes = world.sink.writes ++
        ((runActions world settings paths).flatMap
          (·.texts (reporterFor world format).format)).take n ∧
      q.log = finished.flatMap alone ++ begun ++ action.failureLog world.sink.fault ∧
      paths = finished ++ unfinished ∧
      begun <+: (unfinished.take 1).flatMap alone ∧
      (finished.flatMap texts).length ≤ n ∧
      (unfinished ≠ [] → n < ((finished ++ unfinished.take 1).flatMap texts).length) ∧
      analysis paths = analysis (finished ++ unfinished.take 1) := by
  intro settings alone texts analysis
  let p : Progress := { reporter := reporterFor world format }
  have hsink : p.reporter.sink = world.sink := sink_reporterFor world format
  have hspeaks : p.reporter.Speaks := speaks_reporterFor world format
  have hleft : p.reporter.sink.room = some n := by rw [hsink, hroom]
  obtain ⟨before, action, rest, q, hactions, hrun, hreached, hmissed, hwrites, hlog⟩ :=
    exists_untilFault_act_of_lt hspeaks hleft hlt
  obtain ⟨finished, unfinished, begun, hpaths, hbefore, hprefix, hcurrent⟩ :=
    exists_files_of_runActions_eq hactions
  let actions : Path → List Action := fileActions world settings.rules (1 < paths.length)
  have halone (files : List Path) :
      (files.flatMap actions).filterMap Action.entry? = files.flatMap alone := by
    rw [List.filterMap_flatMap]
    simp only [actions, filterMap_entry?_fileActions]
    rfl
  have htexts (files : List Path) :
      (files.flatMap actions).flatMap (·.texts p.reporter.format) = files.flatMap texts := by
    rw [List.flatMap_assoc]
    exact List.flatMap_congr fun path _ => flatMap_texts_fileActions world settings _ path
  refine ⟨action, q, finished, unfinished, begun.filterMap Action.entry?, ?_, ?_, ?_, hpaths, ?_,
    ?_, ?_, ?_⟩
  · have hstop : untilFault act p (runActions world settings paths) =
        (q, some (action.stop world.sink.fault)) := by
      rw [hactions, hrun, hsink]
    exact run_of_collected h hstop
  · rw [hwrites, hsink]
  · rw [hlog, hsink, hbefore, List.filterMap_append, halone]
    rfl
  · rw [← halone]
    exact hprefix.filterMap Action.entry?
  · rw [hbefore, List.flatMap_append, List.length_append] at hreached
    rw [← htexts]
    exact Nat.le_of_add_right_le hreached
  · intro hne
    obtain ⟨behind, hbehind⟩ := hcurrent hne
    have hsplit : (finished ++ unfinished.take 1).flatMap actions = before ++ action :: behind := by
      rw [List.flatMap_append, hbehind, hbefore, List.append_assoc]
    rw [← htexts, hsplit, List.flatMap_append, List.flatMap_cons, List.length_append,
      List.length_append]
    omega
  · cases unfinished with
    | nil => rw [hpaths, List.take_nil]
    | cons path later =>
      -- both loops stop in the same action of the file at hand
      obtain ⟨behind, hpath⟩ : ∃ behind, actions path = begun ++ action :: behind := by
        simpa using hcurrent (List.cons_ne_nil _ _)
      have hstops (files : List Path) : analysis (finished ++ path :: files) =
          (q, some (action.stop world.sink.fault)) := by
        have hsplit : (finished ++ path :: files).flatMap actions =
            before ++ action :: (behind ++ files.flatMap actions) := by
          rw [List.flatMap_append, List.flatMap_cons, hpath, hbefore]
          simp only [actions, settings, List.append_assoc, List.cons_append]
        calc
          analysis (finished ++ path :: files)
            = untilFault act p ((finished ++ path :: files).flatMap actions) :=
              untilFault_analyzeFile_eq world Rule.all _ p _
          _ = (q, some (action.stop world.sink.fault)) := by rw [hsplit, hrun, hsink]
      rw [hpaths, hstops later]
      exact (hstops []).symm

/-- What the command says of a disk that is full, and what the reporter has logged before: a header
or a summary that cannot be shown is not logged by the reporter. -/
def fullDiskReports : List (String × Log) :=
  [("No space left on device", []),
    ("failed to write diagnostic: No space left on device",
      [Reporter.failureEntry (.sink .noSpace)])]

/-- Whichever action meets the full disk, what is logged of it is one of the two reports. -/
theorem exists_fullDiskReport (action : Action) :
    ∃ message, (message, action.failureLog .noSpace) ∈ fullDiskReports ∧
      (action.stop .noSpace).outputFailure? = some message := by
  cases action with
  | note entry => exact ⟨_, List.mem_cons_self, rfl⟩
  | emit d => exact ⟨_, List.mem_cons_of_mem _ List.mem_cons_self, rfl⟩
  | panel content => exact ⟨_, List.mem_cons_self, rfl⟩

/-- **A full disk cuts the output to a prefix.** Let a command line be understood and the files of
its target be collected. With room for all writes the command completes with the same output and log
as with an empty disk. With room for `n` writes that is less, it fails with exit code 2 and has
written the first `n` writes, whichever of a header, a diagnostic or the summary the next one
belongs to. The failure is the one error that the command logs, and the last entry. Before it are
the entries of the collection, of the files that were finished and of the beginning of the file at
hand. The files that were finished are those whose texts there was room for, and the one at hand is
the one whose texts there was not room for, unless only the summary was left; the files behind it
are not analysed. -/
theorem run_cut_by_full_disk (world : World) (args : List String) (a : Arguments)
    (format : OutputFormat) (paths : List Path) (log : Log) (n : Nat)
    (h : Collected world.files args a format paths log) :
    let full := run { world with sink := {} } args
    let tight : World := { world with sink := { room := some n, fault := .noSpace } }
    let limited := run tight args
    let settings : Settings := { format, showSummary := a.summary }
    let alone (path : Path) : Log := (part world settings path).log
    let texts : Path → List String := fileTexts world settings (1 < paths.length)
    let analysis := untilFault (analyzeFile tight (Registry.ofRules Rule.all) (1 < paths.length))
      { reporter := reporterFor tight format }
    full.exit = .completed ∧
      (full.sink.writes.length ≤ n →
        limited.exit = .completed ∧ limited.exit.code = 0 ∧
          limited.sink.writes = full.sink.writes ∧ limited.log = full.log) ∧
      (n < full.sink.writes.length →
        limited.exit = .outputFailed ∧ limited.exit.code = 2 ∧
          limited.sink.writes = full.sink.writes.take n ∧
          ∃ (message : String) (reported begun : Log) (finished unfinished : List Path),
            limited.log.filter reportsFailure = [failureEntry message] ∧
            limited.log = Log.atLeast (logLevel a.verbose)
              (log ++ finished.flatMap alone ++ begun ++ reported ++ [failureEntry message]) ∧
            (message, reported) ∈ fullDiskReports ∧
            paths = finished ++ unfinished ∧
            begun <+: (unfinished.take 1).flatMap alone ∧
            (finished.flatMap texts).length ≤ n ∧
            (unfinished ≠ [] → n < ((finished ++ unfinished.take 1).flatMap texts).length) ∧
            analysis paths = analysis (finished ++ unfinished.take 1)) := by
  intro full tight limited settings alone texts analysis
  let written : List String :=
    (runActions world settings paths).flatMap (·.texts (reporterFor world format).format)
  have hformat (sink : Sink) : (reporterFor { world with sink } format).format =
      (reporterFor world format).format := format_reporterFor world sink format
  have hempty : Collected ({ world with sink := {} } : World).files args a format paths log := h
  have htight : Collected tight.files args a format paths log := h
  have hfull : full = _ := run_of_admits hempty (Sink.admits_of_unlimited rfl _)
  have hwrites : full.sink.writes = written := by
    rw [hfull, hformat]
    rfl
  rw [hwrites]
  refine ⟨by rw [hfull], ?_, ?_⟩
  · intro hroom
    have hadmits : tight.sink.Admits
        ((runActions tight settings paths).flatMap
          (·.texts (reporterFor tight format).format)).length := by
      rw [hformat]
      exact (Sink.admits_of_room rfl).mono hroom
    have hlimited : limited = _ := run_of_admits htight hadmits
    refine ⟨by rw [hlimited], by rw [hlimited]; rfl, ?_, ?_⟩
    · rw [hlimited, hformat]
      rfl
    · rw [hlimited, hfull]
      rfl
  · intro hroom
    have hlt : n < ((runActions tight settings paths).flatMap
        (·.texts (reporterFor tight format).format)).length := by
      rw [hformat]
      exact hroom
    obtain ⟨action, q, finished, unfinished, begun, hrun, hwritten, hlog, hpaths, hbegun, hreached,
      hmissed, hfiles⟩ := exists_run_of_lt htight rfl hlt
    have htexts : fileTexts tight settings (1 < paths.length) = texts := by
      funext path
      simp only [texts, fileTexts, headerTexts, tight, settings, hformat]
      rfl
    rw [htexts] at hreached hmissed
    obtain ⟨message, hreport, hfailure⟩ := exists_fullDiskReport action
    have hlimited : limited =
        { exit := .outputFailed
          sink := q.reporter.sink
          log := Log.atLeast (logLevel a.verbose) (log ++ q.log ++ [failureEntry message]) } := by
      show run tight args = _
      rw [hrun]
      simp only [outcome, tight, hfailure]
    have hentries : limited.log = Log.atLeast (logLevel a.verbose)
        (log ++ finished.flatMap alone ++ begun ++ action.failureLog .noSpace ++
          [failureEntry message]) := by
      rw [hlimited, hlog]
      simp only [List.append_assoc]
      rfl
    refine ⟨by rw [hlimited], by rw [hlimited]; rfl, ?_, message, action.failureLog .noSpace, begun,
      finished, unfinished, ?_, hentries, hreport, hpaths, hbegun, hreached, hmissed, hfiles⟩
    · rw [hlimited, hwritten, hformat]
      rfl
    · rw [hentries, filter_reportsFailure_atLeast]
      apply filter_reportsFailure_append
      have hpart {path : Path} {entry : Log.Entry} (hentry : entry ∈ alone path) :
          reportsFailure entry = false :=
        reportsFailure_of_channel (channel_of_mem_part hentry)
      intro entry hentry
      simp only [List.mem_append] at hentry
      rcases hentry with ((hcollected | hfinished) | hcurrent) | hreported
      · obtain ⟨target, -, hcollect⟩ := h.found
        apply @reportsFailure_of_mem_collect world.files
        rw [hcollect]
        exact hcollected
      · obtain ⟨path, -, hentry⟩ := List.mem_flatMap.mp hfinished
        exact hpart hentry
      · obtain ⟨path, -, hentry⟩ := List.mem_flatMap.mp (hbegun.subset hcurrent)
        exact hpart hentry
      · cases action with
        | note other => cases hreported
        | emit d =>
          cases List.mem_singleton.mp hreported
          rfl
        | panel content => cases hreported

/-- The first text of the header fits, and the panel behind it does not. -/
theorem run_cut_by_full_disk_header :
    (∃ log, Collected lockedProject.files ["analyze", "/"] { targets := ["/"] } .text
      [lockedFile, openFile] log) ∧
    1 < (run { lockedProject with sink := {} } ["analyze", "/"]).sink.writes.length ∧
    (run { lockedProject with sink := { room := some 1, fault := .noSpace } }
      ["analyze", "/"]).exit = .outputFailed ∧
    (run { lockedProject with sink := { room := some 1, fault := .noSpace } }
      ["analyze", "/"]).sink.writes = ["\n"] := by
  obtain ⟨log, hcollect⟩ := exists_collect_lockedProject
  have hcollected : Collected lockedProject.files ["analyze", "/"] { targets := ["/"] } .text
      [lockedFile, openFile] log := ⟨by decide, by decide, "/", rfl, hcollect⟩
  obtain ⟨hlocked, hopen⟩ := read_lockedProject
  have hfull : ∃ more panel, (run { lockedProject with sink := {} } ["analyze", "/"]).sink.writes =
      "\n" :: panel :: more := by
    have hwrites := (ofActions_runActions lockedProject {} [lockedFile, openFile]).1
    have hnone : (part lockedProject {} lockedFile).writes = [] := by
      rw [part, FileTree.load, hlocked]
    simp only [List.flatMap_cons, hlocked, hopen, hnone] at hwrites
    show ∃ more panel, (run lockedProject ["analyze", "/"]).sink.writes = "\n" :: panel :: more
    rw [run_of_admits hcollected (Sink.admits_of_unlimited rfl _)]
    exact ⟨_, _, hwrites⟩
  obtain ⟨more, panel, hwrites⟩ := hfull
  have hroom : 1 < (run { lockedProject with sink := {} } ["analyze", "/"]).sink.writes.length := by
    rw [hwrites, List.length_cons, List.length_cons]
    omega
  have hcut := (run_cut_by_full_disk lockedProject _ _ _ _ log 1 hcollected).2.2 hroom
  refine ⟨⟨log, hcollected⟩, hroom, hcut.1, ?_⟩
  rw [hcut.2.2.1, hwrites]
  rfl

end Command

end ScriptAudit
