import ScriptAudit.Proofs.Command.Plan
import ScriptAudit.Proofs.FileTree.Discovery
import ScriptAudit.Proofs.Report.Panels

/-!
# Files do not get in each other's way

All files of a run share one reporter. What a file adds to the report and to the log is nevertheless
what it gives when it is scanned alone, with a fresh reporter: the texts, the counts and the entries
of its actions do not depend on what was done before. So a run puts together the parts of its files,
in their order. A file that cannot be read has no part in the report, and one entry in the log.
-/

set_option autoImplicit false

namespace ScriptAudit.Command

open ScriptAudit.Report

/-- What a file adds to a run. -/
structure Part where
  writes : List String := []
  counts : Counts := {}
  log : Log := []

/-- What a file gives alone: it is loaded and, if it can be read, scanned with a fresh reporter
whose sink takes every write. -/
def part (world : World) (settings : Settings) (path : Path) : Part :=
  match world.files.load world.grammar path with
  | (none, log) => { log }
  | (some context, log) =>
    let s := (Scan.runFile (Registry.ofRules settings.rules) context
      (reporterFor { world with sink := {} } settings.format)).1
    { writes := s.reporter.sink.writes, counts := s.reporter.counts, log := log ++ s.log }

/-- What some actions add to a run. -/
def Part.ofActions (format : Format) (actions : List Action) : Part :=
  { writes := actions.flatMap (·.texts format)
    counts := Counts.ofDiagnostics (actions.filterMap Action.diagnostic?)
    log := actions.filterMap Action.entry? }

/-- The texts of the header of a file, on a console only. -/
def headerTexts (world : World) (format : OutputFormat) (path : Path) : List String :=
  Reporter.panelTexts (reporterFor world format).format fun console => console.header path

/-- Notes add to the log alone. -/
theorem Part.ofActions_notes (format : Format) (log : Log) :
    ofActions format (log.map .note) = { log } := by
  have hentry : Action.entry? ∘ Action.note = some := rfl
  have hdiagnostic : Action.diagnostic? ∘ Action.note = fun _ => none := rfl
  rw [ofActions, List.flatMap_map, List.filterMap_map, List.filterMap_map, hentry, hdiagnostic,
    List.filterMap_some]
  simp [Action.texts, Counts.ofDiagnostics]

/-- First one part, then another. -/
def Part.append (a b : Part) : Part :=
  { writes := a.writes ++ b.writes, counts := a.counts.plus b.counts, log := a.log ++ b.log }

/-- Actions add what the first of them add, and then what the others add. -/
theorem Part.ofActions_append (format : Format) (as bs : List Action) :
    ofActions format (as ++ bs) = (ofActions format as).append (ofActions format bs) := by
  simp [ofActions, append, Counts.ofDiagnostics, Counts.plus]

/-- A file is loaded if and only if it can be read. -/
theorem isSome_load (files : FileTree) (grammar : Grammar) (path : Path) :
    (files.load grammar path).1.isSome = (files.read path).isOk := by
  unfold FileTree.load
  cases files.read path <;> rfl

/-- A scan with a sink that takes every write carries out all its actions. -/
theorem progress_run_of_unlimited {root : Node} (hroot : root.AllPlaced) (rules : List Rule)
    (path : Option Path) {r : Reporter} (hr : r.Speaks) (hroom : r.sink.room = none) :
    (Scan.run (Registry.ofRules rules) root path r).2 = none ∧
      progress [] (Scan.run (Registry.ofRules rules) root path r).1 =
        ({ reporter := r } : Progress).after (scanActions rules root path) := by
  have hrun := progress_run hroot rules path r []
  have hadmits := Sink.admits_of_unlimited hroom
    ((scanActions rules root path).flatMap (·.texts r.format)).length
  have hactions := @untilFault_act_of_admits { reporter := r } hr (scanActions rules root path)
    hadmits
  rw [hactions] at hrun
  exact ⟨Option.map_eq_none_iff.mp (congrArg Prod.snd hrun), congrArg Prod.fst hrun⟩

/-- The actions of a scan add what the scan leaves with a fresh reporter. -/
theorem ofActions_scanActions {root : Node} (hroot : root.AllPlaced) (rules : List Rule)
    (path : Option Path) (world : World) (format : OutputFormat) :
    let s := (Scan.run (Registry.ofRules rules) root path
      (reporterFor { world with sink := {} } format)).1
    Part.ofActions (reporterFor world format).format (scanActions rules root path) =
      { writes := s.reporter.sink.writes, counts := s.reporter.counts, log := s.log } := by
  intro s
  let fresh := reporterFor { world with sink := {} } format
  have hsink : fresh.sink = {} := sink_reporterFor { world with sink := {} } format
  have hcounts : fresh.counts = {} := by
    cases format <;> rfl
  have hformat : fresh.format = (reporterFor world format).format :=
    format_reporterFor world {} format
  obtain ⟨-, hscan⟩ := progress_run_of_unlimited hroot rules path
    (speaks_reporterFor { world with sink := {} } format) (by rw [hsink])
  have hreporter : s.reporter =
      (({ reporter := fresh } : Progress).after (scanActions rules root path)).reporter :=
    congrArg Progress.reporter hscan
  have hlog : s.log = (scanActions rules root path).filterMap Action.entry? :=
    congrArg Progress.log hscan
  rw [hreporter, hlog]
  simp [Part.ofActions, Progress.after, Sink.wrote, Counts.plus, hsink, hcounts, hformat]

/-- The actions of a file add what it gives alone, behind its header if it has one. -/
theorem ofActions_fileActions (world : World) (settings : Settings) (header : Bool) (path : Path) :
    Part.ofActions (reporterFor world settings.format).format
        (fileActions world settings.rules header path) =
      { part world settings path with
        writes :=
          (if header && (world.files.read path).isOk then headerTexts world settings.format path
            else []) ++ (part world settings path).writes } := by
  have hread := isSome_load world.files world.grammar path
  unfold fileActions part
  rcases hload : world.files.load world.grammar path with ⟨_ | context, log⟩
  · rw [hload] at hread
    rw [← hread]
    simp [Part.ofActions_notes]
  · rw [hload] at hread
    have hscan := ofActions_scanActions (allPlaced_of_load hload) settings.rules
      (some context.path) world settings.format
    have hheader : Part.ofActions (reporterFor world settings.format).format
        (if header then [.panel fun console => console.header path] else []) =
        { writes := if header then headerTexts world settings.format path else [] } := by
      cases header with
      | false => rfl
      | true =>
        simp [Part.ofActions, headerTexts, Action.texts, Action.diagnostic?, Action.entry?,
          Counts.ofDiagnostics, List.filterMap_cons]
    rw [← hread]
    simp [Part.ofActions_append, Part.ofActions_notes, hheader, hscan, Part.append, Counts.plus,
      Scan.runFile]

/-- What a file writes in a run: its header, if it has one, and what it gives alone. -/
def fileTexts (world : World) (settings : Settings) (header : Bool) (path : Path) : List String :=
  (if header && (world.files.read path).isOk then headerTexts world settings.format path else []) ++
    (part world settings path).writes

/-- The actions of a file write its texts. -/
theorem flatMap_texts_fileActions (world : World) (settings : Settings) (header : Bool)
    (path : Path) :
    (fileActions world settings.rules header path).flatMap
        (·.texts (reporterFor world settings.format).format) =
      fileTexts world settings header path :=
  congrArg Part.writes (ofActions_fileActions world settings header path)

/-- The actions of a file log what the file logs alone. -/
theorem filterMap_entry?_fileActions (world : World) (settings : Settings) (header : Bool)
    (path : Path) :
    (fileActions world settings.rules header path).filterMap Action.entry? =
      (part world settings path).log :=
  congrArg Part.log (ofActions_fileActions world settings header path)

/-! ## The parts of a run -/

/-- The counts of some parts together. -/
def Part.sumCounts (parts : List Part) : Counts :=
  { info := total (parts.map (·.counts.info)), warning := total (parts.map (·.counts.warning)) }

/-- The actions of several things add what those of each add, in order. -/
theorem Part.ofActions_flatMap {α : Type} (format : Format) (f : α → List Action) (as : List α) :
    ofActions format (as.flatMap f) =
      { writes := as.flatMap fun a => (ofActions format (f a)).writes
        counts := sumCounts (as.map fun a => ofActions format (f a))
        log := as.flatMap fun a => (ofActions format (f a)).log } := by
  induction as with
  | nil => rfl
  | cons a as ih =>
    rw [List.flatMap_cons, ofActions_append, ih]
    simp [append, sumCounts, Counts.plus]

/-- What a report in text ends with. -/
def summaryTexts (world : World) (settings : Settings) (counts : Counts) : List String :=
  if settings.format = .text ∧ settings.showSummary then
    Reporter.panelTexts (reporterFor world settings.format).format fun _ => counts.summary
  else []

/-- The diagnostics of a run are those of its files. -/
theorem ofDiagnostics_filesActions (world : World) (settings : Settings) (paths : List Path) :
    Counts.ofDiagnostics ((filesActions world settings paths).filterMap Action.diagnostic?) =
      Part.sumCounts (paths.map (part world settings)) := by
  have hfiles := Part.ofActions_flatMap (reporterFor world settings.format).format
    (fileActions world settings.rules (1 < paths.length)) paths
  simp only [ofActions_fileActions] at hfiles
  refine (congrArg Part.counts hfiles).trans ?_
  simp [Part.sumCounts, Function.comp_def]

/-- The actions of a run add the parts of its files, each behind its header if there are several,
and the summary. -/
theorem ofActions_runActions (world : World) (settings : Settings) (paths : List Path) :
    let added := Part.ofActions (reporterFor world settings.format).format
      (runActions world settings paths)
    added.writes =
      (paths.flatMap fun path =>
        (if 1 < paths.length ∧ (world.files.read path).isOk then
          headerTexts world settings.format path else []) ++ (part world settings path).writes) ++
      summaryTexts world settings (Part.sumCounts (paths.map (part world settings))) ∧
    added.log = paths.flatMap fun path => (part world settings path).log := by
  intro added
  let format := (reporterFor world settings.format).format
  have hfiles : Part.ofActions format (filesActions world settings paths) = _ :=
    Part.ofActions_flatMap format (fileActions world settings.rules (1 < paths.length)) paths
  simp only [format, ofActions_fileActions] at hfiles
  have hadded : added = (Part.ofActions format (filesActions world settings paths)).append
      (Part.ofActions format (if settings.format = .text ∧ settings.showSummary then
        [.panel fun _ => (Part.sumCounts (paths.map (part world settings))).summary] else [])) := by
    show Part.ofActions format (runActions world settings paths) = _
    rw [runActions, ofDiagnostics_filesActions, Part.ofActions_append]
  rw [hadded, hfiles]
  by_cases hsummary : settings.format = .text ∧ settings.showSummary
  · simp [Part.append, Part.ofActions, summaryTexts, hsummary, Action.texts, Action.entry?, format,
      List.filterMap_cons]
  · simp [Part.append, Part.ofActions, summaryTexts, hsummary]

/-- **Files do not get in each other's way.** Let a command line be understood and the files of its
target be collected, and let the sink take every write. Then the command completes. In JSON it
writes what each file gives alone, in the order of the files. In text each file that can be read has
a header in front if more than one file was collected, and a summary of the sums of the counts comes
last if it was asked for. The header shows the path of the file, and the summary the sums, if they
have room. The log is that of the collection and of the files. A file that can be read is scanned
without a fault; one that cannot gives nothing but the entry that says so. -/
theorem run_joins_parts (world : World) (args : List String) (a : Arguments)
    (format : OutputFormat) (paths : List Path) (log : Log)
    (h : Collected world.files args a format paths log) (hsink : world.sink.room = none) :
    let settings : Settings := { format, showSummary := a.summary }
    let console : Console :=
      { width := world.width, workingDirectory := world.files.workingDirectory }
    let alone (path : Path) : Part := part world settings path
    let sums : Counts :=
      { info := total (paths.map fun path => (alone path).counts.info)
        warning := total (paths.map fun path => (alone path).counts.warning) }
    let name := Path.shownFrom world.files.workingDirectory
    let o := run world args
    o.exit = .completed ∧ o.exit.code = 0 ∧
      (format = .json →
        o.sink.writes = world.sink.writes ++ paths.flatMap fun path => (alone path).writes) ∧
      (format = .text →
        o.sink.writes = world.sink.writes ++
          (paths.flatMap fun path =>
            (if 1 < paths.length ∧ (world.files.read path).isOk then
              ["\n", (console.header path).shown world.width false] else []) ++
            (alone path).writes) ++
          if a.summary then ["\n", sums.summary.shown world.width false] else []) ∧
      (∀ path, 6 ≤ world.width → (∀ c ∈ (name path).toList, c ≠ '\\' ∧ Text.IsInert c) →
        seen isMark ((console.header path).shown world.width false) = seen isMark (name path)) ∧
      (13 ≤ world.width →
        seen Char.isAlphanum (sums.summary.shown world.width false) =
          seen Char.isAlphanum (String.join sums.words)) ∧
      o.log = Log.atLeast (logLevel a.verbose)
        (log ++ paths.flatMap fun path => (alone path).log) ∧
      (∀ path source, world.files.read path = .ok source →
        (Scan.runFile (Registry.ofRules Rule.all)
          (Context.ofParse path source (world.grammar source))
          (reporterFor { world with sink := {} } format)).2 = none) ∧
      ∀ path fault, world.files.read path = .error fault →
        alone path = { log := [unreadableFile .loading path fault] } := by
  intro settings console alone sums name o
  have ho : o = _ := run_of_admits h (Sink.admits_of_unlimited hsink _)
  obtain ⟨hwrites, hlog⟩ := ofActions_runActions world settings paths
  have hsinkWrites : o.sink.writes = world.sink.writes ++
      (Part.ofActions (reporterFor world format).format
        (runActions world settings paths)).writes := by
    rw [ho]
    rfl
  refine ⟨by rw [ho], by rw [ho]; rfl, ?_, ?_,
    fun path hroom hplain => console.seen_header path hroom hplain,
    fun hroom => sums.seen_summary hroom, ?_, ?_, ?_⟩
  · rintro rfl
    have hnone (path : Path) : headerTexts world .json path = [] := rfl
    rw [hsinkWrites, hwrites]
    simp [settings, alone, hnone, summaryTexts]
  · rintro rfl
    have hheader (path : Path) : headerTexts world .text path =
        ["\n", (console.header path).shown world.width false] := rfl
    have hsummary (counts : Counts) : summaryTexts world settings counts =
        if a.summary then ["\n", counts.summary.shown world.width false] else [] := by
      simp [summaryTexts, settings, reporterFor, Reporter.panelTexts]
    rw [hsinkWrites, hwrites, hsummary]
    simp [settings, alone, sums, hheader, Part.sumCounts, Function.comp_def]
  · rw [ho, ← hlog]
    rfl
  · intro path source _
    have hplaced : (Context.ofParse path source (world.grammar source)).tree.AllPlaced :=
      Concrete.Tree.allPlaced_toNode source _
    exact (progress_run_of_unlimited hplaced Rule.all (some path)
      (speaks_reporterFor { world with sink := {} } format) (by rw [sink_reporterFor])).1
  · intro path fault hread
    have hload : world.files.load world.grammar path =
        (none, [unreadableFile .loading path fault]) := by
      rw [FileTree.load, hread]
    show part world settings path = _
    rw [part, hload]

/-! ## A project with a locked file -/

/-- The tree of `eval(x)`. -/
def evalParse : Parse where
  tree :=
    .node ⟨"program", 0, 7, 0, 0, none, true⟩
      [.node ⟨"expression_statement", 0, 7, 0, 0, none, true⟩
        [.node ⟨"call_expression", 0, 7, 0, 0, none, true⟩
          [.node ⟨"identifier", 0, 4, 0, 0, some "function", true⟩ [],
            .node ⟨"arguments", 4, 7, 0, 4, some "arguments", true⟩
              [.node ⟨"(", 4, 5, 0, 4, none, false⟩ [],
                .node ⟨"identifier", 5, 6, 0, 5, none, true⟩ [],
                .node ⟨")", 6, 7, 0, 6, none, false⟩ []]]]]
  hasErrors := false

/-- The file that may not be read. -/
def lockedFile : Path := FileTree.pathOf ["a.js"]

/-- The file that may be read. -/
def openFile : Path := FileTree.pathOf ["b.js"]

/-- Two files, the first of which may not be read; the second one calls `eval`. -/
def lockedProject : World where
  files :=
    { entries :=
        [("a.js", .file (some .permission) []),
          ("b.js", .file none [101, 118, 97, 108, 40, 120, 41])]
      workingDirectory := { root := .slash, segments := [] } }
  grammar := fun _ => evalParse

/-- A file in the root directory is found under its name. -/
theorem entry_of_entryNamed? {files : FileTree} (name : String) {refusal : Option FileFault}
    {bytes : Source} (hdots : name ≠ ".." ∧ name ≠ ".")
    (hname : ¬ FileTree.maxNameBytes < name.utf8ByteSize)
    (hpath : ¬ FileTree.maxPathBytes < (FileTree.pathOf [name]).toText.utf8ByteSize)
    (hentry : FileTree.entryNamed? name files.entries = some (.file refusal bytes)) :
    files.entry (FileTree.pathOf [name]) = .ok (.file refusal bytes) := by
  have habsolute : files.absolute (FileTree.pathOf [name]) = FileTree.pathOf [name] := rfl
  have hat : FileTree.entryAt? files.entries [name] = some (.file refusal bytes) := hentry
  have hfollow : files.follow FileTree.maxLinks [] [name] = .ok (FileTree.maxLinks, [name]) := by
    rw [FileTree.follow, if_neg hdots.1, if_neg hdots.2, if_neg hname, List.nil_append, hat]
    rfl
  have hsegments : (FileTree.pathOf [name]).segments = [name] := rfl
  rw [FileTree.entry_eq_ok_iff, habsolute, hsegments]
  exact ⟨hpath, FileTree.maxLinks, [name], hfollow, hat⟩

/-- The first file cannot be read, and the second one can. -/
theorem read_lockedProject :
    lockedProject.files.read lockedFile = .error .permission ∧
      lockedProject.files.read openFile = .ok [101, 118, 97, 108, 40, 120, 41] := by
  have hlocked : lockedProject.files.entry lockedFile = .ok (.file (some .permission) []) :=
    entry_of_entryNamed? "a.js" (by decide) (by decide) (by decide) rfl
  have hopen : lockedProject.files.entry openFile =
      .ok (.file none [101, 118, 97, 108, 40, 120, 41]) :=
    entry_of_entryNamed? "b.js" (by decide) (by decide) (by decide) rfl
  rw [FileTree.read, hlocked, FileTree.read, hopen]
  exact ⟨rfl, rfl⟩

/-- Both files are collected. -/
theorem exists_collect_lockedProject :
    ∃ log, collect lockedProject.files (lockedProject.files.canonical (Path.ofString "/")) =
      (.ok [lockedFile, openFile], log) := by
  have hpath : Path.ofString "/" = FileTree.pathOf [] := by decide
  have hcanonical := lockedProject.files.canonical_root
  have hentry := lockedProject.files.entry_root
  have hfound : (lockedProject.files.collect {} FileTree.maxLinks [] (FileTree.pathOf [])
      lockedProject.files.entries).files = [lockedFile, openFile] := by
    rw [FileTree.files_collect _ rfl]
    decide
  have hsorted : [lockedFile, openFile].mergeSort Path.le = [lockedFile, openFile] := by
    apply List.mergeSort_of_pairwise
    decide
  rw [hpath, hcanonical]
  have hroot : (FileTree.pathOf []).segments = [] := rfl
  simp only [collect, hentry, FileTree.discover, hcanonical, FileTree.listed, hroot, hfound,
    hsorted]
  exact ⟨_, rfl⟩

/-- The locked file counts: the other one has a header, which shows its name. It has no other part
in the report. -/
theorem run_joins_parts_locked :
    (∃ log, Collected lockedProject.files ["analyze", "/", "--no-summary"]
      { targets := ["/"], summary := false } .text [lockedFile, openFile] log) ∧
    lockedProject.sink.room = none ∧
    (run lockedProject ["analyze", "/", "--no-summary"]).exit = .completed ∧
    (run lockedProject ["analyze", "/", "--no-summary"]).sink.writes =
      ["\n", (({} : Console).header openFile).shown 80 false,
        "line 1: dangerous use of eval() method\n"] ∧
    seen isMark ((({} : Console).header openFile).shown 80 false) = "b.js".toList := by
  obtain ⟨log, hcollect⟩ := exists_collect_lockedProject
  have hcollected : Collected lockedProject.files ["analyze", "/", "--no-summary"]
      { targets := ["/"], summary := false } .text [lockedFile, openFile] log :=
    ⟨by decide, by decide, "/", rfl, hcollect⟩
  obtain ⟨hexit, -, -, htext, hheader, -⟩ :=
    run_joins_parts lockedProject _ _ _ _ log hcollected rfl
  have hname : Path.shownFrom lockedProject.files.workingDirectory openFile = "b.js" := by decide
  refine ⟨⟨log, hcollected⟩, rfl, hexit, ?writes, ?name⟩
  case writes =>
    rw [htext rfl]
    obtain ⟨hlocked, hopen⟩ := read_lockedProject
    have hpart : (part lockedProject { showSummary := false } openFile).writes =
        ["line 1: dangerous use of eval() method\n"] := by
      rw [part, FileTree.load, hopen]
      decide +kernel
    have hnone : (part lockedProject { showSummary := false } lockedFile).writes = [] := by
      rw [part, FileTree.load, hlocked]
    simp only [List.flatMap_cons, List.flatMap_nil, hlocked, hopen, hpart, hnone]
    rfl
  case name =>
    have hplain : "b.js".toList.all (fun c => decide (c ≠ '\\' ∧ Text.IsInert c)) = true := by
      decide
    have hmarks : seen isMark "b.js" = "b.js".toList := by decide
    rw [← hname] at hplain
    rw [← hmarks, ← hname]
    exact hheader openFile (by decide) fun c hc =>
      of_decide_eq_true (List.all_eq_true.mp hplain c hc)

end ScriptAudit.Command
