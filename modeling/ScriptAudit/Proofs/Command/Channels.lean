import ScriptAudit.Proofs.Command.Independence

/-!
# Who logs what

Every entry of a log names the part of the library it comes from. Loading and scanning a file log in
their own names, and so does the search for files. The command itself logs a warning when there are
no files, and an error when its output fails; so such an error is never taken for anything else.
-/

set_option autoImplicit false

namespace ScriptAudit.Command

open ScriptAudit.Report

/-- An entry by which the command reports that it failed. -/
def reportsFailure (entry : Log.Entry) : Bool :=
  entry.channel = .command && entry.level = .error

/-- Only the command reports failures of the output. -/
theorem reportsFailure_of_channel {entry : Log.Entry} (h : entry.channel ≠ .command) :
    reportsFailure entry = false := by
  simp [reportsFailure, h]

/-- The entries of some actions are those of their notes. -/
theorem mem_filterMap_entry? {entry : Log.Entry} {as : List Action} :
    entry ∈ as.filterMap Action.entry? ↔ .note entry ∈ as := by
  rw [List.mem_filterMap]
  constructor
  · rintro ⟨a, ha, hentry⟩
    cases a with
    | note other =>
      obtain rfl := Option.some.inj hentry
      exact ha
    | emit d => cases hentry
    | panel content => cases hentry
  · intro h
    exact ⟨_, h, rfl⟩

/-- A scan logs nothing in the name of the command. -/
theorem channel_of_mem_scanActions {rules : List Rule} {root : Node} {path : Option Path}
    {entry : Log.Entry} (h : .note entry ∈ scanActions rules root path) :
    entry.channel ≠ .command := by
  rcases List.mem_append.mp h with h | h
  · obtain ⟨n, -, hn⟩ := List.mem_flatMap.mp h
    obtain ⟨rule, -, hrule⟩ := List.mem_flatMap.mp hn
    rcases List.mem_append.mp hrule with hnote | hemit
    · obtain ⟨other, hother, heq⟩ := List.mem_map.mp hnote
      cases heq
      unfold Rule.notes at hother
      split at hother
      · rw [List.mem_singleton.mp hother]
        intro hchannel
        cases hchannel
      · cases hother
    · obtain ⟨d, -, heq⟩ := List.mem_map.mp hemit
      cases heq
  · cases List.mem_singleton.mp h
    intro hchannel
    cases hchannel

/-- What is logged of a parsed file is not logged in the name of the command. -/
theorem channel_of_mem_loadingLog {path : Path} {source : Source} {parse : Parse}
    {entry : Log.Entry} (h : entry ∈ Context.loadingLog path source parse) :
    entry.channel ≠ .command := by
  simp only [Context.loadingLog, List.mem_append] at h
  rcases h with ((h | h) | h) | h
  · unfold Parse.log at h
    split at h
    all_goals
      cases List.mem_singleton.mp h
      exact Log.Channel.noConfusion
  · split at h
    · cases List.mem_singleton.mp h
      exact Log.Channel.noConfusion
    · cases h
  · obtain ⟨raw, -, rfl⟩ := List.mem_map.mp h
    exact Log.Channel.noConfusion
  · cases List.mem_singleton.mp h
    exact Log.Channel.noConfusion

/-- Loading a file logs nothing in the name of the command. -/
theorem channel_of_mem_load {files : FileTree} {grammar : Grammar} {path : Path}
    {entry : Log.Entry} (h : entry ∈ (files.load grammar path).2) : entry.channel ≠ .command := by
  unfold FileTree.load at h
  split at h
  · cases List.mem_singleton.mp h
    exact Log.Channel.noConfusion
  · exact channel_of_mem_loadingLog h

/-- Nothing that is logged about a file is logged by the command. -/
theorem channel_of_mem_part {world : World} {settings : Settings} {path : Path} {entry : Log.Entry}
    (h : entry ∈ (part world settings path).log) : entry.channel ≠ .command := by
  have hnote : .note entry ∈ fileActions world settings.rules false path := by
    rw [← mem_filterMap_entry?, filterMap_entry?_fileActions]
    exact h
  have hload := @channel_of_mem_load world.files world.grammar path entry
  unfold fileActions at hnote
  rcases hfile : world.files.load world.grammar path with ⟨_ | context, log⟩
  · rw [hfile] at hnote hload
    obtain ⟨other, hother, heq⟩ := List.mem_map.mp hnote
    cases heq
    exact hload hother
  · rw [hfile] at hnote hload
    rcases List.mem_append.mp hnote with hnote | hscan
    · obtain ⟨other, hother, heq⟩ := List.mem_map.mp hnote
      cases heq
      exact hload hother
    · exact channel_of_mem_scanActions hscan

/-- What is logged of a file that is considered belongs to the discovery. -/
theorem channel_of_mem_considerFile {options : DiscoverOptions} {path : Path} {entry : Log.Entry}
    (h : entry ∈ (FileTree.considerFile options path).log) : entry.channel = .discovery := by
  unfold FileTree.considerFile at h
  split at h
  · cases h
  · split at h
    · cases List.mem_singleton.mp h
      rfl
    · split at h
      all_goals
        cases List.mem_singleton.mp h
        rfl

/-- What is logged of a directory and its content belongs to the discovery. -/
theorem channel_of_mem_listed {path : Path} {refusal : Option FileFault} {content : Found}
    (hcontent : ∀ entry ∈ content.log, entry.channel = .discovery) {entry : Log.Entry}
    (h : entry ∈ (FileTree.listed path refusal content).log) : entry.channel = .discovery := by
  unfold FileTree.listed at h
  split at h
  · exact hcontent entry h
  · cases List.mem_singleton.mp h
    rfl
  · cases List.mem_singleton.mp h
    rfl

/-- What is logged of a directory that is considered belongs to the discovery. -/
theorem channel_of_mem_considerDirectory {options : DiscoverOptions} {path : Path}
    {refusal : Option FileFault} {content : Found}
    (hcontent : ∀ entry ∈ content.log, entry.channel = .discovery) {entry : Log.Entry}
    (h : entry ∈ (FileTree.considerDirectory options path refusal content).log) :
    entry.channel = .discovery := by
  unfold FileTree.considerDirectory at h
  split at h
  · cases List.mem_singleton.mp h
    rfl
  · exact channel_of_mem_listed hcontent h

/-- A search for files logs in its own name. -/
theorem channel_of_mem_collect (tree : FileTree) (options : DiscoverOptions) (links : Nat)
    (place : List String) (shown : Path) (entries : List (String × Entry)) :
    ∀ entry ∈ (tree.collect options links place shown entries).log,
      entry.channel = .discovery := by
  induction links, place, shown, entries using FileTree.collect.induct tree options with
  | case1 links place shown =>
    intro entry h
    rw [FileTree.collect.eq_def] at h
    cases h
  | case2 links place shown name refusal bytes rest ih =>
    intro entry h
    rw [FileTree.collect.eq_def] at h
    rcases List.mem_append.mp h with h | h
    · exact channel_of_mem_considerFile h
    · exact ih entry h
  | case3 links place shown name refusal inner rest ihInner ihRest =>
    intro entry h
    rw [FileTree.collect.eq_def] at h
    rcases List.mem_append.mp h with h | h
    · exact channel_of_mem_considerDirectory ihInner h
    · exact ihRest entry h
  | case4 links place shown name rest ih =>
    intro entry h
    rw [FileTree.collect.eq_def] at h
    exact ih entry h
  | case5 links place shown name target rest ihLink ihRest =>
    intro entry h
    rw [FileTree.collect.eq_def] at h
    rcases List.mem_append.mp h with h | h
    · split at h
      · cases List.mem_singleton.mp h
        rfl
      · split at h
        · cases h
        · split at h
          · rename_i left place' hleft
            split at h
            · exact channel_of_mem_considerFile h
            · exact channel_of_mem_considerDirectory (ihLink _ _ hleft _) h
            · cases h
          · cases h
    · exact ihRest entry h

/-- What a discovery logs belongs to the discovery. -/
theorem channel_of_mem_discover {tree : FileTree} {options : DiscoverOptions} {path : Path}
    {entry : Log.Entry} (h : entry ∈ (tree.discover options path).2) :
    entry.channel = .discovery := by
  unfold FileTree.discover at h
  simp only at h
  split at h
  · cases h
  · cases h
  · cases List.mem_singleton.mp h
    rfl
  · simp only [List.mem_append] at h
    rcases h with (h | h) | h
    · cases List.mem_singleton.mp h
      rfl
    · exact channel_of_mem_listed (channel_of_mem_collect tree options _ _ _ _) h
    · cases List.mem_singleton.mp h
      rfl
  · cases List.mem_singleton.mp h
    rfl

/-- Collecting files is no failure of the command. -/
theorem reportsFailure_of_mem_collect {files : FileTree} {target : Path} {entry : Log.Entry}
    (h : entry ∈ (collect files target).2) : reportsFailure entry = false := by
  unfold collect at h
  split at h
  · cases h
  · split at h
    · cases h
    · split at h
      · split at h <;> cases h
      · split at h
        · rename_i hdiscover
          have hchannel := @channel_of_mem_discover files {} target entry
          rw [hdiscover] at hchannel
          simp [reportsFailure, hchannel h]
        · rename_i paths log hdiscover
          have hchannel := @channel_of_mem_discover files {} target entry
          rw [hdiscover] at hchannel
          rcases List.mem_append.mp h with h | h
          · simp [reportsFailure, hchannel h]
          · split at h
            · cases List.mem_singleton.mp h
              rfl
            · cases h
      · cases h

/-- A failure is logged at any level that can be asked for. -/
theorem filter_reportsFailure_atLeast (level : Log.Level) (log : Log) :
    (log.atLeast level).filter reportsFailure = log.filter reportsFailure := by
  rw [Log.atLeast, List.filter_filter]
  apply List.filter_congr
  intro entry _
  have herror : level.rank ≤ Log.Level.error.rank := by cases level <;> decide
  by_cases h : entry.level = .error
  · simp [reportsFailure, h, herror]
  · simp [reportsFailure, h]

/-- Behind quiet entries the failure is the only one that is reported. -/
theorem filter_reportsFailure_append {quiet : Log}
    (h : ∀ entry ∈ quiet, reportsFailure entry = false) (message : String) :
    (quiet ++ [failureEntry message]).filter reportsFailure = [failureEntry message] := by
  have hnone : quiet.filter reportsFailure = [] := by
    apply List.filter_eq_nil_iff.mpr
    intro entry hentry
    rw [h entry hentry]
    exact Bool.false_ne_true
  rw [List.filter_append, hnone]
  rfl

end ScriptAudit.Command
