import ScriptAudit.Proofs.Concrete.Conversion
import ScriptAudit.Proofs.Report.History
import ScriptAudit.Proofs.Scan.Cutoff

/-!
# A scan of a parsed file fails on output or not at all

There are two things a scan can stumble over: a node that does not stand at a proper place, and a
diagnostic that is not taken. The nodes of a parsed file all stand at proper places, whatever the
parser made of the file. And a reporter that keeps its diagnostics, writes them as JSON or fills the
default templates has a text for each of them, so it only fails to take one if it had failed before
or if its sink has no room for another write.
-/

set_option autoImplicit false

namespace ScriptAudit

namespace Report.Reporter

variable {r : Reporter} {ds : List Diagnostic}

/-- There is room for diagnostics if they are kept, or if the sink takes one write for each. -/
def HasRoom (r : Reporter) (ds : List Diagnostic) : Prop :=
  r.format = .collecting ∨ r.sink.Admits ds.length

/-- A reporter that collects takes every diagnostic. -/
theorem exists_emit_of_collecting (hformat : r.format = .collecting) (hworking : r.failed = false)
    (d : Diagnostic) :
    ∃ next : Reporter, r.emit d = (next, [], none) ∧ next.format = .collecting ∧
      next.failed = false := by
  refine ⟨{ r with held := r.held ++ [d], counts := r.counts.add d.severity }, ?_, hformat,
    hworking⟩
  simp [emit, write, rendered, hformat, hworking]

/-- A reporter that keeps its diagnostics takes all of them and asks nothing of its sink. -/
theorem emitAll_of_collecting (hformat : r.format = .collecting) (hworking : r.failed = false)
    (k : Nat) (ds : List Diagnostic) : (emitAll (r, k) ds).2 = none := by
  unfold emitAll
  induction ds generalizing r k with
  | nil => rfl
  | cons d ds ih =>
    obtain ⟨next, hemit, hnext, hstill⟩ := exists_emit_of_collecting hformat hworking d
    have hstep : deliver (r, k) d = ((next, k + 1), none) := by rw [deliver, hemit]
    rw [untilFault, hstep]
    exact ih hnext hstill (k + 1)

/-- A failed reporter stops at the first diagnostic. -/
theorem emitAll_of_failed (h : r.failed = true) (k : Nat) (d : Diagnostic) :
    (emitAll (r, k) (d :: ds)).2 = some .failedBefore := by
  have hstep : deliver (r, k) d = ((r, k), some .failedBefore) := by
    rw [deliver, emit_of_failed h]
  rw [emitAll, untilFault, hstep]

/-- Diagnostics that there is room for are all emitted. -/
theorem emitAll_of_admits (hr : r.Writes ds) (hroom : r.sink.Admits ds.length) (k : Nat) :
    (emitAll (r, k) ds).2 = none := by
  cases hlimit : r.sink.room with
  | none =>
    have hreliable : r.Reliable ds := by
      refine ⟨hr.working, hlimit, fun d hd => ?_⟩
      obtain ⟨text, htext⟩ := hr.legible d hd
      exact ⟨some text, htext⟩
    rw [emitAll_of_reliable hreliable]
  | some n =>
    have hself : r.withRoom n = r := by rw [withRoom, ← hlimit]
    rw [← hself, emitAll_withRoom hr (hroom n hlimit)]

/-- Where there is not enough room the sink stops the emission. -/
theorem emitAll_of_not_admits (hr : r.Writes ds) (hroom : ¬ r.sink.Admits ds.length) (k : Nat) :
    (emitAll (r, k) ds).2 = some (.failedNow (.sink r.sink.fault)) := by
  cases hlimit : r.sink.room with
  | none => exact absurd (Sink.admits_of_unlimited hlimit ds.length) hroom
  | some n =>
    have hself : r.withRoom n = r := by rw [withRoom, ← hlimit]
    have hlt : n < ds.length := by
      by_contra hle
      exact hroom ((Sink.admits_of_room hlimit).mono (Nat.le_of_not_lt hle))
    rw [← hself, emitAll_withRoom_of_lt hr hlt]
    rfl

/-- A reporter that speaks can write any diagnostics. -/
theorem Speaks.writes (hr : r.Speaks) (ds : List Diagnostic) : r.Writes ds := by
  refine ⟨hr.working, fun d _ => ?_⟩
  obtain ⟨text, htext, -⟩ := hr.exists_written d
  exact ⟨text, htext⟩

/-- What becomes of diagnostics that are handed over depends on three things: whether there are any,
whether the reporter has failed before, and whether there is room. -/
theorem fault_emitAll
    (hformat : r.format = .collecting ∨ r.format = .jsonLines ∨
      ∃ console, r.format = .console console ∧ console.templates = {})
    (k : Nat) (ds : List Diagnostic) :
    ((emitAll (r, k) ds).2 = none ↔ ds = [] ∨ r.failed = false ∧ r.HasRoom ds) ∧
      ∀ fault, (emitAll (r, k) ds).2 = some fault →
        r.failed = true ∧ fault = .failedBefore ∨
          r.failed = false ∧ fault = .failedNow (.sink r.sink.fault) := by
  cases ds with
  | nil =>
    -- not even a reporter that has failed can refuse what it is not given
    simp [emitAll]
  | cons d ds =>
    cases hfailed : r.failed with
    | true => simp [emitAll_of_failed hfailed, eq_comm]
    | false =>
      rcases hformat with hcollecting | hspeaks
      · simp [emitAll_of_collecting hcollecting hfailed, HasRoom, hcollecting]
      · have hwrites := Speaks.writes ⟨hfailed, hspeaks⟩ (d :: ds)
        have hkeeps : r.format ≠ .collecting := by
          rcases hspeaks with h | ⟨console, h, -⟩
          · simp [h]
          · simp [h]
        by_cases hroom : r.sink.Admits (d :: ds).length
        · simp [emitAll_of_admits hwrites hroom, HasRoom, - List.length_cons, hroom]
        · simp [emitAll_of_not_admits hwrites hroom, HasRoom, - List.length_cons, hroom, hkeeps,
            eq_comm]

end Report.Reporter

namespace Scan

open ScriptAudit.Report ScriptAudit.Concrete

/-- **A scan of a parsed file can only fail on output.** Whatever bytes a file has and whatever tree
a parser gives for it, every node stands at a line and a column that count from one, and no check of
a rule fails. A reporter that keeps its diagnostics, writes them as JSON or fills the default
templates of a console makes a scan return normally exactly if nothing is found, or if it has not
failed before and has room for what is found. Otherwise the scan stops with the failure of the
reporter, now or before, and with nothing else. -/
theorem run_toNode_fault (source : Source) (t : Tree) (rules : List Rule) (path : Option Path)
    (r : Reporter)
    (hformat : r.format = .collecting ∨ r.format = .jsonLines ∨
      ∃ console, r.format = .console console ∧ console.templates = {}) :
    let root := t.toNode source
    let ds := findings rules root path
    let scan := run (Registry.ofRules rules) root path r
    (∀ n ∈ root.walk, 1 ≤ n.head.line ∧ 1 ≤ n.head.column) ∧
    (∀ n ∈ root.walk, ∀ rule : Rule, ∃ found, rule.check (visibleTree rule root) n = .ok found) ∧
    (scan.2 = none ↔ ds = [] ∨ r.failed = false ∧ r.HasRoom ds) ∧
    ∀ fault, scan.2 = some fault →
      r.failed = true ∧ fault = .emission .failedBefore ∨
        r.failed = false ∧ fault = .emission (.failedNow (.sink r.sink.fault)) := by
  intro root ds scan
  have hroot : root.AllPlaced := t.allPlaced_toNode source
  have hscan : scan.2 = (Reporter.emitAll (r, 0) ds).2.map .emission :=
    congrArg Prod.snd (delivery_run hroot rules path r)
  obtain ⟨hnone, hfault⟩ := Reporter.fault_emitAll hformat 0 ds
  rw [Node.walk_eq_preorder, hscan]
  refine ⟨hroot, ?_, ?_, ?_⟩
  · intro n hn rule
    rw [rule.check_visibleTree]
    exact ⟨_, rule.check_eq_ok_found hroot hn⟩
  · rw [Option.map_eq_none_iff, hnone]
  · intro fault h
    obtain ⟨emitFault, hemit, rfl⟩ := Option.map_eq_some_iff.mp h
    rcases hfault emitFault hemit with ⟨hfailed, rfl⟩ | ⟨hfailed, rfl⟩
    · exact Or.inl ⟨hfailed, rfl⟩
    · exact Or.inr ⟨hfailed, rfl⟩

/-- A call of `eval` as no parser gives it: it ends before it starts, behind the end of the source,
and stands more bytes into its line than there are before it. -/
def strangeCall : Tree :=
  .node ⟨"call_expression", 9, 3, 0, 40, none, true⟩
    [.node ⟨"identifier", 1, 5, 0, 1, some "function", true⟩ []]

/-- A byte that begins no character, and then `eval`. -/
def strangeSource : Source := [0xFF, 101, 118, 97, 108]

/-- With the rule given twice there are two writes. A sink with room for both takes them; one with
room for a single one makes the scan stop at the second. -/
theorem run_toNode_fault_strangeCall :
    (run (Registry.ofRules [.evalCall, .evalCall]) (strangeCall.toNode strangeSource) none
        { format := .jsonLines, sink := { room := some 2 } }).2 = none ∧
      (run (Registry.ofRules [.evalCall, .evalCall]) (strangeCall.toNode strangeSource) none
        { format := .jsonLines, sink := { room := some 1, fault := .closed } }).2 =
        some (.emission (.failedNow (.sink .closed))) := by
  have hlength :
      (findings [.evalCall, .evalCall] (strangeCall.toNode strangeSource) none).length = 2 := by
    decide +kernel
  constructor
  · have hscan := run_toNode_fault strangeSource strangeCall [.evalCall, .evalCall] none
      { format := .jsonLines, sink := { room := some 2 } } (.inr (.inl rfl))
    refine hscan.2.2.1.mpr (.inr ⟨rfl, .inr ?_⟩)
    rw [hlength]
    exact Sink.admits_of_room rfl
  · obtain ⟨-, -, hnone, hfault⟩ := run_toNode_fault strangeSource strangeCall
      [.evalCall, .evalCall] none
      { format := .jsonLines, sink := { room := some 1, fault := .closed } } (.inr (.inl rfl))
    obtain ⟨fault, hstop⟩ := Option.ne_none_iff_exists'.mp fun h => by
      rcases hnone.mp h with hnil | ⟨-, hformat | hroom⟩
      · rw [hnil] at hlength
        cases hlength
      · cases hformat
      · have htwo := hroom 1 rfl
        rw [hlength] at htwo
        omega
    rcases hfault fault hstop with ⟨hfailed, -⟩ | ⟨-, rfl⟩
    · cases hfailed
    · exact hstop

end Scan

end ScriptAudit
