import ScriptAudit.Report.Reporter

/-!
# What happens to a reporter

A caller asks a reporter to take diagnostics, to announce files and to sum up, and goes on whatever
comes of it. Each call is remembered as an event: the reporter as it was, the call, and the fault of
the call if it had one.

Taking a diagnostic has four outcomes, and `emit_cases` lists them once: a failed reporter declines,
a working one takes the diagnostic, fails, or refuses. Everything else follows from that list. One
call keeps the counts and the flag in step with the events, and so does a history of any length.
-/

set_option autoImplicit false

namespace ScriptAudit.Report

/-- The fault is one of writing, or one of value in a template: the reporter is of no more use. -/
def WriteFault.isFatal : WriteFault → Bool
  | sink _ => true
  | text fault => fault.isFatal

namespace Counts

/-- The counts as a dictionary, in which only the severities that were taken have an entry. -/
def entries (counts : Counts) : List (Severity × Nat) :=
  [Severity.info, Severity.warning].filterMap fun s =>
    if counts.of s = 0 then none else some (s, counts.of s)

/-- Taking a severity adds one to its count and nothing to the others. -/
theorem of_add (counts : Counts) (s t : Severity) :
    (counts.add t).of s = counts.of s + if t = s then 1 else 0 := by
  cases s <;> cases t <;> rfl

end Counts

namespace Reporter

/-! ## One diagnostic -/

/-- A write changes nothing but the sink. -/
theorem put_frame (r : Reporter) (text : String) :
    (r.put text).1 = { r with sink := (r.put text).1.sink } := by
  unfold put
  split <;> rfl

/-- A write that fails changes nothing. -/
theorem put_fault {r : Reporter} {text : String} {fault : WriteFault}
    (h : (r.put text).2 = some fault) : (r.put text).1 = r := by
  unfold put at h ⊢
  split
  · rename_i hwrite
    simp [hwrite] at h
  · rfl

/-- A write adds its text. -/
theorem text_of_write {sink sink' : Sink} {text : String} (h : sink.write text = .ok sink') :
    sink'.text = sink.text ++ text := by
  unfold Sink.write at h
  split at h
  · cases h
    simp [Sink.text]
  · cases h
  · cases h
    simp [Sink.text]

/-- An empty write adds no text. -/
theorem text_put_empty (r : Reporter) : (r.put "").1.sink.text = r.sink.text := by
  unfold put
  split
  · rename_i sink hwrite
    rw [text_of_write hwrite, String.append_empty]
  · rfl

/-- To write or keep a diagnostic changes neither the counts nor the flag. -/
theorem write_frame (r : Reporter) (d : Diagnostic) :
    (r.write d).1.counts = r.counts ∧ (r.write d).1.failed = r.failed := by
  unfold write
  split
  · exact ⟨rfl, rfl⟩
  · rename_i text _
    rw [put_frame r text]
    exact ⟨rfl, rfl⟩
  · exact ⟨rfl, rfl⟩
  · have hput := put_frame r ""
    split
    all_goals
      rename_i hwrite
      rw [hwrite] at hput
      rw [hput]
      exact ⟨rfl, rfl⟩

/-- A diagnostic that is not written leaves no trace in what is held and what was written. -/
theorem write_fault {r : Reporter} {d : Diagnostic} {fault : WriteFault}
    (h : (r.write d).2 = some fault) :
    (r.write d).1.held = r.held ∧ (r.write d).1.sink.text = r.sink.text := by
  unfold write at h ⊢
  split at h
  · cases h
  · rw [put_fault h]
    exact ⟨rfl, rfl⟩
  · exact ⟨rfl, rfl⟩
  · -- improper markup has taken a write, but an empty one
    have hput := put_frame r ""
    have htext := text_put_empty r
    split
    all_goals
      rename_i hwrite
      rw [hwrite] at hput htext
      exact ⟨by rw [hput], htext⟩

/-- What can become of a diagnostic. -/
theorem emit_cases (r : Reporter) (d : Diagnostic) :
    (r.failed = true ∧ r.emit d = (r, [], some .failedBefore)) ∨
    (r.failed = false ∧ (r.write d).2 = none ∧
      r.emit d = ({ (r.write d).1 with counts := r.counts.add d.severity }, [], none)) ∨
    (∃ cause, r.failed = false ∧ (r.write d).2 = some cause ∧ cause.isFatal = true ∧
      r.emit d =
        ({ (r.write d).1 with failed := true }, [failureEntry cause], some (.failedNow cause))) ∨
    (∃ cause, r.failed = false ∧ (r.write d).2 = some (.text cause) ∧ cause.isFatal = false ∧
      r.emit d = ((r.write d).1, [], some (.refused cause))) := by
  have hcounts := (r.write_frame d).1
  cases hfailed : r.failed with
  | true => exact Or.inl ⟨rfl, by rw [emit, if_pos hfailed]⟩
  | false =>
    rw [emit, hfailed]
    rcases hwrite : r.write d with ⟨r', _ | fault | fault⟩
    · rw [hwrite] at hcounts
      exact Or.inr (Or.inl ⟨rfl, rfl, by rw [← hcounts]; rfl⟩)
    · exact Or.inr (Or.inr (Or.inl ⟨.sink fault, rfl, rfl, rfl, rfl⟩))
    · cases hfatal : fault.isFatal with
      | true =>
        refine Or.inr (Or.inr (Or.inl ⟨.text fault, rfl, rfl, hfatal, ?_⟩))
        simp [hfatal, fail]
      | false =>
        refine Or.inr (Or.inr (Or.inr ⟨fault, rfl, rfl, hfatal, ?_⟩))
        simp [hfatal]

/-- A diagnostic that is not taken leaves the counts, what is held and what was written alone. -/
theorem emit_fault {r : Reporter} {d : Diagnostic} (h : (r.emit d).2.2 ≠ none) :
    (r.emit d).1.counts = r.counts ∧ (r.emit d).1.held = r.held ∧
      (r.emit d).1.sink.text = r.sink.text := by
  obtain ⟨-, hemit⟩ | ⟨-, -, hemit⟩ | ⟨cause, -, hwrite, -, hemit⟩ | ⟨cause, -, hwrite, -, hemit⟩ :=
    r.emit_cases d
  · rw [hemit]
    exact ⟨rfl, rfl, rfl⟩
  · rw [hemit] at h
    exact absurd rfl h
  · rw [hemit]
    exact ⟨(r.write_frame d).1, write_fault hwrite⟩
  · rw [hemit]
    exact ⟨(r.write_frame d).1, write_fault hwrite⟩

/-- A failed reporter takes no diagnostics. -/
theorem emit_of_failed {r : Reporter} (h : r.failed = true) (d : Diagnostic) :
    r.emit d = (r, [], some .failedBefore) := by
  rw [emit, if_pos h]

/-- A panel changes neither the counts nor the flag, whether it can be shown or not. -/
theorem showPanel_frame (r : Reporter) (panel : Console → Panel) :
    (r.showPanel panel).1.counts = r.counts ∧ (r.showPanel panel).1.failed = r.failed := by
  unfold showPanel
  repeat' split
  all_goals exact ⟨rfl, rfl⟩

/-- A header changes neither the counts nor the failure. -/
theorem beginFile_frame (r : Reporter) (path : Path) :
    (r.beginFile path).1.counts = r.counts ∧ (r.beginFile path).1.failed = r.failed :=
  r.showPanel_frame fun console => console.header path

/-- A summary changes neither the counts nor the failure. -/
theorem summarize_frame (r : Reporter) :
    r.summarize.1.counts = r.counts ∧ r.summarize.1.failed = r.failed :=
  r.showPanel_frame fun _ => r.counts.summary

/-! ## Calls -/

/-- What a caller asks of a reporter. -/
inductive Call where
  | emit (d : Diagnostic)
  | beginFile (path : Path)
  | summarize

/-- The fault of a call. -/
inductive CallFault where
  | emission (fault : EmitFault)
  | panel (fault : SinkFault)
  deriving DecidableEq

/-- What a call does to the reporter, and its fault. -/
def perform (r : Reporter) : Call → Reporter × Option CallFault
  | .emit d => ((r.emit d).1, (r.emit d).2.2.map .emission)
  | .beginFile path => ((r.beginFile path).1, (r.beginFile path).2.map .panel)
  | .summarize => (r.summarize.1, r.summarize.2.map .panel)

/-- A call that was made, with the reporter it was made on and its fault. -/
structure Event where
  before : Reporter
  call : Call
  fault : Option CallFault

/-- What becomes of a call. -/
def event (r : Reporter) (call : Call) : Event :=
  { before := r, call, fault := (r.perform call).2 }

namespace Event

/-- A diagnostic of a severity was taken. -/
def takes (e : Event) (s : Severity) : Bool :=
  match e.call with
  | .emit d => d.severity = s ∧ e.fault = none
  | _ => false

/-- A diagnostic was not taken because of a fatal fault in writing it. -/
def Breaks (e : Event) : Prop :=
  ∃ d cause, e.call = .emit d ∧ (e.before.write d).2 = some cause ∧ cause.isFatal = true ∧
    e.fault = some (.emission (.failedNow cause))

end Event

/-- The counts and the flag are those of the calls that were made. -/
structure Recorded (r : Reporter) (past : List Event) : Prop where
  counts (s : Severity) : r.counts.of s = past.countP (·.takes s)
  failed : r.failed = true ↔ ∃ e ∈ past, e.Breaks

/-- A call adds what its event says to the counts. -/
theorem of_counts_perform (r : Reporter) (call : Call) (s : Severity) :
    (r.perform call).1.counts.of s = r.counts.of s + if (r.event call).takes s then 1 else 0 := by
  cases call with
  | emit d =>
    by_cases htaken : (r.emit d).2.2 = none
    · -- only the second outcome is without a fault
      obtain ⟨-, hemit⟩ | ⟨-, -, hemit⟩ | ⟨_, -, -, -, hemit⟩ | ⟨_, -, -, -, hemit⟩ :=
        r.emit_cases d
      · simp [hemit] at htaken
      · simp [perform, event, Event.takes, hemit, Counts.of_add]
      · simp [hemit] at htaken
      · simp [hemit] at htaken
    · simp [perform, event, Event.takes, htaken, (emit_fault htaken).1]
  | beginFile path => simp [perform, event, Event.takes, r.beginFile_frame path]
  | summarize => simp [perform, event, Event.takes, r.summarize_frame]

/-- A call fails the reporter exactly if its event says so. -/
theorem failed_perform (r : Reporter) (call : Call) :
    (r.perform call).1.failed = true ↔ r.failed = true ∨ (r.event call).Breaks := by
  cases call with
  | emit d =>
    have hbreaks : (r.event (.emit d)).Breaks ↔ ∃ cause, (r.write d).2 = some cause ∧
        cause.isFatal = true ∧ (r.emit d).2.2 = some (.failedNow cause) := by
      simp [Event.Breaks, event, perform]
    have hframe := (r.write_frame d).2
    rw [hbreaks]
    obtain ⟨hfailed, hemit⟩ | ⟨hfailed, hwrite, hemit⟩ | ⟨cause, hfailed, hwrite, hfatal, hemit⟩ |
      ⟨cause, hfailed, hwrite, hfatal, hemit⟩ := r.emit_cases d
    · simp [perform, hemit, hfailed]
    · simp [perform, hemit, hfailed, hframe]
    · simp [perform, hemit, hwrite, hfatal]
    · simp [perform, hemit, hfailed, hframe]
  | beginFile path => simp [perform, event, Event.Breaks, r.beginFile_frame path]
  | summarize => simp [perform, event, Event.Breaks, r.summarize_frame]

/-- One call keeps the record. -/
theorem Recorded.perform {r : Reporter} {past : List Event} (h : Recorded r past) (call : Call) :
    Recorded (r.perform call).1 (past ++ [r.event call]) := by
  refine ⟨fun s => ?_, ?_⟩
  · rw [of_counts_perform, h.counts, List.countP_append, List.countP_singleton]
  · rw [failed_perform, h.failed]
    simp [or_and_right, exists_or]

/-- A finding at the fifth line. -/
def remark (severity : Severity) (message : String) : Diagnostic where
  ruleId := "eval-call"
  severity
  message
  line := 5
  column := none
  line_pos := Nat.succ_pos 4
  column_pos := Diagnostic.absent_pos

end Reporter

end ScriptAudit.Report
