import ScriptAudit.Repeat
import ScriptAudit.Report.Reporter

/-!
# Handing diagnostics to a reporter

A reporter takes diagnostics one by one. `Reporter.emitAll` hands it a list of them until one is not
taken; it is all that a scan does to its reporter.

A reporter is reliable for some diagnostics when it has not failed, its sink takes any number of
writes, and it has a text for each of them. A reliable reporter takes them all, and `Reporter.after`
says what it is like afterwards: what it holds, what it has written, and its counts.
-/

set_option autoImplicit false

namespace ScriptAudit.Report.Reporter

/-- A reporter together with the number of diagnostics it has taken. -/
abbrev Delivery := Reporter × Nat

/-- Hands over one diagnostic and counts it if it is taken. -/
def deliver (s : Delivery) (d : Diagnostic) : Delivery × Option EmitFault :=
  match s.1.emit d with
  | (r, _, none) => ((r, s.2 + 1), none)
  | (r, _, some fault) => ((r, s.2), some fault)

/-- Hands over diagnostics in order until one is not taken. -/
def emitAll (s : Delivery) (ds : List Diagnostic) : Delivery × Option EmitFault :=
  untilFault deliver s ds

/-- A reporter that takes some diagnostics: it works, its sink never refuses a write, and each of
them has a text. -/
structure Reliable (r : Reporter) (ds : List Diagnostic) : Prop where
  working : r.failed = false
  unlimited : r.sink.room = none
  legible : ∀ d ∈ ds, ∃ text, r.rendered d = .ok text

/-- A reporter that keeps its diagnostics or writes them as JSON has a text for each of them, so it
is reliable as soon as its sink has no limit. -/
theorem reliable_of_unlimited {r : Reporter} (hformat : ∀ console, r.format ≠ .console console)
    (hworking : r.failed = false) (hunlimited : r.sink.room = none) (ds : List Diagnostic) :
    r.Reliable ds := by
  refine ⟨hworking, hunlimited, ?_⟩
  intro d _
  unfold rendered
  cases h : r.format with
  | collecting => exact ⟨_, rfl⟩
  | jsonLines => exact ⟨_, rfl⟩
  | console console => exact absurd h (hformat console)

/-- The text that a diagnostic adds to the sink, if there is any. -/
def written? (r : Reporter) (d : Diagnostic) : Option String := (r.rendered d).toOption.join

/-- The reporter once it has taken a list of diagnostics: it holds them, or it has written their
texts, and it has counted them. -/
def after (r : Reporter) (ds : List Diagnostic) : Reporter :=
  { r with
    held := if r.format = .collecting then r.held ++ ds else r.held
    sink := { r.sink with writes := r.sink.writes ++ ds.filterMap r.written? }
    counts :=
      { info := r.counts.info + ds.countP (·.severity = .info)
        warning := r.counts.warning + ds.countP (·.severity = .warning) } }

/-- No diagnostics change nothing. -/
theorem after_nil (r : Reporter) : r.after [] = r := by
  simp [after]

/-- What is taken in two parts is taken as a whole. -/
theorem after_append (r : Reporter) (ds es : List Diagnostic) :
    (r.after ds).after es = r.after (ds ++ es) := by
  have hwritten : (r.after ds).written? = r.written? := rfl
  rw [after, hwritten]
  unfold after
  by_cases hformat : r.format = .collecting
  · simp [hformat, Nat.add_assoc]
  · simp [hformat, Nat.add_assoc]

/-- Taking a diagnostic counts it under its severity. -/
theorem add_eq_countP (counts : Counts) (d : Diagnostic) :
    counts.add d.severity =
      { info := counts.info + [d].countP (·.severity = .info)
        warning := counts.warning + [d].countP (·.severity = .warning) } := by
  cases h : d.severity <;> simp [Counts.add, h]

/-- A sink without a limit takes every write. -/
theorem write_of_unlimited {sink : Sink} (h : sink.room = none) (text : String) :
    sink.write text = .ok { sink with writes := sink.writes ++ [text] } := by
  rw [Sink.write, h]

/-- Only a reporter that keeps its diagnostics has nothing to write for one. -/
theorem eq_none_iff_of_rendered {r : Reporter} {d : Diagnostic} {text : Option String}
    (h : r.rendered d = .ok text) : text = none ↔ r.format = .collecting := by
  unfold rendered at h
  cases hformat : r.format with
  | collecting =>
    rw [hformat] at h
    simp [← Except.ok.inj h]
  | jsonLines =>
    rw [hformat] at h
    simp [← Except.ok.inj h]
  | console console =>
    rw [hformat] at h
    cases htext : console.text d with
    | error fault => simp [htext, Except.map] at h
    | ok line =>
      simp only [htext, Except.map] at h
      simp [← Except.ok.inj h]

/-- A reliable reporter writes or keeps a diagnostic, and then only has to count it. -/
theorem write_of_reliable {r : Reporter} {d : Diagnostic} {ds : List Diagnostic}
    (hr : r.Reliable (d :: ds)) : r.write d = ({ r.after [d] with counts := r.counts }, none) := by
  obtain ⟨text, htext⟩ := hr.legible d List.mem_cons_self
  have hwritten : r.written? d = text := by
    rw [written?, htext]
    rfl
  have hformat := eq_none_iff_of_rendered htext
  rw [write, htext]
  cases text with
  | none => simp [after, hformat.mp rfl, hwritten]
  | some line =>
    have hkeeps : ¬ r.format = .collecting := fun h => nomatch hformat.mpr h
    simp [put, write_of_unlimited hr.unlimited, after, hkeeps, hwritten]

/-- A reliable reporter takes a diagnostic. -/
theorem emit_of_reliable {r : Reporter} {d : Diagnostic} {ds : List Diagnostic}
    (hr : r.Reliable (d :: ds)) : r.emit d = (r.after [d], [], none) := by
  rw [emit, hr.working, write_of_reliable hr]
  show ({ r.after [d] with counts := r.counts.add d.severity }, [], none) = _
  rw [add_eq_countP]
  rfl

/-- What has been taken does not make a reporter less reliable for what is left. -/
theorem Reliable.after {r : Reporter} {d : Diagnostic} {ds : List Diagnostic}
    (hr : r.Reliable (d :: ds)) : (r.after [d]).Reliable ds :=
  ⟨hr.working, hr.unlimited, fun e he => hr.legible e (List.mem_cons_of_mem d he)⟩

/-- A reliable reporter takes all of its diagnostics, and every one of them is counted. -/
theorem emitAll_of_reliable {r : Reporter} {ds : List Diagnostic} (hr : r.Reliable ds) (k : Nat) :
    emitAll (r, k) ds = ((r.after ds, k + ds.length), none) := by
  unfold emitAll
  induction ds generalizing r k with
  | nil => rw [after_nil]; rfl
  | cons d ds ih =>
    have hstep : deliver (r, k) d = ((r.after [d], k + 1), none) := by
      unfold deliver
      rw [emit_of_reliable hr]
    have hlength : k + 1 + ds.length = k + (d :: ds).length := by
      rw [List.length_cons]
      omega
    rw [untilFault, hstep]
    show untilFault deliver (r.after [d], k + 1) ds = _
    rw [ih hr.after, after_append, List.singleton_append, hlength]

end ScriptAudit.Report.Reporter
