import ScriptAudit.Command.Run
import ScriptAudit.Proofs.Concrete.Conversion
import ScriptAudit.Proofs.Report.History
import ScriptAudit.Proofs.Report.Room
import ScriptAudit.Proofs.Scan.Dispatch

/-!
# A run as a list of actions

A run loads files, scans them and ends with a summary; inside a scan there are loops over nodes,
rules and diagnostics. All of this comes down to a plain list of actions, which is known before the
run starts: entries are logged, diagnostics are emitted and panels are shown. A run carries the
actions out one by one and stops at the first one that fails.

An action that there is room for adds its texts, its diagnostic and its entry to what was there
before, and so does a list of them. An action that there is not enough room for adds the texts that
there is room for and stops the run.
-/

set_option autoImplicit false

namespace ScriptAudit

open ScriptAudit.Report

namespace Report.Counts

/-- How many of some diagnostics there are of each severity. -/
def ofDiagnostics (ds : List Diagnostic) : Counts :=
  { info := ds.countP (·.severity = .info), warning := ds.countP (·.severity = .warning) }

/-- Two counts together. -/
def plus (a b : Counts) : Counts := { info := a.info + b.info, warning := a.warning + b.warning }

/-- No diagnostics change no counts. -/
theorem plus_nil (counts : Counts) : counts.plus (ofDiagnostics []) = counts := rfl

/-- Diagnostics counted in two turns are counted together. -/
theorem plus_append (counts : Counts) (ds es : List Diagnostic) :
    (counts.plus (ofDiagnostics ds)).plus (ofDiagnostics es) =
      counts.plus (ofDiagnostics (ds ++ es)) := by
  simp [plus, ofDiagnostics, Nat.add_assoc]

/-- Taking a diagnostic counts it. -/
theorem add_eq_plus (counts : Counts) (d : Diagnostic) :
    counts.add d.severity = counts.plus (ofDiagnostics [d]) :=
  Reporter.add_eq_countP counts d

end Report.Counts

namespace Command

/-- One thing that a run does. -/
inductive Action where
  | note (entry : Log.Entry)
  | emit (d : Diagnostic)
  | panel (content : Console → Panel)

namespace Action

/-- What an action writes. -/
def texts (format : Format) : Action → List String
  | note _ => []
  | emit d => (({ format } : Reporter).written? d).toList
  | panel content => Reporter.panelTexts format content

/-- The entry that an action logs. -/
def entry? : Action → Option Log.Entry
  | note entry => some entry
  | emit _ => none
  | panel _ => none

/-- The diagnostic that an action emits. -/
def diagnostic? : Action → Option Diagnostic
  | note _ => none
  | emit d => some d
  | panel _ => none

/-- How a run stops at an action that cannot write. -/
def stop (fault : SinkFault) : Action → Stop
  | emit _ => .scan (.emission (.failedNow (.sink fault)))
  | note _ => .panel fault
  | panel _ => .panel fault

/-- What an action that cannot write logs on its own. -/
def failureLog (fault : SinkFault) : Action → Log
  | emit _ => [Reporter.failureEntry (.sink fault)]
  | note _ => []
  | panel _ => []

end Action

/-- Carries out one action. -/
def act (p : Progress) : Action → Progress × Option Stop
  | .note entry => ({ p with log := p.log ++ [entry] }, none)
  | .emit d =>
    match p.reporter.emit d with
    | (reporter, log, fault) =>
      ({ reporter, log := p.log ++ log }, fault.map fun fault => .scan (.emission fault))
  | .panel content =>
    match p.reporter.showPanel content with
    | (reporter, fault) => ({ p with reporter }, fault.map .panel)

/-! ## What actions add -/

namespace Progress

/-- A run once it has carried out some actions. -/
def after (p : Progress) (actions : List Action) : Progress :=
  { reporter :=
      { p.reporter with
        sink := p.reporter.sink.wrote (actions.flatMap (·.texts p.reporter.format))
        counts := p.reporter.counts.plus
          (Counts.ofDiagnostics (actions.filterMap Action.diagnostic?)) }
    log := p.log ++ actions.filterMap Action.entry? }

/-- No actions change nothing. -/
theorem after_nil (p : Progress) : p.after [] = p := by
  simp [after, Sink.wrote_nil, Counts.plus_nil]

/-- What comes after some actions and then others comes after all of them. -/
theorem after_append (p : Progress) (as bs : List Action) :
    (p.after as).after bs = p.after (as ++ bs) := by
  simp [after, Sink.wrote_append, Counts.plus_append]

variable (p : Progress) (as : List Action)

/-- Actions do not change the format. -/
@[simp] theorem format_after : (p.after as).reporter.format = p.reporter.format := rfl

/-- Actions do not change how the sink fails. -/
@[simp] theorem fault_after : (p.after as).reporter.sink.fault = p.reporter.sink.fault := rfl

/-- The sink has the texts of the actions behind what it had. -/
@[simp] theorem writes_after :
    (p.after as).reporter.sink.writes =
      p.reporter.sink.writes ++ as.flatMap (·.texts p.reporter.format) := rfl

/-- The log has the entries of the actions behind what it had. -/
@[simp] theorem log_after : (p.after as).log = p.log ++ as.filterMap Action.entry? := rfl

end Progress

variable {p : Progress} {a : Action}

/-- An action that there is room for is carried out. -/
theorem act_of_admits (hp : p.reporter.Speaks)
    (hroom : p.reporter.sink.Admits (a.texts p.reporter.format).length) :
    act p a = (p.after [a], none) := by
  cases a with
  | note entry =>
    simp [act, Progress.after, Action.texts, Action.diagnostic?, Action.entry?, Sink.wrote_nil,
      List.filterMap_cons, Counts.plus_nil]
  | emit d =>
    obtain ⟨text, htext, hwritten⟩ := hp.exists_written d
    rw [Action.texts, hwritten] at hroom
    rw [act, Reporter.emit_of_admits hp.working htext hroom, Counts.add_eq_plus]
    simp [Progress.after, Action.texts, Action.diagnostic?, Action.entry?, hwritten,
      List.filterMap_cons]
  | panel content =>
    rw [act, Reporter.showPanel_of_admits hroom]
    simp [Progress.after, Action.texts, Action.diagnostic?, Action.entry?, List.filterMap_cons,
      Counts.plus_nil]

/-- An action that there is not enough room for writes what there is room for and stops the run. -/
theorem act_of_lt (hp : p.reporter.Speaks) {n : Nat} (hroom : p.reporter.sink.room = some n)
    (hlt : n < (a.texts p.reporter.format).length) :
    ∃ q, act p a = (q, some (a.stop p.reporter.sink.fault)) ∧
      q.reporter.sink = p.reporter.sink.wrote ((a.texts p.reporter.format).take n) ∧
      q.log = p.log ++ a.failureLog p.reporter.sink.fault := by
  cases a with
  | note entry => exact absurd hlt (Nat.not_lt_zero n)
  | emit d =>
    obtain ⟨text, htext, hwritten⟩ := hp.exists_written d
    -- a diagnostic is a single write
    rw [Action.texts, hwritten] at hlt
    obtain rfl : n = 0 := by
      have hone : (some text).toList.length = 1 := rfl
      omega
    rw [act, Reporter.emit_of_full hp.working htext hroom, List.take_zero, Sink.wrote_nil]
    exact ⟨_, rfl, rfl, rfl⟩
  | panel content =>
    rw [act, Reporter.showPanel_of_lt hroom hlt]
    exact ⟨_, rfl, rfl, (List.append_nil _).symm⟩

/-- A reporter that speaks goes on to speak. -/
theorem Progress.speaks_after (hp : p.reporter.Speaks) (as : List Action) :
    (p.after as).reporter.Speaks :=
  ⟨hp.working, hp.format⟩

/-- Actions that there is room for are all carried out. -/
theorem untilFault_act_of_admits (hp : p.reporter.Speaks) {as : List Action}
    (hroom : p.reporter.sink.Admits (as.flatMap (·.texts p.reporter.format)).length) :
    untilFault act p as = (p.after as, none) := by
  induction as generalizing p with
  | nil => rw [untilFault_nil, Progress.after_nil]
  | cons a as ih =>
    rw [List.flatMap_cons, List.length_append] at hroom
    have hfirst := act_of_admits hp (hroom.mono (Nat.le_add_right _ _))
    have hrest : (p.after [a]).reporter.sink.Admits
        (as.flatMap (·.texts (p.after [a]).reporter.format)).length := by
      have hwrote := hroom.wrote
      rw [← List.flatMap_singleton (fun a : Action => a.texts p.reporter.format) a] at hwrote
      exact hwrote
    rw [untilFault, hfirst]
    show untilFault act (p.after [a]) as = _
    rw [ih (Progress.speaks_after hp [a]) hrest, Progress.after_append, List.singleton_append]

/-- Where there is not room for all actions, the run stops in one of them, whatever comes behind it:
what was written are the first texts, as many as there is room for, the one that failed is a text of
that action, and what was logged are the entries before it. -/
theorem exists_untilFault_act_of_lt (hp : p.reporter.Speaks) {as : List Action} {n : Nat}
    (hroom : p.reporter.sink.room = some n)
    (hlt : n < (as.flatMap (·.texts p.reporter.format)).length) :
    ∃ before a rest q, as = before ++ a :: rest ∧
      (∀ behind, untilFault act p (before ++ a :: behind) =
        (q, some (a.stop p.reporter.sink.fault))) ∧
      (before.flatMap (·.texts p.reporter.format)).length ≤ n ∧
      n < (before.flatMap (·.texts p.reporter.format)).length +
        (a.texts p.reporter.format).length ∧
      q.reporter.sink.writes =
        p.reporter.sink.writes ++ (as.flatMap (·.texts p.reporter.format)).take n ∧
      q.log = p.log ++ before.filterMap Action.entry? ++
        a.failureLog p.reporter.sink.fault := by
  -- on the actions, with the room that is left: either the first action is the one that does not
  -- fit, or it is carried out and takes its part of the room
  induction as generalizing p n with
  | nil => exact absurd hlt (Nat.not_lt_zero n)
  | cons a as ih =>
    rw [List.flatMap_cons, List.length_append] at hlt
    by_cases hfit : n < (a.texts p.reporter.format).length
    · obtain ⟨q, hact, hsink, hlog⟩ := act_of_lt hp hroom hfit
      refine ⟨[], a, as, q, rfl, ?_, Nat.zero_le n, ?_, ?_, ?_⟩
      · intro behind
        rw [List.nil_append, untilFault, hact]
      · rw [List.flatMap_nil, List.length_nil, Nat.zero_add]
        exact hfit
      · rw [hsink, List.flatMap_cons, List.take_append_of_le_length (Nat.le_of_lt hfit)]
        rfl
      · rw [hlog, List.filterMap_nil, List.append_nil]
    · have hadmits : p.reporter.sink.Admits (a.texts p.reporter.format).length :=
        (Sink.admits_of_room hroom).mono (by omega)
      have hleft : (p.after [a]).reporter.sink.room =
          some (n - (a.texts p.reporter.format).length) := by
        simp [Progress.after, Sink.wrote, hroom]
      have hmore : n - (a.texts p.reporter.format).length <
          (as.flatMap (·.texts (p.after [a]).reporter.format)).length := by
        rw [Progress.format_after]
        omega
      obtain ⟨before, b, rest, q, has, hrun, hreached, hmissed, hwrites, hlog⟩ :=
        ih (Progress.speaks_after hp [a]) hleft hmore
      rw [Progress.format_after] at hreached hmissed
      refine ⟨[a] ++ before, b, rest, q, ?_, ?_, ?_, ?_, ?_, ?_⟩
      · rw [has, List.append_assoc, List.singleton_append]
      · intro behind
        rw [List.append_assoc, List.singleton_append, untilFault, act_of_admits hp hadmits]
        exact hrun behind
      · rw [List.flatMap_append, List.flatMap_singleton, List.length_append]
        omega
      · rw [List.flatMap_append, List.flatMap_singleton, List.length_append]
        omega
      · have hwhole : (a.texts p.reporter.format).take n = a.texts p.reporter.format :=
          List.take_of_length_le (by omega)
        rw [hwrites, List.flatMap_cons, List.take_append, hwhole]
        simp
      · rw [hlog, List.filterMap_append]
        simp

end Command

end ScriptAudit
