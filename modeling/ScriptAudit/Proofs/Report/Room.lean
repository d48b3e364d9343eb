import ScriptAudit.Proofs.Report.Legibility
import ScriptAudit.Proofs.Report.Emission

/-!
# Room in a sink

A sink has room for some writes if it has no limit or its limit is not below their number. What it
is like after some writes does not depend on whether they were made one by one or for several
diagnostics and panels. So a reporter that has room for a text takes it, and one that has not writes
as much of it as there is room for and says why it stops.
-/

set_option autoImplicit false

namespace ScriptAudit.Report

namespace Sink

/-- A sink has room for so many writes. -/
def Admits (sink : Sink) (k : Nat) : Prop := ∀ n ∈ sink.room, k ≤ n

/-- The sink once it has taken some writes. -/
def wrote (sink : Sink) (texts : List String) : Sink :=
  { sink with
    writes := sink.writes ++ texts
    room := sink.room.map (· - texts.length) }

variable {sink : Sink} {texts : List String} {n : Nat}

/-- Writing no texts changes nothing. -/
theorem wrote_nil (sink : Sink) : sink.wrote [] = sink := by
  simp [wrote]

/-- Texts written in two turns are written one after the other. -/
theorem wrote_append (sink : Sink) (before behind : List String) :
    (sink.wrote before).wrote behind = sink.wrote (before ++ behind) := by
  have hroom (n : Nat) : n - before.length - behind.length = n - (before ++ behind).length := by
    rw [List.length_append]
    omega
  simp only [wrote, Option.map_map, List.append_assoc, Function.comp_def, hroom]

/-- A sink without a limit has room for every number of writes. -/
theorem admits_of_unlimited (h : sink.room = none) (k : Nat) : sink.Admits k := by
  intro n hn
  rw [h] at hn
  cases hn

/-- A sink has room for as many writes as it has left. -/
theorem admits_of_room (h : sink.room = some n) : sink.Admits n := by
  intro m hm
  rw [h] at hm
  exact Nat.le_of_eq (Option.some.inj hm)

/-- Where there is room for some writes there is room for fewer. -/
theorem Admits.mono {k m : Nat} (h : sink.Admits m) (hkm : k ≤ m) : sink.Admits k := by
  intro n hn
  exact Nat.le_trans hkm (h n hn)

/-- Room for two parts is room for the first, and then for the second. -/
theorem Admits.wrote {k : Nat} (h : sink.Admits (texts.length + k)) :
    (sink.wrote texts).Admits k := by
  intro n hn
  obtain ⟨m, hm, rfl⟩ := Option.map_eq_some_iff.mp hn
  have hle := h m hm
  omega

/-- A write that there is room for is taken. -/
theorem write_of_admits (h : sink.Admits 1) (text : String) :
    sink.write text = .ok (sink.wrote [text]) := by
  unfold write
  split
  · rename_i hroom
    simp [Sink.wrote, hroom]
  · rename_i hroom
    exact absurd (h 0 hroom) (by omega)
  · rename_i n hroom
    simp [Sink.wrote, hroom]

/-- A full sink takes no write. -/
theorem write_of_full (h : sink.room = some 0) (text : String) :
    sink.write text = .error sink.fault := by
  rw [write, h]

/-- Texts that there is room for are all written. -/
theorem writeAll_of_admits (h : sink.Admits texts.length) :
    sink.writeAll texts = (.ok (), sink.wrote texts) := by
  induction texts generalizing sink with
  | nil => rw [wrote_nil, writeAll]
  | cons text texts ih =>
    rw [List.length_cons, Nat.add_comm] at h
    have hfirst : sink.Admits 1 := h.mono (by omega)
    have hrest : (sink.wrote [text]).Admits texts.length := h.wrote
    rw [writeAll, write_of_admits hfirst]
    show (sink.wrote [text]).writeAll texts = _
    rw [ih hrest, wrote_append, List.singleton_append]

/-- Of texts that there is not enough room for, the first ones are written. -/
theorem writeAll_of_lt (hroom : sink.room = some n) (hlt : n < texts.length) :
    sink.writeAll texts = (.error sink.fault, sink.wrote (texts.take n)) := by
  induction texts generalizing sink n with
  | nil => exact absurd hlt (Nat.not_lt_zero n)
  | cons text texts ih =>
    cases n with
    | zero =>
      rw [writeAll, write_of_full hroom, List.take_zero, wrote_nil]
    | succ n =>
      rw [List.length_cons] at hlt
      have hfirst : sink.Admits 1 := (admits_of_room hroom).mono (by omega)
      have hleft : (sink.wrote [text]).room = some n := by
        simp [Sink.wrote, hroom]
      rw [writeAll, write_of_admits hfirst]
      show (sink.wrote [text]).writeAll texts = _
      rw [ih hleft (by omega), wrote_append, List.singleton_append, List.take_succ_cons]
      rfl

end Sink

namespace Reporter

variable {r : Reporter}

/-- A reporter that works and has a text for every diagnostic. -/
structure Speaks (r : Reporter) : Prop where
  working : r.failed = false
  format : r.format = .jsonLines ∨ ∃ console, r.format = .console console ∧ console.templates = {}

/-- Whatever the sink is like, the text of a diagnostic is that of its format. -/
theorem Speaks.exists_written (hr : r.Speaks) (d : Diagnostic) :
    ∃ text, r.rendered d = .ok (some text) ∧
      ({ format := r.format } : Reporter).written? d = some text := by
  have hrendered : ∃ text, r.rendered d = .ok (some text) := by
    rcases hr.format with hformat | ⟨console, hformat, htemplates⟩
    · exact ⟨d.toJson.render ++ "\n", by rw [rendered, hformat]⟩
    · exact ⟨_, rendered_default hformat htemplates d⟩
  obtain ⟨text, htext⟩ := hrendered
  have htext' : ({ format := r.format } : Reporter).rendered d = .ok (some text) := htext
  refine ⟨text, htext, ?_⟩
  rw [written?, htext']
  rfl

/-- A diagnostic that there is room for is written and counted. -/
theorem emit_of_admits {d : Diagnostic} {text : String} (hworking : r.failed = false)
    (htext : r.rendered d = .ok (some text)) (hroom : r.sink.Admits 1) :
    r.emit d =
      ({ r with sink := r.sink.wrote [text], counts := r.counts.add d.severity }, [], none) := by
  rw [emit, hworking, write, htext]
  simp [put, Sink.write_of_admits hroom, hworking]

/-- A diagnostic that there is no room for fails the reporter. -/
theorem emit_of_full {d : Diagnostic} {text : String} (hworking : r.failed = false)
    (htext : r.rendered d = .ok (some text)) (hroom : r.sink.room = some 0) :
    r.emit d =
      ({ r with failed := true }, [failureEntry (.sink r.sink.fault)],
        some (.failedNow (.sink r.sink.fault))) := by
  rw [emit, hworking, write, htext]
  simp [put, Sink.write_of_full hroom, fail]

/-- The texts of a panel: an empty line and the panel itself, on a console only. -/
def panelTexts (format : Format) (panel : Console → Panel) : List String :=
  match format with
  | .console console => ["\n", (panel console).shown console.width console.colour]
  | _ => []

/-- A panel is shown by its writes, and changes nothing but the sink. -/
theorem showPanel_eq (r : Reporter) (panel : Console → Panel) :
    r.showPanel panel =
      match r.sink.writeAll (panelTexts r.format panel) with
      | (.ok (), sink) => ({ r with sink }, none)
      | (.error fault, sink) => ({ r with sink }, some fault) := by
  obtain ⟨format, sink, held, counts, failed⟩ := r
  cases format <;> rfl

/-- A panel that there is room for is shown. -/
theorem showPanel_of_admits {panel : Console → Panel}
    (hroom : r.sink.Admits (panelTexts r.format panel).length) :
    r.showPanel panel = ({ r with sink := r.sink.wrote (panelTexts r.format panel) }, none) := by
  rw [showPanel_eq, Sink.writeAll_of_admits hroom]

/-- Of a panel that there is not enough room for the first texts are written. -/
theorem showPanel_of_lt {panel : Console → Panel} {n : Nat} (hroom : r.sink.room = some n)
    (hlt : n < (panelTexts r.format panel).length) :
    r.showPanel panel =
      ({ r with sink := r.sink.wrote ((panelTexts r.format panel).take n) },
        some r.sink.fault) := by
  rw [showPanel_eq, Sink.writeAll_of_lt hroom hlt]

end Reporter

end ScriptAudit.Report
