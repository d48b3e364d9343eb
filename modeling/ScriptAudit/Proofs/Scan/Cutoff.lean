import ScriptAudit.Proofs.Report.Room
import ScriptAudit.Proofs.Scan.Isolation

/-!
# A sink that stops taking writes

A sink with room for some writes takes as many diagnostics, and the reporter fails at the next one.
So the diagnostics that were taken are a prefix of those that a sink without a limit would have
taken, and it is exactly as long as there is room.

A scan hands its findings over and does nothing else to its reporter. It is therefore cut off in the
same place, wherever in the loops over nodes, rules and diagnostics that place may be.
-/

set_option autoImplicit false

namespace ScriptAudit

namespace Report.Reporter

/-! ## Room for some writes -/

/-- The reporter with a sink that takes so many more writes. -/
def withRoom (r : Reporter) (n : Nat) : Reporter :=
  { r with sink := { r.sink with room := some n } }

/-- A reporter that works, and that writes a text for each of some diagnostics. -/
structure Writes (r : Reporter) (ds : List Diagnostic) : Prop where
  working : r.failed = false
  legible : ∀ d ∈ ds, ∃ text, r.rendered d = .ok (some text)

variable {r : Reporter} {d : Diagnostic} {ds : List Diagnostic}

/-- One write is used up by one diagnostic. -/
theorem emit_withRoom_succ (hr : r.Writes (d :: ds)) (n : Nat) :
    (r.withRoom (n + 1)).emit d = ((r.after [d]).withRoom n, [], none) := by
  obtain ⟨text, htext⟩ := hr.legible d List.mem_cons_self
  have hkeeps : ¬ r.format = .collecting := fun h => nomatch (eq_none_iff_of_rendered htext).mpr h
  have hwritten : r.written? d = some text := by
    rw [written?, htext]
    rfl
  have hworking : (r.withRoom (n + 1)).failed = false := hr.working
  have hroom : (r.withRoom (n + 1)).sink.Admits 1 := (Sink.admits_of_room rfl).mono (by omega)
  rw [emit_of_admits hworking htext hroom, add_eq_countP]
  simp [withRoom, Sink.wrote, Reporter.after, hkeeps, hwritten]

/-- Without room the reporter fails, and nothing is written. -/
theorem emit_withRoom_zero (hr : r.Writes (d :: ds)) :
    (r.withRoom 0).emit d =
      ({ r.withRoom 0 with failed := true }, [failureEntry (.sink r.sink.fault)],
        some (.failedNow (.sink r.sink.fault))) := by
  obtain ⟨text, htext⟩ := hr.legible d List.mem_cons_self
  exact emit_of_full hr.working htext rfl

/-- A reporter that can write some diagnostics can write the others when it has written the
first. -/
theorem Writes.after (hr : r.Writes (d :: ds)) : (r.after [d]).Writes ds :=
  ⟨hr.working, fun e he => hr.legible e (List.mem_cons_of_mem d he)⟩

/-- As many diagnostics as there is room for are all taken. -/
theorem emitAll_withRoom {n : Nat} (hr : r.Writes ds) (hroom : ds.length ≤ n) (k : Nat) :
    emitAll (r.withRoom n, k) ds =
      (((r.after ds).withRoom (n - ds.length), k + ds.length), none) := by
  unfold emitAll
  induction ds generalizing r n k with
  | nil => rw [after_nil]; rfl
  | cons d ds ih =>
    rw [List.length_cons] at hroom
    obtain ⟨m, rfl⟩ : ∃ m, n = m + 1 := ⟨n - 1, by omega⟩
    have hstep : deliver (r.withRoom (m + 1), k) d = (((r.after [d]).withRoom m, k + 1), none) := by
      unfold deliver
      rw [emit_withRoom_succ hr]
    have hleft : m + 1 - (d :: ds).length = m - ds.length := by
      rw [List.length_cons]
      omega
    have hlength : k + (d :: ds).length = k + 1 + ds.length := by
      rw [List.length_cons]
      omega
    rw [untilFault, hstep]
    show untilFault deliver ((r.after [d]).withRoom m, k + 1) ds = _
    rw [ih hr.after (by omega), after_append, List.singleton_append, hleft, hlength]

/-- Of more diagnostics than there is room for, the first ones are taken, and the reporter fails. -/
theorem emitAll_withRoom_of_lt {n : Nat} (hr : r.Writes ds) (hroom : n < ds.length) (k : Nat) :
    emitAll (r.withRoom n, k) ds =
      (({ (r.after (ds.take n)).withRoom 0 with failed := true }, k + n),
        some (.failedNow (.sink r.sink.fault))) := by
  obtain ⟨d, rest, hdrop⟩ : ∃ d rest, ds.drop n = d :: rest :=
    List.exists_cons_of_ne_nil (by simpa using hroom)
  have hlength : (ds.take n).length = n := by
    rw [List.length_take]
    omega
  have htake : r.Writes (ds.take n) :=
    ⟨hr.working, fun e he => hr.legible e (List.mem_of_mem_take he)⟩
  have hnext : (r.after (ds.take n)).Writes (d :: rest) := by
    refine ⟨hr.working, fun e he => hr.legible e ?_⟩
    rw [← hdrop] at he
    exact List.mem_of_mem_drop he
  have htaken := emitAll_withRoom htake (Nat.le_of_eq hlength) k
  rw [emitAll, hlength, Nat.sub_self] at htaken
  have hstop : deliver ((r.after (ds.take n)).withRoom 0, k + n) d =
      (({ (r.after (ds.take n)).withRoom 0 with failed := true }, k + n),
        some (.failedNow (.sink r.sink.fault))) := by
    unfold deliver
    rw [emit_withRoom_zero hnext]
    rfl
  -- the first part fills the room, and the diagnostic behind it finds none
  calc
    emitAll (r.withRoom n, k) ds
      = untilFault deliver (r.withRoom n, k) (ds.take n ++ d :: rest) := by
        rw [← hdrop, List.take_append_drop, emitAll]
    _ = untilFault deliver ((r.after (ds.take n)).withRoom 0, k + n) (d :: rest) := by
        rw [untilFault_append, htaken]
    _ = _ := by rw [untilFault, hstop]

/-- JSON lines and a console with the default templates have a text for every diagnostic. -/
theorem exists_text_of_format {format : Format}
    (h : format = .jsonLines ∨
      ∃ console, format = .console console ∧ console.templates = {}) :
    ∃ text : Diagnostic → String,
      ∀ d, ({ format } : Reporter).rendered d = .ok (some (text d)) := by
  rcases h with rfl | ⟨console, rfl, hdefault⟩
  · exact ⟨_, fun _ => rfl⟩
  · exact ⟨_, rendered_default rfl hdefault⟩

/-- A fresh reporter has written the texts of its diagnostics and counted them. -/
theorem after_fresh {format : Format} {text : Diagnostic → String}
    (htext : ∀ d, ({ format } : Reporter).rendered d = .ok (some (text d))) (sink : Sink)
    (ds : List Diagnostic) :
    (({ format, sink } : Reporter).after ds).sink.writes = sink.writes ++ ds.map text ∧
      ∀ s, (({ format, sink } : Reporter).after ds).counts.of s = ds.countP (·.severity = s) := by
  have hwritten : ({ format, sink } : Reporter).written? = fun d => some (text d) := by
    funext d
    have hrendered : ({ format, sink } : Reporter).rendered d = .ok (some (text d)) := htext d
    rw [written?, hrendered]
    rfl
  refine ⟨?_, fun s => ?_⟩
  · simp [Reporter.after, hwritten]
  · cases s <;> simp [Reporter.after, Counts.of]

end Report.Reporter

namespace Scan

open ScriptAudit.Report

/-- A scan that hands over its findings leaves the reporter and the number of diagnostics as they
are then, and stops with the fault of the reporter. -/
theorem run_of_emitAll {root : Node} (hroot : root.AllPlaced) (rules : List Rule)
    (path : Option Path) {r r' : Reporter} {k : Nat} {fault : Option EmitFault}
    (h : Reporter.emitAll (r, 0) (findings rules root path) = ((r', k), fault)) :
    (run (Registry.ofRules rules) root path r).1.reporter = r' ∧
      (run (Registry.ofRules rules) root path r).1.emitted = k ∧
      (run (Registry.ofRules rules) root path r).2 = fault.map .emission := by
  have hdelivery := delivery_run hroot rules path r
  rw [h] at hdelivery
  have hstate : (run (Registry.ofRules rules) root path r).1.delivery = (r', k) :=
    congrArg Prod.fst hdelivery
  exact ⟨congrArg Prod.fst hstate, congrArg Prod.snd hstate, congrArg Prod.snd hdelivery⟩

/-- **A failing sink cuts the output to a prefix.** Let a scan be given a fresh reporter of JSON
lines, or one for a console with the default templates, and let `ds` be all it has to report, as a
reporter that keeps diagnostics is given it. If the sink has room for all of them, the scan returns
and writes the same as with a sink without a limit. If not, it stops with the fault of the sink, and
it has written and counted exactly as many of them, from the first one on, as there was room for. -/
theorem run_cut_off (rules : List Rule) (root : Node) (path : Option Path) (format : Format)
    (n : Nat) (fault : SinkFault) (hroot : root.AllPlaced)
    (hformat : format = .jsonLines ∨
      ∃ console, format = .console console ∧ console.templates = {}) :
    let free := run (Registry.ofRules rules) root path { format }
    let limited := run (Registry.ofRules rules) root path
      { format, sink := { room := some n, fault } }
    let ds := findings rules root path
    (run (Registry.ofRules rules) root path { format := .collecting }).1.reporter.held = ds ∧
    ∃ text : Diagnostic → String,
      (∀ d, ({ format } : Reporter).rendered d = .ok (some (text d))) ∧
      (free.2 = none ∧ free.1.emitted = ds.length ∧ free.1.reporter.sink.writes = ds.map text) ∧
      (ds.length ≤ n →
        limited.2 = none ∧ limited.1.visited = free.1.visited ∧
          limited.1.emitted = free.1.emitted ∧
          limited.1.reporter.sink.writes = free.1.reporter.sink.writes ∧
          limited.1.reporter.counts = free.1.reporter.counts ∧
          limited.1.reporter.failed = free.1.reporter.failed) ∧
      (n < ds.length →
        limited.2 = some (.emission (.failedNow (.sink fault))) ∧
          limited.1.reporter.sink.writes = (ds.take n).map text ∧
          limited.1.reporter.failed = true ∧
          ∀ s, limited.1.reporter.counts.of s = (ds.take n).countP (·.severity = s)) := by
  intro free limited ds
  obtain ⟨text, htext⟩ := Reporter.exists_text_of_format hformat
  have hafter := Reporter.after_fresh htext
  let fresh : Reporter := { format, sink := { fault } }
  have hwrites : fresh.Writes ds := ⟨rfl, fun d _ => ⟨_, htext d⟩⟩
  have hreliable : ({ format } : Reporter).Reliable ds := ⟨rfl, rfl, fun d _ => ⟨_, htext d⟩⟩
  obtain ⟨hfree, hemitted, hnone⟩ : free.1.reporter = ({ format } : Reporter).after ds ∧
      free.1.emitted = 0 + ds.length ∧ free.2 = none :=
    run_of_emitAll hroot rules path (Reporter.emitAll_of_reliable hreliable 0)
  refine ⟨(held_run_collecting hroot rules path).2, text, htext,
    ⟨hnone, by rw [hemitted, Nat.zero_add], ?_⟩, fun hroom => ?_, fun hroom => ?_⟩
  · rw [hfree, (hafter {} ds).1]
    rfl
  · obtain ⟨hlimited, hsame, hquiet⟩ :
        limited.1.reporter = (fresh.after ds).withRoom (n - ds.length) ∧
          limited.1.emitted = 0 + ds.length ∧ limited.2 = none :=
      run_of_emitAll hroot rules path (Reporter.emitAll_withRoom hwrites hroom 0)
    refine ⟨hquiet, (visited_run hquiet).trans (visited_run hnone).symm, hsame.trans hemitted.symm,
      ?_⟩
    rw [hfree, hlimited]
    exact ⟨rfl, rfl, rfl⟩
  · obtain ⟨hlimited, -, hfault⟩ :
        limited.1.reporter = { (fresh.after (ds.take n)).withRoom 0 with failed := true } ∧
          limited.1.emitted = 0 + n ∧ limited.2 = some (.emission (.failedNow (.sink fault))) :=
      run_of_emitAll hroot rules path (Reporter.emitAll_withRoom_of_lt hwrites hroom 0)
    obtain ⟨hwritten, hcounts⟩ := hafter { fault } (ds.take n)
    refine ⟨hfault, ?_⟩
    rw [hlimited]
    exact ⟨hwritten, rfl, hcounts⟩

/-- Two calls of `eval`, one in each of two lines. -/
def evalTwice : Node :=
  .generic ⟨"Program", 0, 13, 1, 1⟩
    [.call ⟨"CallExpression", 0, 6, 1, 1⟩
        (some (.identifier ⟨"Identifier", 0, 4, 1, 1⟩ (some "eval"))) [],
      .call ⟨"CallExpression", 7, 13, 2, 1⟩
        (some (.identifier ⟨"Identifier", 7, 11, 2, 1⟩ (some "eval"))) []]

/-- With room for one write, a console shows the first of the two calls, and the scan stops at the
second. -/
theorem run_cut_off_evalTwice :
    evalTwice.AllPlaced ∧
    (let limited := run (Registry.ofRules [.evalCall]) evalTwice none
      { format := .console {}, sink := { room := some 1, fault := .closed } }
    limited.2 = some (.emission (.failedNow (.sink .closed))) ∧
      limited.1.reporter.sink.writes.length = 1 ∧
      limited.1.reporter.failed = true ∧
      limited.1.reporter.counts.of .warning = 1) := by
  have hpreorder : evalTwice.preorder =
      [evalTwice,
        .call ⟨"CallExpression", 0, 6, 1, 1⟩
          (some (.identifier ⟨"Identifier", 0, 4, 1, 1⟩ (some "eval"))) [],
        .identifier ⟨"Identifier", 0, 4, 1, 1⟩ (some "eval"),
        .call ⟨"CallExpression", 7, 13, 2, 1⟩
          (some (.identifier ⟨"Identifier", 7, 11, 2, 1⟩ (some "eval"))) [],
        .identifier ⟨"Identifier", 7, 11, 2, 1⟩ (some "eval")] := by
    simp [evalTwice, Node.preorder_eq, Node.children]
  have hroot : evalTwice.AllPlaced := by
    unfold Node.AllPlaced
    rw [hpreorder]
    simp [Node.IsPlaced, evalTwice, Node.head]
  have hlength : (findings [.evalCall] evalTwice none).length = 2 := by
    simp only [findings, hpreorder]
    rfl
  obtain ⟨-, text, -, -, -, hcut⟩ := run_cut_off [.evalCall] evalTwice none (.console {}) 1 .closed
    hroot (Or.inr ⟨{}, rfl, rfl⟩)
  obtain ⟨hfault, hwrites, hfailed, hcounts⟩ := hcut (by omega)
  refine ⟨hroot, hfault, ?_, hfailed, ?_⟩
  · rw [hwrites, List.length_map, List.length_take, hlength]
    rfl
  · rw [hcounts]
    simp only [findings, hpreorder]
    rfl

end Scan

end ScriptAudit
