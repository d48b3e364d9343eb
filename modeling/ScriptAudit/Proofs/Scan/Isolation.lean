import Mathlib.Data.List.Basic
import ScriptAudit.Proofs.Scan.Dispatch

/-!
# One rule among many

A scan with several rules mixes their findings node by node. Every finding carries the identifier of
its rule, and no two rules share one, so the findings of a single rule can be picked out again: they
are what a scan with that rule alone finds, in the same order.

A reporter that collects its diagnostics then holds the findings as a plain list.
-/

set_option autoImplicit false

namespace ScriptAudit

/-- Where all went well each result is that of the element at its place. -/
theorem forall₂_of_mapM_eq_ok {ε α β : Type} {f : α → Except ε β} {as : List α} {bs : List β}
    (h : as.mapM f = .ok bs) : List.Forall₂ (fun a b => f a = .ok b) as bs := by
  induction as generalizing bs with
  | nil =>
    obtain rfl : [] = bs := Except.ok.inj h
    exact .nil
  | cons a as ih =>
    rw [List.mapM_cons] at h
    cases ha : f a with
    | error e => simp [ha, bind, Except.bind] at h
    | ok b =>
      cases has : as.mapM f with
      | error e => simp [ha, has, bind, Except.bind] at h
      | ok rest =>
        obtain rfl : b :: rest = bs := by
          simpa [ha, has, bind, Except.bind, pure, Except.pure] using h
        exact .cons ha (ih has)

/-- What can be told of each result from its element can be told of all of them. -/
theorem map_eq_of_mapM_eq_ok {ε α β γ : Type} {f : α → Except ε β} {g : α → γ} {h : β → γ}
    (hf : ∀ a b, f a = .ok b → h b = g a) {as : List α} {bs : List β} (hbs : as.mapM f = .ok bs) :
    bs.map h = as.map g := by
  have hall := forall₂_of_mapM_eq_ok hbs
  clear hbs
  induction hall with
  | nil => rfl
  | cons hfirst _ ih => rw [List.map_cons, List.map_cons, hf _ _ hfirst, ih]

/-- Each result comes from an element. -/
theorem exists_of_mem_mapM_eq_ok {ε α β : Type} {f : α → Except ε β} {as : List α} {bs : List β}
    {b : β} (h : as.mapM f = .ok bs) (hb : b ∈ bs) : ∃ a ∈ as, f a = .ok b := by
  have hall := forall₂_of_mapM_eq_ok h
  clear h
  induction hall with
  | nil => cases hb
  | cons hfirst _ ih =>
    rcases List.mem_cons.mp hb with rfl | hb
    · exact ⟨_, List.mem_cons_self, hfirst⟩
    · obtain ⟨a, ha, hfa⟩ := ih hb
      exact ⟨a, List.mem_cons_of_mem _ ha, hfa⟩

/-- A diagnostic takes over what the remark says and where it says it. -/
theorem Remark.fields_of_diagnostic {remark : Remark} {rule : Rule} {d : Diagnostic}
    (h : remark.diagnostic rule = .ok d) :
    d.ruleId = rule.id ∧ d.severity = remark.severity ∧ d.message = remark.message ∧
      d.line = remark.place.line.toNat ∧ d.column = some remark.place.column.toNat ∧
      d.path = none := by
  unfold Remark.diagnostic Diagnostic.at? Diagnostic.position at h
  split at h
  · rename_i l hl c hc hline hcolumn
    split at hline
    · split at hcolumn
      · cases hline
        cases hcolumn
        obtain rfl := Except.ok.inj h
        exact ⟨rfl, rfl, rfl, rfl, rfl, rfl⟩
      · cases hcolumn
    · cases hline
  all_goals cases h

namespace Rule

/-- A rule is found under its name. -/
theorem ofId?_id (rule : Rule) : ofId? rule.id = some rule := by
  cases rule <;> decide

/-- Different rules have different names. -/
theorem id_injective : Function.Injective Rule.id := by
  intro r s h
  have hsome : some r = some s := by rw [← ofId?_id r, h, ofId?_id s]
  exact Option.some.inj hsome

/-- What a rule finds goes back to one of its remarks. -/
theorem exists_remark_of_mem_found {rule : Rule} {root n : Node} {d : Diagnostic}
    (h : d ∈ rule.found root n) :
    ∃ remark ∈ rule.remarks (some root) n, remark.diagnostic rule = .ok d := by
  unfold found at h
  cases hcheck : rule.check (some root) n with
  | error faults => simp [hcheck, Except.toOption] at h
  | ok ds =>
    rw [hcheck] at h
    exact exists_of_mem_mapM_eq_ok hcheck h

/-- What a rule finds carries its name. -/
theorem ruleId_of_mem_found {rule : Rule} {root n : Node} {d : Diagnostic}
    (h : d ∈ rule.found root n) : d.ruleId = rule.id := by
  obtain ⟨remark, -, hremark⟩ := exists_remark_of_mem_found h
  exact (Remark.fields_of_diagnostic hremark).1

/-- What carries the name of a rule is found by that rule alone. -/
theorem filter_ruleId_found (rule other : Rule) (root n : Node) :
    (other.found root n).filter (·.ruleId = rule.id) =
      if other = rule then other.found root n else [] := by
  split
  · rename_i h
    subst h
    apply List.filter_eq_self.mpr
    intro d hd
    simpa using ruleId_of_mem_found hd
  · rename_i h
    apply List.filter_eq_nil_iff.mpr
    intro d hd hid
    rw [decide_eq_true_eq, ruleId_of_mem_found hd] at hid
    exact h (id_injective hid)

end Rule

namespace Scan

open ScriptAudit.Report

/-- Of a list without duplicates an element is picked out once. -/
theorem flatMap_ite_eq {α β : Type} [DecidableEq α] {as : List α} (hnodup : as.Nodup) (a : α)
    (f : α → List β) :
    (as.flatMap fun b => if b = a then f b else []) = if a ∈ as then f a else [] := by
  induction as with
  | nil => rfl
  | cons b as ih =>
    obtain ⟨hb, hrest⟩ := List.nodup_cons.mp hnodup
    rw [List.flatMap_cons, ih hrest]
    by_cases h : b = a
    · subst h
      simp [hb]
    · simp [h, Ne.symm h]

/-- At every node the findings of one rule are what the rule finds alone. -/
theorem filter_ruleId_findingsAt {rules : List Rule} {rule : Rule} (hnodup : rules.Nodup)
    (hrule : rule ∈ rules) (root n : Node) :
    (findingsAt rules root n).filter (·.ruleId = rule.id) = findingsAt [rule] root n := by
  unfold findingsAt
  rw [List.filter_flatMap]
  simp only [Rule.filter_ruleId_found]
  rw [flatMap_ite_eq (hnodup.filter _)]
  by_cases hkind : rule.kinds.contains n.kind = true
  · simp_all
  · simp_all

/-- The findings of one rule are what a scan with that rule alone finds. -/
theorem filter_ruleId_findings {rules : List Rule} {rule : Rule} (hnodup : rules.Nodup)
    (hrule : rule ∈ rules) (root : Node) (path : Option Path) :
    (findings rules root path).filter (·.ruleId = rule.id) = findings [rule] root path := by
  unfold findings
  rw [List.filter_map, List.filter_flatMap]
  congr 1
  apply List.flatMap_congr
  intro n _
  exact filter_ruleId_findingsAt hnodup hrule root n

/-- A collecting reporter takes all findings of a scan of a well-placed tree and holds them. -/
theorem held_run_collecting {root : Node} (hroot : root.AllPlaced) (rules : List Rule)
    (path : Option Path) :
    (run (Registry.ofRules rules) root path { format := .collecting }).2 = none ∧
      (run (Registry.ofRules rules) root path { format := .collecting }).1.reporter.held =
        findings rules root path := by
  have hreliable : ({ format := .collecting } : Reporter).Reliable (findings rules root path) := by
    apply Reporter.reliable_of_unlimited _ rfl rfl
    intro console h
    cases h
  have hdelivery := delivery_run hroot rules path { format := .collecting }
  rw [Reporter.emitAll_of_reliable hreliable] at hdelivery
  have hstate := congrArg (fun p => p.1.1.held) hdelivery
  refine ⟨congrArg Prod.snd hdelivery, ?_⟩
  calc
    (run (Registry.ofRules rules) root path { format := .collecting }).1.reporter.held
      = (({ format := .collecting } : Reporter).after (findings rules root path)).held := hstate
    _ = findings rules root path := by simp [Reporter.after]

end Scan

end ScriptAudit
