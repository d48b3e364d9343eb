/-!
# Steps until a fault

A loop over a list that carries a state and stops at the first fault. The state at the fault is
kept, so what was done before stays done.
-/

set_option autoImplicit false

namespace ScriptAudit

universe u v w

variable {σ : Type u} {ε : Type v} {α : Type w}

/-- Takes the elements of a list one by one and stops after the first step that has a fault. -/
def untilFault (step : σ → α → σ × Option ε) (state : σ) : List α → σ × Option ε
  | [] => (state, none)
  | a :: rest =>
    match step state a with
    | (state, some fault) => (state, some fault)
    | (state, none) => untilFault step state rest

/-- No element, no step. -/
@[simp] theorem untilFault_nil (step : σ → α → σ × Option ε) (state : σ) :
    untilFault step state [] = (state, none) := rfl

/-- A list in two parts is taken part by part, and the second only if the first had no fault. -/
theorem untilFault_append (step : σ → α → σ × Option ε) (state : σ) (as bs : List α) :
    untilFault step state (as ++ bs) =
      match untilFault step state as with
      | (state, some fault) => (state, some fault)
      | (state, none) => untilFault step state bs := by
  induction as generalizing state with
  | nil => rfl
  | cons a as ih =>
    rw [List.cons_append, untilFault, untilFault]
    rcases step state a with ⟨next, _ | fault⟩
    · exact ih next
    · rfl

/-- A single step is a step. -/
theorem untilFault_singleton (step : σ → α → σ × Option ε) (state : σ) (a : α) :
    untilFault step state [a] = step state a := by
  rw [untilFault]
  rcases step state a with ⟨next, _ | fault⟩ <;> rfl

/-- A loop that can be seen as a finer loop. Each step, looked at through a view of the state and
with its fault renamed, takes the finer steps of one element; then the whole loop takes the finer
steps of all elements in order, and stops at the same fault. -/
theorem untilFault_simulate {τ : Type u} {β : Type w} {δ : Type v} (view : σ → τ) (rename : ε → δ)
    (step : σ → α → σ × Option ε) (fine : τ → β → τ × Option δ) (expand : α → List β)
    (as : List α)
    (h : ∀ s, ∀ a ∈ as,
      Prod.map view (Option.map rename) (step s a) = untilFault fine (view s) (expand a))
    (s : σ) :
    Prod.map view (Option.map rename) (untilFault step s as) =
      untilFault fine (view s) (as.flatMap expand) := by
  induction as generalizing s with
  | nil => rfl
  | cons a as ih =>
    have hhead := h s a List.mem_cons_self
    have htail := ih fun s a ha => h s a (List.mem_cons_of_mem _ ha)
    rw [List.flatMap_cons, untilFault_append, ← hhead, untilFault]
    rcases step s a with ⟨next, _ | fault⟩
    · exact htail next
    · rfl

/-- The same where faults keep their names. -/
theorem untilFault_refine {τ : Type u} {β : Type w} (view : σ → τ)
    (step : σ → α → σ × Option ε) (fine : τ → β → τ × Option ε) (expand : α → List β)
    (as : List α)
    (h : ∀ s, ∀ a ∈ as, Prod.map view id (step s a) = untilFault fine (view s) (expand a))
    (s : σ) :
    Prod.map view id (untilFault step s as) = untilFault fine (view s) (as.flatMap expand) := by
  have hsame := untilFault_simulate view id step fine expand as
  rw [Option.map_id] at hsame
  exact hsame h s

/-- Faults can be renamed step by step or at the end. -/
theorem untilFault_mapFault {δ : Type v} (rename : ε → δ) (step : σ → α → σ × Option ε)
    (s : σ) (as : List α) :
    untilFault (fun s a => Prod.map id (Option.map rename) (step s a)) s as =
      Prod.map id (Option.map rename) (untilFault step s as) := by
  let renamed (s : σ) (a : α) : σ × Option δ := Prod.map id (Option.map rename) (step s a)
  have hrenamed := untilFault_simulate id rename step renamed (fun a => [a]) as
    fun s a _ => (untilFault_singleton renamed s a).symm
  rw [List.flatMap_singleton'] at hrenamed
  exact (hrenamed s).symm

/-- A loop without a fault gains in every step what one step without a fault gains. -/
theorem untilFault_gain (measure : σ → Nat) (gain : Nat) (step : σ → α → σ × Option ε)
    (h : ∀ s a, (step s a).2 = none → measure (step s a).1 = measure s + gain)
    (s : σ) (as : List α) (hnone : (untilFault step s as).2 = none) :
    measure (untilFault step s as).1 = measure s + gain * as.length := by
  induction as generalizing s with
  | nil => rfl
  | cons a as ih =>
    have hstep := h s a
    rw [untilFault] at hnone ⊢
    rcases hs : step s a with ⟨next, _ | fault⟩
    · rw [hs] at hnone hstep
      have hfirst : measure next = measure s + gain := hstep rfl
      have hrest := ih next hnone
      show measure (untilFault step next as).1 = measure s + gain * (as.length + 1)
      rw [hrest, hfirst, Nat.mul_succ]
      omega
    · rw [hs] at hnone
      cases hnone

end ScriptAudit
