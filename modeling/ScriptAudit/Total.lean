/-!
# Sums of numbers

The sum of a list of natural numbers, for the measures of trees and texts.
-/

set_option autoImplicit false

namespace ScriptAudit

universe u v

/-- The sum of a list of numbers. -/
def total : List Nat → Nat
  | [] => 0
  | n :: rest => n + total rest

/-- Nothing sums to zero. -/
@[simp] theorem total_nil : total [] = 0 := rfl

/-- The first number is added to the sum of the rest. -/
@[simp] theorem total_cons (n : Nat) (rest : List Nat) : total (n :: rest) = n + total rest := rfl

/-- The sum of two lists is the sum of their sums. -/
@[simp] theorem total_append (as bs : List Nat) : total (as ++ bs) = total as + total bs := by
  induction as with
  | nil => simp
  | cons a as ih => simp [ih, Nat.add_assoc]

/-- Zeros sum to zero. -/
theorem total_of_forall_eq_zero {ns : List Nat} (h : ∀ n ∈ ns, n = 0) : total ns = 0 := by
  induction ns with
  | nil => rfl
  | cons n ns ih =>
    obtain ⟨hn, hns⟩ := List.forall_mem_cons.mp h
    rw [total_cons, hn, ih hns]

/-- Lists that are put together have the length of all of them. -/
theorem length_flatMap_eq_total {α : Type u} {β : Type v} (f : α → List β) (as : List α) :
    (as.flatMap f).length = total (as.map fun a => (f a).length) := by
  induction as with
  | nil => rfl
  | cons a as ih => simp [ih]

end ScriptAudit
