import Mathlib.Data.List.Lex
import ScriptAudit.Path

/-!
# Paths are ordered part by part

Texts and lists of texts are compared by a function that goes through both sides at once. What it
computes is the lexicographic order of lists, over the order of code points for texts and over the
order of texts for paths: one side comes first if the other one does not stand strictly before it.

So two paths can always be compared, the comparison is transitive, and two paths with one root that
stand behind each other are the same.
-/

set_option autoImplicit false

namespace ScriptAudit.Text

universe u

/-- The comparison of lists denies that the second list stands before the first. -/
theorem lexicographic_iff {α : Type u} {r : α → α → Prop} [Std.Trichotomous r] [Std.Asymm r]
    {less : α → α → Bool} (hless : ∀ a b, less a b = true ↔ r a b) (as bs : List α) :
    lexicographic less as bs = true ↔ ¬ List.Lex r bs as := by
  induction as generalizing bs with
  | nil =>
    rw [lexicographic]
    refine iff_of_true rfl ?_
    intro h
    cases h
  | cons a as ih =>
    cases bs with
    | nil =>
      rw [lexicographic]
      exact iff_of_false Bool.false_ne_true (not_not_intro List.Lex.nil)
    | cons b bs =>
      rw [lexicographic]
      by_cases hab : r a b
      · rw [if_pos ((hless a b).mpr hab)]
        refine iff_of_true rfl ?_
        intro h
        cases h with
        | rel hba => exact Std.Asymm.asymm a b hab hba
        | cons _ => exact Std.Asymm.asymm a a hab hab
      · rw [if_neg (mt (hless a b).mp hab)]
        by_cases hba : r b a
        · rw [if_pos ((hless b a).mpr hba)]
          exact iff_of_false Bool.false_ne_true (not_not_intro (List.Lex.rel hba))
        · rw [if_neg (mt (hless b a).mp hba), ih]
          obtain rfl : a = b := Std.Trichotomous.trichotomous a b hab hba
          rw [List.lex_cons_iff]

/-- One character has a smaller code point than another. -/
def CharBefore (c d : Char) : Prop := c.toNat < d.toNat

instance : Std.Trichotomous CharBefore where
  trichotomous c d hcd hdc := by
    unfold CharBefore at hcd hdc
    exact Char.toNat_inj.mp (by omega)

instance : Std.Asymm CharBefore where
  asymm c d hcd hdc := by
    unfold CharBefore at hcd hdc
    omega

instance : IsOrderConnected Char CharBefore where
  conn c d e hce := by
    unfold CharBefore at hce ⊢
    omega

/-- One text stands strictly before another in the order of code points. -/
def Before (s t : String) : Prop := List.Lex CharBefore s.toList t.toList

instance : Std.Trichotomous Before where
  trichotomous s t hst hts := by
    have hlists : s.toList = t.toList :=
      @Std.Trichotomous.trichotomous _ (List.Lex CharBefore) _ s.toList t.toList hst hts
    exact String.toList_inj.mp hlists

instance : Std.Asymm Before where
  asymm s t hst hts := @Std.Asymm.asymm _ (List.Lex CharBefore) _ s.toList t.toList hst hts

instance : IsOrderConnected String Before where
  conn s t u hsu :=
    @IsOrderConnected.conn _ (List.Lex CharBefore) _ s.toList t.toList u.toList hsu

/-- The comparison of texts decides which comes before the other. -/
theorem textLess_iff (s t : String) : textLess s t = true ↔ Before s t := by
  have hchar (c d : Char) : charLess c d = true ↔ CharBefore c d := by
    simp [charLess, CharBefore, Nat.blt_eq]
  have hle := lexicographic_iff hchar t.toList s.toList
  rw [textLess, Before, Bool.not_eq_true', ← Bool.not_eq_true, textLe, hle, not_not]

end ScriptAudit.Text

namespace ScriptAudit.Path

/-- A path is at most another one unless that comes before it. -/
theorem le_iff (p q : Path) : p.le q = true ↔ ¬ List.Lex Text.Before q.parts p.parts :=
  Text.lexicographic_iff Text.textLess_iff p.parts q.parts

/-- Any two paths can be compared. -/
theorem le_total (p q : Path) : (p.le q || q.le p) = true := by
  rw [Bool.or_eq_true, le_iff, le_iff]
  by_cases h : List.Lex Text.Before q.parts p.parts
  · exact Or.inr (Std.Asymm.asymm _ _ h)
  · exact Or.inl h

/-- The order of paths is transitive. -/
theorem le_trans {p q r : Path} (hpq : p.le q = true) (hqr : q.le r = true) : p.le r = true := by
  rw [le_iff] at *
  intro hrp
  rcases IsOrderConnected.conn _ q.parts _ hrp with hrq | hqp
  · exact hqr hrq
  · exact hpq hqp

/-- Absolute paths that stand behind each other, or in order, are so by their segments. -/
theorem eq_or_lex_of_le {p q : Path} (hp : p.root = .slash) (hq : q.root = .slash)
    (h : p.le q = true) : p = q ∨ List.Lex Text.Before p.segments q.segments := by
  have hparts {r : Path} (hr : r.root = .slash) : r.parts = "/" :: r.segments := by
    simp [parts, isAbsolute, hr, Root.text]
  rw [le_iff, hparts hp, hparts hq, List.lex_cons_iff] at h
  by_cases hlex : List.Lex Text.Before p.segments q.segments
  · exact Or.inr hlex
  · left
    have hsegments : p.segments = q.segments := Std.Trichotomous.trichotomous _ _ hlex h
    obtain ⟨root, segments⟩ := p
    obtain ⟨root', segments'⟩ := q
    simp_all

end ScriptAudit.Path
