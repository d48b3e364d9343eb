import ScriptAudit.Text.Utf16

/-!
# Reading code units back as text

`Utf16.Reads` says what text a list of code units stands for, one rule for each way to begin: a unit
that is no half, a high half with a low half right behind it, a high half without one, and a low
half with no high half before it. A list has exactly one reading, and `decode` finds it.

The units of a text read back as that text.
-/

set_option autoImplicit false

namespace ScriptAudit.Text.Utf16

/-- The text that a list of code units stands for. A half that has no partner counts as one
replacement character. -/
inductive Reads : List CodeUnit → List Char → Prop
  | nil : Reads [] []
  | scalar {u : CodeUnit} {us : List CodeUnit} {cs : List Char}
      (hu : u.toNat < 0xD800 ∨ 0xDFFF < u.toNat) (h : Reads us cs) :
      Reads (u :: us) (Char.ofNat u.toNat :: cs)
  | pair {high low : CodeUnit} {us : List CodeUnit} {cs : List Char} {a b : Nat}
      (ha : a < 0x400) (hb : b < 0x400) (hhigh : high.toNat = 0xD800 + a)
      (hlow : low.toNat = 0xDC00 + b) (h : Reads us cs) :
      Reads (high :: low :: us) (Char.ofNat (0x10000 + a * 0x400 + b) :: cs)
  | loneHigh {u : CodeUnit} {us : List CodeUnit} {cs : List Char}
      (hu : 0xD800 ≤ u.toNat ∧ u.toNat < 0xDC00)
      (hnext : ∀ v ∈ us.head?, v.toNat < 0xDC00 ∨ 0xDFFF < v.toNat) (h : Reads us cs) :
      Reads (u :: us) ('\uFFFD' :: cs)
  | loneLow {u : CodeUnit} {us : List CodeUnit} {cs : List Char}
      (hu : 0xDC00 ≤ u.toNat ∧ u.toNat ≤ 0xDFFF) (h : Reads us cs) :
      Reads (u :: us) ('\uFFFD' :: cs)

/-! ## `decode` finds the reading -/

/-- The high halves are a range of units. -/
theorem isHigh_iff (u : CodeUnit) : isHigh u = true ↔ 0xD800 ≤ u.toNat ∧ u.toNat < 0xDC00 := by
  simp only [isHigh, Bool.and_eq_true, decide_eq_true_eq]
  omega

/-- The low halves are a range of units. -/
theorem isLow_iff (u : CodeUnit) : isLow u = true ↔ 0xDC00 ≤ u.toNat ∧ u.toNat ≤ 0xDFFF := by
  simp only [isLow, Bool.and_eq_true, decide_eq_true_eq]

/-- A unit outside of their range is no high half. -/
theorem isHigh_eq_false {u : CodeUnit} (h : u.toNat < 0xD800 ∨ 0xDC00 ≤ u.toNat) :
    isHigh u = false := by
  rw [Bool.eq_false_iff, ne_eq, isHigh_iff]
  omega

/-- A unit outside of their range is no low half. -/
theorem isLow_eq_false {u : CodeUnit} (h : u.toNat < 0xDC00 ∨ 0xDFFF < u.toNat) :
    isLow u = false := by
  rw [Bool.eq_false_iff, ne_eq, isLow_iff]
  omega

/-- A unit that does not begin a pair is read alone. -/
theorem decode_cons {u : CodeUnit} {us : List CodeUnit}
    (h : ∀ v ∈ us.head?, (isHigh u && isLow v) = false) :
    decode (u :: us) = alone u :: decode us := by
  cases us with
  | nil => rfl
  | cons v us => rw [decode, h v rfl, if_neg Bool.false_ne_true]

/-- Whatever a list of units reads as is what `decode` gives. -/
theorem decode_eq_of_reads {us : List CodeUnit} {cs : List Char} (h : Reads us cs) :
    decode us = cs := by
  induction h with
  | nil => rfl
  | @scalar u us cs hu h ih =>
    have hhigh : isHigh u = false := isHigh_eq_false (by omega)
    have hlow : isLow u = false := isLow_eq_false (by omega)
    rw [decode_cons fun v _ => by rw [hhigh, Bool.false_and], ih, alone, hhigh, hlow]
    rfl
  | @pair high low us cs a b ha hb hhigh hlow h ih =>
    have h1 : isHigh high = true := by rw [isHigh_iff]; omega
    have h2 : isLow low = true := by rw [isLow_iff]; omega
    rw [decode, h1, h2, Bool.and_self, if_pos rfl, ih, joined, hhigh, hlow, Nat.add_sub_cancel_left,
      Nat.add_sub_cancel_left]
  | @loneHigh u us cs hu hnext h ih =>
    have hhigh : isHigh u = true := (isHigh_iff u).mpr hu
    have hapart : ∀ v ∈ us.head?, (isHigh u && isLow v) = false := by
      intro v hv
      rw [isLow_eq_false (hnext v hv), Bool.and_false]
    rw [decode_cons hapart, ih, alone, hhigh]
    rfl
  | @loneLow u us cs hu h ih =>
    have hlow : isLow u = true := (isLow_iff u).mpr hu
    have hhigh : isHigh u = false := isHigh_eq_false (Or.inr hu.1)
    rw [decode_cons fun v _ => by rw [hhigh, Bool.false_and], ih, alone, hlow, hhigh]
    rfl

/-- A unit that does not begin a pair reads as what it is alone. -/
theorem reads_alone {u : CodeUnit} {us : List CodeUnit} {cs : List Char}
    (hapart : ∀ v ∈ us.head?, (isHigh u && isLow v) = false) (h : Reads us cs) :
    Reads (u :: us) (alone u :: cs) := by
  unfold alone
  by_cases hhigh : isHigh u = true
  · rw [hhigh, Bool.true_or, if_pos rfl]
    refine .loneHigh ((isHigh_iff u).mp hhigh) ?_ h
    intro v hv
    have hlow := hapart v hv
    rw [hhigh, Bool.true_and, Bool.eq_false_iff, ne_eq, isLow_iff] at hlow
    omega
  · by_cases hlow : isLow u = true
    · rw [hlow, Bool.or_true, if_pos rfl]
      exact .loneLow ((isLow_iff u).mp hlow) h
    · rw [if_neg (by simp [hhigh, hlow])]
      rw [isHigh_iff] at hhigh
      rw [isLow_iff] at hlow
      exact .scalar (by omega) h

/-- Every list of units has a reading, and `decode` gives it. -/
theorem reads_decode (us : List CodeUnit) : Reads us (decode us) := by
  fun_induction decode us with
  | case1 => exact .nil
  | case2 u => exact reads_alone (fun v hv => nomatch hv) .nil
  | case3 u v rest hpair ih =>
    rw [Bool.and_eq_true, isHigh_iff, isLow_iff] at hpair
    exact .pair (a := u.toNat - 0xD800) (b := v.toNat - 0xDC00) (by omega) (by omega) (by omega)
      (by omega) ih
  | case4 u v rest hapart ih =>
    refine reads_alone ?_ ih
    intro w hw
    obtain rfl : v = w := Option.some.inj hw
    exact Bool.eq_false_iff.mpr hapart

/-- The reading of a list of units is what `decode` gives, and there is no other. -/
theorem reads_iff_decode {us : List CodeUnit} {cs : List Char} : Reads us cs ↔ decode us = cs :=
  ⟨decode_eq_of_reads, fun h => h ▸ reads_decode us⟩

/-! ## The units of a text read back as the text -/

/-- The units of a character, in front of others, read as that character. -/
theorem reads_unitsOf_append (c : Char) {us : List CodeUnit} {cs : List Char} (h : Reads us cs) :
    Reads (unitsOf c.toNat ++ us) (c :: cs) := by
  have hvalid : c.toNat < 0xD800 ∨ 0xDFFF < c.toNat ∧ c.toNat < 0x110000 := c.valid
  unfold unitsOf
  split
  · rename_i hsmall
    have hunit : (UInt16.ofNat c.toNat).toNat = c.toNat := UInt16.toNat_ofNat_of_lt' hsmall
    have hread := Reads.scalar (u := UInt16.ofNat c.toNat) (by omega) h
    rwa [hunit, Char.ofNat_toNat] at hread
  · have hhigh : (UInt16.ofNat (0xD800 + (c.toNat - 0x10000) / 0x400)).toNat =
        0xD800 + (c.toNat - 0x10000) / 0x400 :=
      UInt16.toNat_ofNat_of_lt' (show _ < 0x10000 by omega)
    have hlow : (UInt16.ofNat (0xDC00 + (c.toNat - 0x10000) % 0x400)).toNat =
        0xDC00 + (c.toNat - 0x10000) % 0x400 :=
      UInt16.toNat_ofNat_of_lt' (show _ < 0x10000 by omega)
    have hread := Reads.pair (by omega) (by omega) hhigh hlow h
    have hpoint : 0x10000 + (c.toNat - 0x10000) / 0x400 * 0x400 + (c.toNat - 0x10000) % 0x400 =
        c.toNat := by omega
    rwa [hpoint, Char.ofNat_toNat] at hread

/-- The units of a text read back as the text. -/
theorem reads_encode (cs : List Char) : Reads (encode cs) cs := by
  induction cs with
  | nil => exact .nil
  | cons c cs ih => exact reads_unitsOf_append c ih

end ScriptAudit.Text.Utf16
