import ScriptAudit.Text.Digit

/-!
# The digits of a number

A number is written with the digits of a base, most significant first, and the digits spell it when
they are read back. A number other than zero never starts with the digit zero.
-/

set_option autoImplicit false

namespace ScriptAudit.Text

/-- The character of a digit has the value of the digit. -/
theorem digitValue?_digitChar {d : Nat} (h : d < 16) : digitValue? d.digitChar = some d := by
  have hall : ∀ d < 16, digitValue? d.digitChar = some d := by decide
  exact hall d h

/-- The character of a digit below a base is a digit of the base. -/
theorem isDigitOf_digitChar {base d : Nat} (hbase : base ≤ 16) (h : d < base) :
    isDigitOf base d.digitChar = true := by
  rw [isDigitOf, digitValue?_digitChar (Nat.lt_of_lt_of_le h hbase)]
  exact decide_eq_true h

/-- A digit of a base up to ten is the character of its value. -/
theorem exists_digitChar_of_isDigitOf {base : Nat} {c : Char} (hbase : base ≤ 10)
    (h : isDigitOf base c = true) : ∃ d < base, c = d.digitChar := by
  unfold isDigitOf digitValue? at h
  have hdecimal : ∀ n < 10, Char.ofNat (48 + n) = n.digitChar := by decide
  by_cases hrange : '0' ≤ c ∧ c ≤ '9'
  · have hlow : 48 ≤ c.toNat := hrange.1
    have hhigh : c.toNat ≤ 57 := hrange.2
    have hvalue : c.toNat - 48 < base := by simpa [hrange] using h
    refine ⟨c.toNat - 48, hvalue, ?_⟩
    rw [← hdecimal _ (by omega), Nat.add_sub_cancel' hlow, Char.ofNat_toNat]
  · -- The letters have values from ten on.
    rw [if_neg hrange] at h
    by_cases hsmall : 'a' ≤ c ∧ c ≤ 'z'
    · simp only [hsmall, and_self, if_true, decide_eq_true_eq] at h
      omega
    · rw [if_neg hsmall] at h
      by_cases hcapital : 'A' ≤ c ∧ c ≤ 'Z'
      · simp only [hcapital, and_self, if_true, decide_eq_true_eq] at h
        omega
      · simp [hcapital] at h

/-- What holds of the ten decimal digits. -/
theorem of_isDigitOf_ten {p : Char → Prop} {c : Char} (hc : isDigitOf 10 c = true)
    (h : ∀ d < 10, p d.digitChar) : p c := by
  obtain ⟨d, hd, rfl⟩ := exists_digitChar_of_isDigitOf (Nat.le_refl 10) hc
  exact h d hd

/-- One more digit makes the number as many times as large as the base, and adds its value. -/
theorem ofDigits_append_singleton (base : Nat) (cs : List Char) (c : Char) :
    ofDigits base (cs ++ [c]) = ofDigits base cs * base + (digitValue? c).getD 0 := by
  simp [ofDigits]

/-- The digits of a number in a base spell the number. -/
theorem ofDigits_toDigits {base : Nat} (hone : 1 < base) (hbase : base ≤ 16) (n : Nat) :
    ofDigits base (Nat.toDigits base n) = n := by
  induction n using Nat.strongRecOn with
  | ind n ih =>
    by_cases hsmall : n < base
    · have hvalue := digitValue?_digitChar (Nat.lt_of_lt_of_le hsmall hbase)
      simp [Nat.toDigits_of_lt_base hsmall, ofDigits, hvalue]
    · have hle : base ≤ n := Nat.le_of_not_lt hsmall
      have hquotient : n / base < n := Nat.div_lt_self (by omega) hone
      have hvalue : digitValue? (n % base).digitChar = some (n % base) :=
        digitValue?_digitChar (Nat.lt_of_lt_of_le (Nat.mod_lt n (by omega)) hbase)
      rw [Nat.toDigits_of_base_le hone hle, ofDigits_append_singleton, ih _ hquotient, hvalue,
        Option.getD_some, Nat.mul_comm]
      exact Nat.div_add_mod n base

/-- A number in a base is written with digits of the base. -/
theorem isDigitOf_of_mem_toDigits {base n : Nat} {c : Char} (hone : 1 < base) (hbase : base ≤ 16)
    (h : c ∈ Nat.toDigits base n) : isDigitOf base c = true := by
  induction n using Nat.strongRecOn with
  | ind n ih =>
    by_cases hsmall : n < base
    · rw [Nat.toDigits_of_lt_base hsmall, List.mem_singleton] at h
      rw [h]
      exact isDigitOf_digitChar hbase hsmall
    · have hquotient : n / base < n := Nat.div_lt_self (by omega) hone
      rw [Nat.toDigits_of_base_le hone (Nat.le_of_not_lt hsmall), List.mem_append,
        List.mem_singleton] at h
      rcases h with h | h
      · exact ih _ hquotient h
      · rw [h]
        exact isDigitOf_digitChar hbase (Nat.mod_lt n (by omega))

/-- Only zero is written with a zero in front. -/
theorem eq_zero_of_head?_toDigits {base n : Nat} (hone : 1 < base) (hbase : base ≤ 16)
    (h : (Nat.toDigits base n).head? = some '0') : n = 0 := by
  induction n using Nat.strongRecOn with
  | ind n ih =>
    by_cases hsmall : n < base
    · have hzero : digitValue? '0' = some 0 := by decide
      rw [Nat.toDigits_of_lt_base hsmall, List.head?_singleton, Option.some.injEq] at h
      have hvalue := digitValue?_digitChar (Nat.lt_of_lt_of_le hsmall hbase)
      rw [h, hzero, Option.some.injEq] at hvalue
      exact hvalue.symm
    · have hle : base ≤ n := Nat.le_of_not_lt hsmall
      have hquotient : n / base < n := Nat.div_lt_self (by omega) hone
      have hpos : 0 < n / base := Nat.div_pos hle (by omega)
      have hnonempty : Nat.toDigits base (n / base) ≠ [] := Nat.toDigits_ne_nil
      obtain ⟨c, cs, hcs⟩ := List.exists_cons_of_ne_nil hnonempty
      rw [Nat.toDigits_of_base_le hone hle, hcs, List.cons_append, List.head?_cons] at h
      have hzero := ih _ hquotient (by rw [hcs, List.head?_cons, h])
      omega

/-- The text of a number is its decimal digits. -/
theorem toList_toString (n : Nat) : (toString n).toList = Nat.toDigits 10 n := Nat.toList_repr

/-- The text of an integer is its decimal digits behind a minus if it is negative. -/
theorem toList_toString_int (i : Int) :
    (toString i).toList = (if i < 0 then ['-'] else []) ++ Nat.toDigits 10 i.natAbs := by
  cases i with
  | ofNat n =>
    have hpos : ¬ (Int.ofNat n < 0) := by simp
    rw [if_neg hpos]
    exact toList_toString n
  | negSucc n =>
    have hneg : Int.negSucc n < 0 := Int.negSucc_lt_zero n
    rw [if_pos hneg, Int.toString_eq_repr]
    show ("-" ++ toString (n + 1)).toList = _
    rw [String.toList_append, toList_toString]
    rfl

end ScriptAudit.Text
