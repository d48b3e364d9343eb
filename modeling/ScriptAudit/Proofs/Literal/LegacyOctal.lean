import Mathlib.Data.List.TakeWhile
import ScriptAudit.Proofs.Literal.Double
import ScriptAudit.Proofs.Literal.Numeral

/-!
# Legacy octal literals

A legacy octal literal is a zero with octal digits behind it. No base mark announces the base, so it
is not read as a whole number, unless all its digits are zeros and there are not too many of them.
What is read then is a decimal number, rounded to a double. Read in base ten the digits denote more
than in base eight, by two fifteenths of the latter at least, and rounding does not make up for
that. So the value is the one meant only where both bases agree, below eight.
-/

set_option autoImplicit false

namespace ScriptAudit.Literal

open ScriptAudit.Text

/-- The octal digits of a legacy octal literal, behind the zero it starts with. -/
structure LegacyOctal where
  first : OctalDigit
  rest : List OctalDigit

namespace LegacyOctal

/-- All digits behind the leading zero. -/
def digits (l : LegacyOctal) : List OctalDigit := l.first :: l.rest

/-- The characters of the literal. -/
def chars (l : LegacyOctal) : List Char := '0' :: l.digits.map OctalDigit.char

/-- The text of the literal. -/
def text (l : LegacyOctal) : String := String.ofList l.chars

/-- The number a literal denotes. -/
def number (l : LegacyOctal) : ℕ := OctalDigit.number l.digits

/-- The number that the digits spell in base ten. -/
def inTens (l : LegacyOctal) : ℕ := Nat.ofDigits 10 (l.digits.map Fin.val).reverse

end LegacyOctal

/-! ## The same digits in both bases -/

/-- Digits that spell zero in base eight do so in base ten. -/
theorem ofDigits_ten_eq_zero {vs : List ℕ} (h : Nat.ofDigits 8 vs = 0) :
    Nat.ofDigits 10 vs = 0 := by
  induction vs with
  | nil => rfl
  | cons v vs ih =>
    rw [Nat.ofDigits_cons] at h
    rw [Nat.ofDigits_cons, ih (by omega)]
    omega

/-- Numbers of one octal digit are the same in both bases, and no others nearly are. -/
theorem ofDigits_ten_gap {vs : List ℕ} (hvs : ∀ v ∈ vs, v < 8) :
    (Nat.ofDigits 8 vs < 8 → Nat.ofDigits 10 vs = Nat.ofDigits 8 vs) ∧
    (8 ≤ Nat.ofDigits 8 vs →
      2 * Nat.ofDigits 8 vs ≤ 15 * (Nat.ofDigits 10 vs - Nat.ofDigits 8 vs)) := by
  cases vs with
  | nil => exact ⟨fun _ => rfl, fun h => absurd h (by decide)⟩
  | cons v vs =>
    have hv : v < 8 := hvs v List.mem_cons_self
    have hmono : Nat.ofDigits 8 vs ≤ Nat.ofDigits 10 vs := Nat.ofDigits_monotone vs (by omega)
    rw [Nat.ofDigits_cons, Nat.ofDigits_cons]
    refine ⟨?_, by omega⟩
    intro h
    rw [ofDigits_ten_eq_zero (show Nat.ofDigits 8 vs = 0 by omega)]
    omega

namespace LegacyOctal

/-- From eight on the two numbers that the digits spell are far apart. -/
theorem inTens_gap (l : LegacyOctal) :
    (l.number < 8 → l.inTens = l.number) ∧
    (8 ≤ l.number → 2 * l.number ≤ 15 * (l.inTens - l.number)) := by
  apply ofDigits_ten_gap
  intro v hv
  obtain ⟨d, -, rfl⟩ := List.mem_map.mp (List.mem_reverse.mp hv)
  exact d.isLt

/-- The double that is nearest to the digits in base ten has the value meant only below eight. -/
theorem doubleWhole?_inTens (l : LegacyOctal) :
    doubleWhole? (Decimal.toFloat ⟨l.inTens, 0⟩) = some (l.number : ℤ) ↔ l.number < 8 := by
  obtain ⟨hsmall, hlarge⟩ := l.inTens_gap
  constructor
  · intro h
    have hnear := Decimal.natAbs_sub_le_of_toFloat h
    by_contra hge
    have hgap := hlarge (by omega)
    omega
  · intro h
    rw [hsmall h]
    exact Decimal.doubleWhole?_toFloat (by omega)

end LegacyOctal

/-! ## Reading -/

/-- Digits without a point and an exponent are a decimal number. -/
theorem decimal?_of_isDigitOf {cs : List Char} (hne : cs ≠ [])
    (h : ∀ c ∈ cs, isDigitOf 10 c = true) : decimal? cs = some ⟨ofDigits 10 cs, 0⟩ := by
  have htake : cs.takeWhile (isDigitOf 10) = cs := List.takeWhile_eq_self_iff.mpr h
  rw [decimal?]
  simp only [htake, List.drop_length, List.append_nil]
  rw [if_neg hne]
  rfl

namespace LegacyOctal

/-- A legacy octal literal is written with digits of base eight, which are digits of every larger
base. -/
theorem isDigitOf_of_mem_chars {l : LegacyOctal} {base : ℕ} (hbase : 8 ≤ base) {c : Char}
    (hc : c ∈ l.chars) : isDigitOf base c = true := by
  rcases List.mem_cons.mp hc with rfl | hc
  · exact decide_eq_true (Nat.lt_of_lt_of_le (Nat.succ_pos 7) hbase)
  · obtain ⟨d, -, rfl⟩ := List.mem_map.mp hc
    rw [d.isDigitOf_char]
    exact decide_eq_true (d.isLt.trans_le hbase)

/-- A legacy octal literal holds nothing that is removed before it is read. -/
theorem numberText?_text (l : LegacyOctal) : numberText? l.text = some l.chars := by
  have hkept : ∀ c ∈ l.chars, c ≠ '_' ∧ c ≠ 'n' := by
    intro c hc
    have hdigit := isDigitOf_of_mem_chars (Nat.le_refl 8) hc
    constructor
    · rintro rfl
      exact absurd hdigit (by decide)
    · rintro rfl
      exact absurd hdigit (by decide)
  have hmarks : withoutMarks l.text.toList = l.chars := by
    have hfilter : l.chars.filter (· ≠ '_') = l.chars :=
      List.filter_eq_self.mpr fun c hc => decide_eq_true (hkept c hc).1
    have hlast : l.chars.getLast? ≠ some 'n' :=
      fun h => (hkept 'n' (List.mem_of_getLast? h)).2 rfl
    unfold withoutMarks
    rw [text, String.toList_ofList]
    show (if (l.chars.filter (· ≠ '_')).getLast? = some 'n' then _
      else l.chars.filter (· ≠ '_')) = _
    rw [hfilter, if_neg hlast]
  exact numberText?_of_isDigitOf hmarks fun c hc => isDigitOf_of_mem_chars (by omega) hc

/-- A legacy octal literal has no sign. -/
theorem splitSign_chars (l : LegacyOctal) : splitSign l.chars = (false, l.chars) := by
  have hzero : isDigitOf 10 '0' = true := by decide
  exact splitSign_of_isDigitOf hzero _

/-- The characters spell in base ten what the digits do. -/
theorem ofDigits_chars (l : LegacyOctal) : ofDigits 10 l.chars = l.inTens :=
  ofDigits_map OctalDigit.char Fin.val OctalDigit.digitValue_char 10 l.digits

/-- A legacy octal literal is read as a double in base ten. -/
theorem fractional?_chars (l : LegacyOctal) :
    fractional? l.chars = some (Decimal.toFloat ⟨l.inTens, 0⟩) := by
  have hdecimal : decimal? l.chars = some ⟨l.inTens, 0⟩ := by
    rw [← l.ofDigits_chars]
    exact decimal?_of_isDigitOf (List.cons_ne_nil _ _) fun c hc =>
      isDigitOf_of_mem_chars (by omega) hc
  rw [fractional?, l.splitSign_chars]
  simp only [hdecimal]
  rfl

/-- All digits are zeros, and there are not too many. -/
def IsZero (l : LegacyOctal) : Prop :=
  (∀ d ∈ l.digits, d.val = 0) ∧ l.chars.length ≤ maxDecimalDigits

instance (l : LegacyOctal) : Decidable l.IsZero := inferInstanceAs (Decidable (_ ∧ _))

/-- A legacy octal literal of zeros stands for zero in both bases. -/
theorem number_of_isZero {l : LegacyOctal} (h : l.IsZero) : l.number = 0 ∧ l.inTens = 0 := by
  have hvalues : ∀ v ∈ (l.digits.map Fin.val).reverse, v = 0 := by
    intro v hv
    obtain ⟨d, hd, rfl⟩ := List.mem_map.mp (List.mem_reverse.mp hv)
    exact h.1 d hd
  have hzeros := List.eq_replicate_of_mem hvalues
  rw [number, inTens, OctalDigit.number, hzeros, Nat.ofDigits_replicate_zero,
    Nat.ofDigits_replicate_zero]
  exact ⟨rfl, rfl⟩

/-- Of all legacy octal literals only zero is read as an integer in base ten. -/
theorem decimalDigits?_chars (l : LegacyOctal) :
    decimalDigits? l.chars = if l.IsZero then some 0 else none := by
  have hcondition : (l.chars.length ≤ maxDecimalDigits ∧
      (l.chars.head? = some '0' → l.chars.all (· = '0') = true)) ↔ l.IsZero := by
    have hall : ∀ d : OctalDigit, d.char = '0' ↔ d.val = 0 := by decide
    have hzeros : l.chars.all (· = '0') = true ↔ ∀ d ∈ l.digits, d.val = 0 := by
      simp [chars, hall]
    rw [hzeros]
    exact ⟨fun h => ⟨h.2 rfl, h.1⟩, fun h => ⟨h.2, fun _ => h.1⟩⟩
  have hdigits : digits? 10 l.chars = some l.inTens := by
    rw [← l.ofDigits_chars]
    exact if_pos ⟨List.cons_ne_nil _ _, List.all_eq_true.mpr fun c hc =>
      isDigitOf_of_mem_chars (by omega) hc⟩
  rw [decimalDigits?]
  by_cases h : l.IsZero
  · rw [if_pos (hcondition.mpr h), if_pos h, hdigits, (number_of_isZero h).2]
  · rw [if_neg (mt hcondition.mp h), if_neg h]

/-- No base mark stands behind the zero, so a literal is a whole number only if it is nothing but
zeros. -/
theorem wholeNumber?_chars (l : LegacyOctal) :
    wholeNumber? l.chars = if l.IsZero then some 0 else none := by
  have hunmarked : ∀ mark digits, l.chars = '0' :: mark :: digits → markedBase? mark = none := by
    have hall : ∀ d : OctalDigit, markedBase? d.char = none := by decide
    intro mark digits h
    have hmark : l.first.char = mark := (List.cons.inj (List.cons.inj h).2).1
    exact hmark ▸ hall l.first
  rw [wholeNumber?, l.splitSign_chars]
  simp only [magnitude?_of_unmarked hunmarked, l.decimalDigits?_chars]
  split_ifs <;> rfl

end LegacyOctal

/-- The whole number that a value is, whether or not it is kept as one. -/
def wholeValue? : Value → Option ℤ
  | .integer i => some i
  | .float x => doubleWhole? x
  | _ => none

/-- **Legacy octal literals are read in base ten.** A legacy octal literal always has a number as
its value: zero, if it is nothing but zeros, and otherwise the double that is nearest to its digits
in base ten. That is the number it denotes if and only if it denotes less than eight. -/
theorem numberValue?_legacyOctal (l : LegacyOctal) :
    ∃ v : Value, numberValue? l.text = some v ∧
      v = (if l.IsZero then .integer 0 else .float (Decimal.toFloat ⟨l.inTens, 0⟩)) ∧
      (wholeValue? v = some (l.number : ℤ) ↔ l.number < 8) := by
  refine ⟨_, ?_, rfl, ?_⟩
  · rw [numberValue?, l.numberText?_text]
    show ((wholeNumber? l.chars).map Value.integer <|> (fractional? l.chars).map Value.float) = _
    rw [l.wholeNumber?_chars, l.fractional?_chars]
    split_ifs <;> rfl
  · split_ifs with h
    · rw [(LegacyOctal.number_of_isZero h).1]
      exact ⟨fun _ => by omega, fun _ => rfl⟩
    · exact l.doubleWhole?_inTens

/-- The literal `010` denotes eight and has the value ten. -/
theorem numberValue?_octal_eight :
    ∃ l : LegacyOctal, l.text = "010" ∧ l.number = 8 ∧
      (numberValue? l.text).bind wholeValue? = some 10 := by
  refine ⟨⟨1, [0]⟩, by decide, by decide, ?_⟩
  decide +kernel

end ScriptAudit.Literal
