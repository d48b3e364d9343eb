import Mathlib
import ScriptAudit.Literal.Dyadic
import ScriptAudit.Literal.Number

/-!
# Doubles of whole numbers

What is not read as a whole number is rounded to a double, even if it has no fraction. Below `2 ^
53` nothing is lost by that. From there on the last digits are, and the double is off by no more
than one part in `2 ^ 52`.

A double is made in two steps. A mantissa is shifted until it has 53 bits and rounded, and as
rounding can carry, it is shifted once more. Then mantissa and exponent are packed into bits. So
there are lemmas on shifting, one on rounding for an exact and one for an inexact mantissa, and two
on what is found in the bits.
-/

set_option autoImplicit false

namespace ScriptAudit.Literal

open Float.Model Float.Model.UnpackedFloat

/-- A shift to the left adds to the logarithm. -/
theorem log2_mul_two_pow {n : ℕ} (hn : n ≠ 0) (s : ℕ) : (n * 2 ^ s).log2 = n.log2 + s := by
  obtain ⟨hlow, hhigh⟩ := (Nat.log2_eq_iff hn).mp rfl
  rw [Nat.log2_eq_iff (Nat.mul_ne_zero hn (Nat.two_pow_pos s).ne'), Nat.add_right_comm, Nat.pow_add,
    Nat.pow_add]
  exact ⟨Nat.mul_le_mul_right _ hlow, Nat.mul_lt_mul_of_pos_right hhigh (Nat.two_pow_pos s)⟩

/-- A mantissa of 53 bits. -/
abbrev Mantissa := { q : ℕ // q.log2 = 52 }

namespace Mantissa

/-- A mantissa is positive. -/
theorem pos (q : Mantissa) : 0 < q.val := by
  by_contra h
  have hzero : q.val = 0 := by omega
  have hlog := q.property
  rw [hzero] at hlog
  cases hlog

/-- A mantissa has fifty-three bits. -/
theorem bounds (q : Mantissa) : 2 ^ 52 ≤ q.val ∧ q.val < 2 ^ 53 :=
  (Nat.log2_eq_iff q.pos.ne').mp q.property

/-- A shifted mantissa has as many bits more. -/
theorem log2_mul (q : Mantissa) (s : ℕ) : (q.val * 2 ^ s).log2 = 52 + s := by
  rw [log2_mul_two_pow q.pos.ne', q.property]

/-- The double `q · 2 ^ t`. -/
def scaled (q : Mantissa) (t : ℤ) : UnpackedFloat := .finite .positive q.val t q.pos

/-- A number is a mantissa with the bits behind it cut off. -/
theorem exists_div_eq {m s : ℕ} (hm : m.log2 = 52 + s) : ∃ q : Mantissa, m / 2 ^ s = q.val := by
  have hne : m ≠ 0 := by
    rintro rfl
    rw [Nat.log2_zero] at hm
    omega
  obtain ⟨hlow, hhigh⟩ := (Nat.log2_eq_iff hne).mp hm
  have hlog : (m / 2 ^ s).log2 = 52 := by
    have hle : 2 ^ 52 ≤ m / 2 ^ s := by
      rw [Nat.le_div_iff_mul_le (Nat.two_pow_pos s), ← Nat.pow_add]
      exact hlow
    rw [Nat.log2_eq_iff (by omega)]
    refine ⟨hle, ?_⟩
    rw [Nat.div_lt_iff_lt_mul (Nat.two_pow_pos s), ← Nat.pow_add, Nat.add_right_comm]
    exact hhigh
  exact ⟨⟨_, hlog⟩, rfl⟩

end Mantissa

/-! ## Shifting and rounding -/

/-- A shift by one more is followed by a shift by one. -/
theorem shiftRight_succ (em : ExtendedMantissa) (s : ℕ) :
    em >>> (s + 1) = (em >>> s).shiftRightOne := rfl

/-- A shift to the right divides the mantissa. -/
theorem mantissa_shiftRight (em : ExtendedMantissa) (s : ℕ) :
    (em >>> s).mantissa = em.mantissa / 2 ^ s := by
  induction s with
  | zero => exact (Nat.div_one _).symm
  | succ s ih =>
    rw [shiftRight_succ, Nat.pow_succ, ← Nat.div_div_eq_div_mul, ← ih]
    rfl

/-- Nothing is lost when the bits that are cut off are zeros. -/
theorem mul_two_pow_shiftRight (q s : ℕ) :
    (⟨q * 2 ^ s, false, false⟩ : ExtendedMantissa) >>> s = ⟨q, false, false⟩ := by
  induction s generalizing q with
  | zero => rw [Nat.pow_zero, Nat.mul_one]; rfl
  | succ s ih =>
    have hdouble : q * 2 ^ (s + 1) = q * 2 * 2 ^ s := by ring
    rw [shiftRight_succ, hdouble, ih]
    simp [ExtendedMantissa.shiftRightOne]

/-- Rounding adds at most one unit. -/
theorem roundedMantissa_bounds (em : ExtendedMantissa) :
    em.mantissa ≤ em.roundedMantissa ∧ em.roundedMantissa ≤ em.mantissa + 1 := by
  obtain ⟨m, round, sticky⟩ := em
  cases round <;> cases sticky <;>
    simp [ExtendedMantissa.roundedMantissa, ExtendedMantissa.accuracy, Accuracy.roundToNearestEven]
  omega

/-- The exponent to be reached leaves fifty-three bits, unless it is too small. -/
theorem targetExponent_eq {m : ℕ} {e t : ℤ} (hm : m.log2 + e = 52 + t) (ht : -1074 ≤ t) :
    Format.binary64.targetExponent (totalExponent m e) = t := by
  have hmin : Format.binary64.minExponent = -1074 := rfl
  have hbits : Format.binary64.mantissaBits = 53 := rfl
  rw [Format.targetExponent, totalExponent, hmin, hbits]
  omega

/-- A number with more bits is shifted to the right by as many as it has too many. -/
theorem shiftToTargetExponent_eq {m s : ℕ} {e : ℤ} (hm : m.log2 = 52 + s) (he : -1074 ≤ e) :
    shiftToTargetExponent Format.binary64 m e .exact =
      ((⟨m, false, false⟩ : ExtendedMantissa) >>> s, e + s) := by
  have htarget : Format.binary64.targetExponent (totalExponent m e) = e + s :=
    targetExponent_eq (by omega) (by omega)
  have hamount : (e + s - e).toNat = s := by omega
  rw [shiftToTargetExponent, htarget, shiftToExponent, hamount]
  rfl

/-- A shifted mantissa is shifted back. -/
theorem Mantissa.shiftToTargetExponent_mul (q : Mantissa) (s : ℕ) {e : ℤ} (he : -1074 ≤ e) :
    shiftToTargetExponent Format.binary64 (q.val * 2 ^ s) e .exact =
      (⟨q.val, false, false⟩, e + s) := by
  rw [shiftToTargetExponent_eq (q.log2_mul s) he, mul_two_pow_shiftRight]

/-- The second shift, of what rounding gave, settles the double. -/
theorem roundWithAccuracy_of_rounded {m : ℕ} {e e' : ℤ} {em : ExtendedMantissa} {q : Mantissa}
    {c : ℕ} (hfirst : shiftToTargetExponent Format.binary64 m e .exact = (em, e'))
    (hrounded : em.roundedMantissa = q.val * 2 ^ c) (he : -1074 ≤ e') :
    roundWithAccuracy Format.binary64 .positive m e .exact = q.scaled (e' + c) := by
  rw [roundWithAccuracy, hfirst]
  simp only [hrounded, q.shiftToTargetExponent_mul c he]
  exact dif_neg q.pos.ne'

/-- A shifted mantissa is not rounded. -/
theorem Mantissa.roundWithAccuracy_mul (q : Mantissa) (s : ℕ) {e : ℤ} (he : -1074 ≤ e) :
    roundWithAccuracy Format.binary64 .positive (q.val * 2 ^ s) e .exact = q.scaled (e + s) := by
  have hrounded : (⟨q.val, false, false⟩ : ExtendedMantissa).roundedMantissa = q.val * 2 ^ 0 :=
    (Nat.mul_one _).symm
  have hround := roundWithAccuracy_of_rounded (q.shiftToTargetExponent_mul s he) hrounded (by omega)
  rwa [Nat.cast_zero, add_zero] at hround

/-- What a mantissa is rounded to is a shifted mantissa. -/
theorem Mantissa.exists_rounded_eq (q : Mantissa) {r : ℕ} (hlow : q.val ≤ r)
    (hhigh : r ≤ q.val + 1) : ∃ (p : Mantissa) (c : ℕ), r = p.val * 2 ^ c := by
  have hbounds := q.bounds
  rcases Nat.lt_or_ge r (2 ^ 53) with hlt | hge
  · have hlog : r.log2 = 52 := (Nat.log2_eq_iff (by omega)).mpr ⟨by omega, hlt⟩
    exact ⟨⟨r, hlog⟩, 0, (Nat.mul_one r).symm⟩
  -- the carry gives a power of two, with one bit too many
  · have hr : r = 2 ^ 53 := by omega
    exact ⟨⟨2 ^ 52, Nat.log2_two_pow⟩, 1, hr⟩

/-- Rounding to 53 bits costs no more than one part in `2 ^ 52`. -/
theorem exists_roundWithAccuracy_eq {m : ℕ} {e : ℤ} (hm : 52 ≤ m.log2) (he : -1074 ≤ e) :
    ∃ (q : Mantissa) (c : ℕ),
      roundWithAccuracy Format.binary64 .positive m e .exact = q.scaled (e + c) ∧
      m.log2 ≤ 52 + c ∧ 2 ^ 52 * ((m : ℤ) - q.val * 2 ^ c).natAbs ≤ m := by
  obtain ⟨s, hs⟩ := Nat.exists_eq_add_of_le hm
  obtain ⟨q, hq⟩ := Mantissa.exists_div_eq hs
  let em : ExtendedMantissa := (⟨m, false, false⟩ : ExtendedMantissa) >>> s
  have hmantissa : em.mantissa = q.val := (mantissa_shiftRight _ s).trans hq
  obtain ⟨hlow, hhigh⟩ := roundedMantissa_bounds em
  rw [hmantissa] at hlow hhigh
  obtain ⟨p, c, hp⟩ := q.exists_rounded_eq hlow hhigh
  refine ⟨p, s + c, ?_, by omega, ?_⟩
  · rw [roundWithAccuracy_of_rounded (shiftToTargetExponent_eq hs he) hp (by omega), Nat.cast_add,
      add_assoc]
  · have hsplit : 2 ^ s * q.val + m % 2 ^ s = m := hq ▸ Nat.div_add_mod m (2 ^ s)
    have hrest : m % 2 ^ s < 2 ^ s := Nat.mod_lt m (Nat.two_pow_pos s)
    have hunit : 2 ^ s * 2 ^ 52 ≤ 2 ^ s * q.val := Nat.mul_le_mul_left _ q.bounds.1
    have hkept : 2 ^ s * q.val ≤ 2 ^ s * em.roundedMantissa := Nat.mul_le_mul_left _ hlow
    have hcarried : 2 ^ s * em.roundedMantissa ≤ 2 ^ s * q.val + 2 ^ s :=
      Nat.mul_le_mul_left _ hhigh
    have hrounded : (p.val : ℤ) * 2 ^ (s + c) = (2 ^ s * em.roundedMantissa : ℕ) := by
      rw [hp]
      push_cast
      ring
    rw [hrounded]
    omega

/-! ## The bits of a double -/

/-- The exponent stands in front of the fraction. -/
theorem toNat_packComponents (exponent : BitVec 11) (mantissa : BitVec 52) :
    (packComponents Format.binary64 .positive exponent mantissa).toNat =
      exponent.toNat * 2 ^ 52 + mantissa.toNat := by
  have hsign : (Sign.toBitVec .positive ++ exponent).toNat = exponent.toNat := by
    rw [BitVec.toNat_append]
    exact Nat.zero_or _
  rw [packComponents, BitVec.toNat_append, hsign, ← Nat.shiftLeft_add_eq_or_of_lt mantissa.isLt,
    Nat.shiftLeft_eq]

/-- The exponent is stored with the point behind the mantissa. -/
theorem biasedExponent_eq (t : ℤ) : t + Format.binary64.exponentBias + (52 : ℕ) = t + 1075 := by
  have hbias : (Format.binary64.exponentBias : ℤ) = 1023 := rfl
  omega

namespace Mantissa

/-- A mantissa with an exponent that is not too large is packed with its own bits. -/
theorem pack_scaled (q : Mantissa) {t : ℤ} (ht : t ≤ 971) :
    UnpackedFloat.pack Format.binary64 (q.scaled t) =
      packComponents Format.binary64 .positive (BitVec.ofNat 11 (t + 1075).toNat)
        (BitVec.ofNat 52 q.val) := by
  have hbits : Format.binary64.mantissaBits = 53 := rfl
  rw [scaled, UnpackedFloat.pack]
  simp only [biasedExponent_eq, hbits, q.property]
  rw [if_neg (by omega)]
  rfl

/-- A mantissa with an exponent that is too large is packed as infinity. -/
theorem pack_scaled_of_gt (q : Mantissa) {t : ℤ} (ht : 971 < t) :
    UnpackedFloat.pack Format.binary64 (q.scaled t) = packedInfinity Format.binary64 .positive := by
  rw [scaled, UnpackedFloat.pack]
  simp only [biasedExponent_eq]
  exact if_pos (by omega)

/-- The exponent field of a double with a full mantissa, neither the least nor the greatest. -/
theorem toNat_exponentField {t : ℤ} (hlow : -1074 ≤ t) (hhigh : t ≤ 971) :
    1 ≤ (t + 1075).toNat ∧ (t + 1075).toNat < 2047 ∧
      (BitVec.ofNat 11 (t + 1075).toNat).toNat = (t + 1075).toNat := by
  refine ⟨by omega, by omega, ?_⟩
  rw [BitVec.toNat_ofNat]
  exact Nat.mod_eq_of_lt (by omega)

/-- The fraction of a mantissa is the mantissa without its first bit. -/
theorem toNat_fraction (q : Mantissa) : (BitVec.ofNat 52 q.val).toNat = q.val - 2 ^ 52 := by
  have hbounds := q.bounds
  rw [BitVec.toNat_ofNat]
  omega

/-- A double with a full mantissa is found in its bits again. -/
theorem ofFloat?_pack (q : Mantissa) {t : ℤ} (hlow : -1074 ≤ t) (hhigh : t ≤ 971) :
    Dyadic.ofFloat? (Float.ofModel (Float.Model.pack (q.scaled t))) = some ⟨q.val, t⟩ := by
  obtain ⟨hpos, hlt, hfield⟩ := toNat_exponentField hlow hhigh
  have hbounds := q.bounds
  have hbits : (Float.ofModel (Float.Model.pack (q.scaled t))).toBits.toNat =
      (t + 1075).toNat * 2 ^ 52 + (q.val - 2 ^ 52) := by
    rw [← hfield, ← q.toNat_fraction, ← toNat_packComponents, ← q.pack_scaled hhigh]
    rfl
  have hexponent : ((t + 1075).toNat * 2 ^ 52 + (q.val - 2 ^ 52)) / 2 ^ 52 % 2 ^ 11 =
      (t + 1075).toNat := by
    omega
  have hmantissa : ((t + 1075).toNat * 2 ^ 52 + (q.val - 2 ^ 52)) % 2 ^ 52 = q.val - 2 ^ 52 := by
    omega
  rw [Dyadic.ofFloat?, hbits]
  simp only [Nat.pow_eq, hexponent, hmantissa]
  have hmagnitude : ((2 ^ 52 : ℕ) : ℤ) + (q.val - 2 ^ 52 : ℕ) = q.val := by omega
  have hbiased : (max (t + 1075).toNat 1 : ℕ) - (1075 : ℤ) = t := by omega
  rw [if_neg (by omega), if_neg (by omega), if_neg (by omega), hmagnitude, hbiased]

/-- A double whose exponent was too large has no value. -/
theorem ofFloat?_pack_of_gt (q : Mantissa) {t : ℤ} (ht : 971 < t) :
    Dyadic.ofFloat? (Float.ofModel (Float.Model.pack (q.scaled t))) = none := by
  have hbits : (Float.ofModel (Float.Model.pack (q.scaled t))).toBits.toNat = 2047 * 2 ^ 52 := by
    show (UnpackedFloat.pack Format.binary64 (q.scaled t)).toNat = _
    rw [q.pack_scaled_of_gt ht]
    rfl
  rw [Dyadic.ofFloat?, hbits]
  rfl

/-- What was packed is unpacked again. -/
theorem unpack_pack (q : Mantissa) {t : ℤ} (hlow : -1074 ≤ t) (hhigh : t ≤ 971) :
    (Float.Model.pack (q.scaled t)).unpack = q.scaled t := by
  obtain ⟨hpos, hlt, hfield⟩ := toNat_exponentField hlow hhigh
  have hbounds := q.bounds
  have hones : BitVec.ofNat 11 (t + 1075).toNat ≠ -1#_ := by
    intro h
    have hnat := congrArg BitVec.toNat h
    rw [hfield] at hnat
    exact absurd hnat (by simp; omega)
  have hzeros : BitVec.ofNat 11 (t + 1075).toNat ≠ 0#_ := by
    intro h
    have hnat := congrArg BitVec.toNat h
    rw [hfield] at hnat
    exact absurd hnat (by simp; omega)
  have himplied : (1#1 ++ BitVec.ofNat 52 q.val).toNat = q.val := by
    rw [BitVec.toNat_append, ← Nat.shiftLeft_add_eq_or_of_lt (BitVec.isLt _), q.toNat_fraction,
      Nat.shiftLeft_eq]
    show 1 * 2 ^ 52 + (q.val - 2 ^ 52) = q.val
    omega
  show UnpackedFloat.unpack Format.binary64 (UnpackedFloat.pack Format.binary64 (q.scaled t)) = _
  have hbiased : ((t + 1075).toNat : ℤ) - (Format.binary64.exponentBias + (52 : ℕ)) = t := by
    have hbias := biasedExponent_eq t
    omega
  rw [q.pack_scaled hhigh, UnpackedFloat.unpack]
  simp only [unpackMantissa_packComponents, unpackExponent_packComponents,
    unpackSign_packComponents, hones, hzeros, if_false, himplied, hfield, hbiased]
  rfl

end Mantissa

/-! ## Whole numbers -/

/-- The value of a double, if it is a whole number. -/
def doubleWhole? (x : Float) : Option ℤ := (Dyadic.ofFloat? x).bind Dyadic.whole?

/-- A number below `2 ^ 53` is shifted to the left until it is a mantissa. -/
theorem exists_mantissa {n : ℕ} (hpos : 0 < n) (hlt : n < 2 ^ 53) :
    ∃ (q : Mantissa) (s : ℕ), q.val = n * 2 ^ s ∧ n.log2 + s = 52 := by
  have hlog : n.log2 < 53 := (Nat.log2_lt hpos.ne').mpr hlt
  have hfull : n.log2 + (52 - n.log2) = 52 := by omega
  exact ⟨⟨n * 2 ^ (52 - n.log2), (log2_mul_two_pow hpos.ne' _).trans hfull⟩, 52 - n.log2, rfl,
    hfull⟩

namespace Mantissa

/-- A number is the mantissa it becomes when it is shifted to the left. -/
theorem ofNat_eq (q : Mantissa) {n s : ℕ} (hpos : 0 < n) (hq : q.val = n * 2 ^ s)
    (hs : n.log2 + s = 52) : UnpackedFloat.ofNat Format.binary64 n = q.scaled (-s) := by
  have hgt : compare (n : ℤ) 0 = .gt := compare_gt_iff_gt.mpr (by omega)
  have htarget : Format.binary64.targetExponent (totalExponent n 0) = -s :=
    targetExponent_eq (by omega) (by omega)
  have hshift : decreaseExponent n 0 (-s) = (q.val * 2 ^ 0, -(s : ℤ)) := by
    have hamount : ((0 : ℤ) - -(s : ℤ)).toNat = s := by omega
    rw [decreaseExponent, hamount, Nat.shiftLeft_eq, ← hq, zero_sub, Nat.pow_zero, Nat.mul_one]
  have hround := q.roundWithAccuracy_mul 0 (e := -s) (by omega)
  rw [UnpackedFloat.ofNat, UnpackedFloat.ofInt, UnpackedFloat.normalize, hgt]
  show UnpackedFloat.round Format.binary64 .positive n 0 = _
  rw [UnpackedFloat.round]
  simp only [htarget, hshift, hround]
  rw [Nat.cast_zero, add_zero]

/-- A double that is multiplied by one stays the same. -/
theorem scaled_mul_one (q : Mantissa) {t : ℤ} (ht : -1022 ≤ t) (hone : 0 < 2 ^ 52) :
    UnpackedFloat.mul Format.binary64 (q.scaled t) (.finite .positive (2 ^ 52) (-52) hone) =
      q.scaled t := by
  have hround := q.roundWithAccuracy_mul 52 (e := t + -52) (by omega)
  have hexponent : t + -52 + (52 : ℕ) = t := by omega
  rw [hexponent] at hround
  exact hround

end Mantissa

/-- A number that is shifted to the left is whole. -/
theorem whole?_natCast (q s : ℕ) : Dyadic.whole? ⟨q, s⟩ = some ((q : ℤ) * 2 ^ s) := by
  have hwhole : Dyadic.whole? ⟨q, s⟩ = some ((q : ℤ) * (Nat.pow 2 s : ℕ)) :=
    Dyadic.whole?_of_nonneg (Int.natCast_nonneg s)
  rw [hwhole, Nat.pow_eq, Nat.cast_pow]
  rfl

/-- A number that is shifted to the left and back is whole. -/
theorem whole?_neg (n s : ℕ) : Dyadic.whole? ⟨(n * 2 ^ s : ℕ), -s⟩ = some (n : ℤ) := by
  have habs : (-(s : ℤ)).natAbs = s := by omega
  have hpower : ((Nat.pow 2 s : ℕ) : ℤ) ≠ 0 := by
    exact_mod_cast (Nat.two_pow_pos s).ne'
  rw [Dyadic.whole?]
  simp only [habs, Nat.cast_mul, ← Nat.pow_eq]
  rcases Nat.eq_zero_or_pos s with rfl | hs
  · have hone : ((Nat.pow 2 0 : ℕ) : ℤ) = 1 := rfl
    rw [if_pos (by omega), hone, mul_one, mul_one]
  · rw [if_neg (by omega), if_pos (Int.mul_emod_left _ _), Int.mul_ediv_cancel _ hpower]

/-- A number below `2 ^ 53` becomes a double by itself and is then multiplied by one. -/
theorem Mantissa.ofScientific_eq (q : Mantissa) {n s : ℕ} (hpos : 0 < n) (hlt : n < 2 ^ 53)
    (hq : q.val = n * 2 ^ s) (hs : n.log2 + s = 52) :
    Float.ofScientific n false 0 = Float.ofModel (Float.Model.pack (q.scaled (-s))) := by
  have hword : n.toUInt64.toNat = n := UInt64.toNat_ofNat_of_lt' (hlt.trans (by decide))
  have hfloat : n.toUInt64.toFloat = Float.ofModel (Float.Model.pack (q.scaled (-s))) := by
    rw [← q.ofNat_eq hpos hq hs, ← congrArg (UnpackedFloat.ofNat _) hword]
    rfl
  have hone : (Float.ofBits 0x3FF0000000000000).toModel.unpack =
      .finite .positive (2 ^ 52) (-52) (Nat.two_pow_pos 52) := rfl
  have hmul := q.scaled_mul_one (t := -s) (by omega) (Nat.two_pow_pos 52)
  rw [Float.ofScientific, dif_pos ⟨hlt, by omega⟩]
  show n.toUInt64.toFloat * Float.ofBits 0x3FF0000000000000 = _
  rw [hfloat]
  show Float.ofModel (Float.Model.pack (UnpackedFloat.mul Format.binary64
    (Float.Model.pack (q.scaled (-s))).unpack (Float.ofBits 0x3FF0000000000000).toModel.unpack)) = _
  rw [q.unpack_pack (by omega) (by omega), hone, hmul]

/-- A greater number gets 53 more bits, so that it is long enough, and is then rounded. -/
theorem ofScientific_of_ge {n : ℕ} (hge : 2 ^ 53 ≤ n) :
    Float.ofScientific n false 0 = Float.ofModel (Float.Model.pack
      (roundWithAccuracy Format.binary64 .positive (n * 2 ^ 53) (-53) .exact)) := by
  have hlarge : ¬ (0 : ℤ) > 2 ^ 11 := by decide
  have hsmall : ¬ (0 : ℤ) < -((2 ^ 11 : ℤ) + n.log2) := by omega
  rw [Float.ofScientific, dif_neg (by omega)]
  show Float.ofModel (Float.Model.pack (UnpackedFloat.ofScientific Format.binary64 n 0)) = _
  rw [UnpackedFloat.ofScientific, dif_neg (by omega), if_neg hlarge, if_neg hsmall, if_pos le_rfl]
  show Float.ofModel (Float.Model.pack (roundWithAccuracy Format.binary64 .positive
    (n <<< 53 * 1) (-53) .exact)) = _
  rw [Nat.shiftLeft_eq, Nat.mul_one]

/-- A number below `2 ^ 53` is a double. -/
theorem doubleWhole?_ofScientific {n : ℕ} (hpos : 0 < n) (hlt : n < 2 ^ 53) :
    doubleWhole? (Float.ofScientific n false 0) = some (n : ℤ) := by
  obtain ⟨q, s, hq, hs⟩ := exists_mantissa hpos hlt
  rw [doubleWhole?, q.ofScientific_eq hpos hlt hq hs, q.ofFloat?_pack (by omega) (by omega), hq]
  exact whole?_neg n s

/-- A number from `2 ^ 53` on is not far from the double that is read. -/
theorem natAbs_sub_le_of_ofScientific {n : ℕ} (hge : 2 ^ 53 ≤ n) {k : ℤ}
    (hk : doubleWhole? (Float.ofScientific n false 0) = some k) : 2 ^ 52 * (n - k).natAbs ≤ n := by
  have hlog : 53 ≤ n.log2 := (Nat.le_log2 (by omega)).mpr hge
  have hshifted : (n * 2 ^ 53).log2 = n.log2 + 53 := log2_mul_two_pow (by omega) 53
  obtain ⟨q, c, hround, hc, herror⟩ :=
    exists_roundWithAccuracy_eq (m := n * 2 ^ 53) (e := -53) (by omega) (by omega)
  obtain ⟨s, rfl⟩ := Nat.exists_eq_add_of_le (show 53 ≤ c by omega)
  have hexponent : (-53 : ℤ) + (53 + s : ℕ) = s := by omega
  rw [doubleWhole?, ofScientific_of_ge hge, hround, hexponent] at hk
  rcases lt_or_ge (971 : ℤ) s with hinfinite | hfinite
  · rw [q.ofFloat?_pack_of_gt hinfinite] at hk
    cases hk
  · rw [q.ofFloat?_pack (by omega) hfinite] at hk
    have hvalue : (q.val : ℤ) * 2 ^ s = k :=
      Option.some.inj ((whole?_natCast q.val s).symm.trans hk)
    have hscaled : ((n * 2 ^ 53 : ℕ) : ℤ) - q.val * 2 ^ (53 + s) = (n - k) * 2 ^ 53 := by
      rw [← hvalue]
      push_cast
      ring
    have habs : ((2 : ℤ) ^ 53).natAbs = 2 ^ 53 := rfl
    rw [hscaled, Int.natAbs_mul, habs, ← Nat.mul_assoc] at herror
    exact Nat.le_of_mul_le_mul_right herror (Nat.two_pow_pos 53)

namespace Decimal

/-- A number with few digits is read by scaling. -/
theorem toFloat_of_length_le {n : ℕ} (hn : n ≠ 0) (h : (Nat.toDigits 10 n).length ≤ 310) :
    toFloat ⟨n, 0⟩ = Float.ofScientific n false 0 := by
  rw [toFloat, if_neg hn]
  simp only
  rw [if_neg (by omega), if_neg (by omega)]
  rfl

/-- A number with too many digits is read as infinity. -/
theorem toFloat_of_length_gt {n : ℕ} (hn : n ≠ 0) (h : 310 < (Nat.toDigits 10 n).length) :
    toFloat ⟨n, 0⟩ = Float.ofBits 0x7FF0000000000000 := by
  rw [toFloat, if_neg hn]
  simp only
  exact if_pos (by omega)

/-- A whole number below `2 ^ 53` is kept by rounding. -/
theorem doubleWhole?_toFloat {n : ℕ} (hlt : n < 2 ^ 53) :
    doubleWhole? (toFloat ⟨n, 0⟩) = some (n : ℤ) := by
  rcases Nat.eq_zero_or_pos n with rfl | hpos
  · decide +kernel
  · have hlength : (Nat.toDigits 10 n).length ≤ 16 :=
      (Nat.length_toDigits_le_iff (by omega) (by omega)).mpr (hlt.trans (by decide))
    rw [toFloat_of_length_le hpos.ne' (by omega), doubleWhole?_ofScientific hpos hlt]

/-- Whatever whole number rounding gives is near the number. -/
theorem natAbs_sub_le_of_toFloat {n : ℕ} {k : ℤ} (hk : doubleWhole? (toFloat ⟨n, 0⟩) = some k) :
    2 ^ 52 * (n - k).natAbs ≤ n := by
  rcases Nat.lt_or_ge n (2 ^ 53) with hlt | hge
  · rw [doubleWhole?_toFloat hlt] at hk
    obtain rfl := Option.some.inj hk
    omega
  · have hn : n ≠ 0 := by omega
    rcases Nat.lt_or_ge 310 (Nat.toDigits 10 n).length with hlong | hshort
    · have hinfinite : doubleWhole? (Float.ofBits 0x7FF0000000000000) = none := by decide +kernel
      rw [toFloat_of_length_gt hn hlong, hinfinite] at hk
      cases hk
    · rw [toFloat_of_length_le hn hshort] at hk
      exact natAbs_sub_le_of_ofScientific hge hk

end Decimal

end ScriptAudit.Literal
