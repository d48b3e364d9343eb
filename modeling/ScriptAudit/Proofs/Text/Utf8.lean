import ScriptAudit.Text.Utf8

/-!
# Reading UTF-8 byte by byte

The reader carries a state from byte to byte. The bytes of a character lead it from the state
between characters back to that state and give the character, so a text that was written is read
back.

Bytes that were not written that way are counted. A state on its own, with no byte behind it, gives
one character if it is inside a sequence and none if it is not. One more byte never takes from that
number and adds at most one to it; by induction over the bytes, reading on never gives fewer
characters, and there are never more characters than bytes.
-/

set_option autoImplicit false

namespace ScriptAudit.Text.Utf8

/-- A byte is read in one step, and the others from where that leads. -/
theorem decodeFrom_cons (state : Option Pending) (b : UInt8) (bytes : List UInt8) :
    decodeFrom state (b :: bytes) =
      (step state b).1 ++ decodeFrom (step state b).2 bytes := rfl

/-- A byte in the range that a sequence asks for belongs to the sequence. -/
theorem step_within {p : Pending} {b : UInt8} (h : p.low ≤ b.toNat ∧ b.toNat ≤ p.high) :
    step (some p) b =
      if p.missing ≤ 1 then ([Char.ofNat (p.bits * 64 + (b.toNat - 128))], none)
      else ([], some { bits := p.bits * 64 + (b.toNat - 128), missing := p.missing - 1 }) := by
  rw [step, if_pos h]

/-- A byte outside that range breaks the sequence off and is read afresh. -/
theorem step_outside {p : Pending} {b : UInt8} (h : ¬ (p.low ≤ b.toNat ∧ b.toNat ≤ p.high)) :
    step (some p) b = (replacement :: (start b).1, (start b).2) := by
  rw [step, if_neg h]

/-! ## What was written is read back -/

/-- The lead byte of a sequence of two. The leads 0 and 1 would only begin overlong forms. -/
theorem lead_two {a : Nat} (hlow : 2 ≤ a) (hhigh : a < 32) :
    lead (UInt8.ofNat (a + 192)) = .opens { bits := a, missing := 1 } := by
  unfold lead
  simp only [UInt8.toNat_ofNat_of_lt' (show a + 192 < 256 by omega)]
  rw [if_neg (by omega), if_neg (by omega), if_pos (by omega), Nat.add_sub_cancel]

/-- The lead byte of a sequence of three. The range of the next byte is cut below for 0, against
overlong forms, and above for 13, against surrogates. -/
theorem lead_three {a : Nat} (h : a < 16) :
    lead (UInt8.ofNat (a + 224)) =
      .opens { bits := a, missing := 2, low := if a = 0 then 0xA0 else 0x80,
               high := if a = 13 then 0x9F else 0xBF } := by
  unfold lead
  simp only [UInt8.toNat_ofNat_of_lt' (show a + 224 < 256 by omega)]
  rw [if_neg (by omega), if_neg (by omega), if_neg (by omega)]
  grind

/-- The lead byte of a sequence of four. The range of the next byte is cut below for 0, against
overlong forms, and above for 4, behind the last code point. -/
theorem lead_four {a : Nat} (h : a ≤ 4) :
    lead (UInt8.ofNat (a + 240)) =
      .opens { bits := a, missing := 3, low := if a = 0 then 0x90 else 0x80,
               high := if a = 4 then 0x8F else 0xBF } := by
  unfold lead
  simp only [UInt8.toNat_ofNat_of_lt' (show a + 240 < 256 by omega)]
  rw [if_neg (by omega), if_neg (by omega), if_neg (by omega)]
  grind

/-- A byte that opens a sequence is kept until more are read. -/
theorem decodeFrom_open {b : UInt8} {p : Pending} (h : lead b = .opens p) (bytes : List UInt8) :
    decodeFrom none (b :: bytes) = decodeFrom (some p) bytes := by
  simp [decodeFrom_cons, step, start, h]

/-- A byte in the middle of a sequence adds six bits. -/
theorem decodeFrom_continue {p : Pending} {d : Nat} (hd : d < 64) (hlow : p.low ≤ d + 128)
    (hhigh : d + 128 ≤ p.high) (hmissing : 1 < p.missing) (bytes : List UInt8) :
    decodeFrom (some p) (UInt8.ofNat (d + 128) :: bytes) =
      decodeFrom (some { bits := p.bits * 64 + d, missing := p.missing - 1 }) bytes := by
  have hnat := UInt8.toNat_ofNat_of_lt' (show d + 128 < 256 by omega)
  rw [decodeFrom_cons, step_within (by omega), if_neg (by omega), hnat, Nat.add_sub_cancel]
  rfl

/-- The last byte of a sequence completes its character. -/
theorem decodeFrom_complete {p : Pending} {d : Nat} (hd : d < 64) (hlow : p.low ≤ d + 128)
    (hhigh : d + 128 ≤ p.high) (hmissing : p.missing = 1) (bytes : List UInt8) :
    decodeFrom (some p) (UInt8.ofNat (d + 128) :: bytes) =
      Char.ofNat (p.bits * 64 + d) :: decodeFrom none bytes := by
  have hnat := UInt8.toNat_ofNat_of_lt' (show d + 128 < 256 by omega)
  rw [decodeFrom_cons, step_within (by omega), if_pos (by omega), hnat, Nat.add_sub_cancel]
  rfl

/-- The bytes of a character are read as that character. -/
theorem decodeFrom_char (c : Char) (bytes : List UInt8) :
    decodeFrom none (String.utf8EncodeChar c ++ bytes) = c :: decodeFrom none bytes := by
  have hvalid : c.toNat < 0xD800 ∨ 0xDFFF < c.toNat ∧ c.toNat < 0x110000 := c.valid
  have hback : Char.ofNat c.toNat = c := Char.ofNat_toNat c
  unfold String.utf8EncodeChar
  simp only [show c.val.toNat = c.toNat from rfl]
  generalize c.toNat = v at hvalid hback ⊢
  subst hback
  split
  case isTrue hone =>
    have hlead : lead (UInt8.ofNat v) = .scalar (Char.ofNat v) := by
      unfold lead
      simp only [UInt8.toNat_ofNat_of_lt' (show v < 256 by omega)]
      rw [if_pos (by omega)]
    simp [decodeFrom_cons, step, start, hlead]
  case isFalse hone =>
    split
    case isTrue htwo =>
      have hbits : v / 64 % 32 * 64 + v % 64 = v := by omega
      rw [List.cons_append, List.cons_append, List.nil_append,
        decodeFrom_open (lead_two (by omega) (by omega)),
        decodeFrom_complete (by omega) (by simp) (by simp; omega) rfl, hbits]
    case isFalse htwo =>
      split
      case isTrue hthree =>
        -- no character lies below 0x800 here or among the surrogates, as the second byte must show
        have hbits : (v / 4096 % 16 * 64 + v / 64 % 64) * 64 + v % 64 = v := by omega
        rw [List.cons_append, List.cons_append, List.cons_append, List.nil_append,
          decodeFrom_open (lead_three (by omega)),
          decodeFrom_continue (by omega) (by grind) (by grind) (by simp),
          decodeFrom_complete (by omega) (by simp) (by simp; omega) rfl, hbits]
      case isFalse hthree =>
        have hbits : ((v / 262144 % 8 * 64 + v / 4096 % 64) * 64 + v / 64 % 64) * 64 + v % 64 =
            v := by omega
        rw [List.cons_append, List.cons_append, List.cons_append, List.cons_append, List.nil_append,
          decodeFrom_open (lead_four (by omega)),
          decodeFrom_continue (by omega) (by grind) (by grind) (by simp),
          decodeFrom_continue (by omega) (by simp) (by simp; omega) (by simp),
          decodeFrom_complete (by omega) (by simp) (by simp; omega) rfl, hbits]

/-- What was encoded is decoded again. -/
theorem decode_encode (cs : List Char) : decode (encode cs) = cs := by
  unfold decode encode
  induction cs with
  | nil => rfl
  | cons c cs ih => rw [List.flatMap_cons, decodeFrom_char, ih]

/-- Two texts are encoded one after the other. -/
theorem encode_append (cs ds : List Char) : encode (cs ++ ds) = encode cs ++ encode ds :=
  List.flatMap_append

/-! ## How many characters bytes give -/

/-- The first byte of a sequence counts as one character, whatever follows. -/
theorem length_start (b : UInt8) :
    (start b).1.length + (decodeFrom (start b).2 []).length = 1 := by
  unfold start
  split <;> rfl

/-- One more byte never takes from the characters that a state stands for, and adds at most one. -/
theorem length_step (state : Option Pending) (b : UInt8) :
    (decodeFrom state []).length ≤
        (step state b).1.length + (decodeFrom (step state b).2 []).length ∧
      (step state b).1.length + (decodeFrom (step state b).2 []).length ≤
        (decodeFrom state []).length + 1 := by
  have hstart := length_start b
  cases state with
  | none => exact ⟨Nat.zero_le _, Nat.le_of_eq hstart⟩
  | some p =>
    have hpending : (decodeFrom (some p) []).length = 1 := rfl
    by_cases hrange : p.low ≤ b.toNat ∧ b.toNat ≤ p.high
    · rw [step_within hrange]
      split <;> simp [decodeFrom]
    · rw [step_outside hrange, List.length_cons]
      simp only [hpending]
      omega

/-- More bytes make no fewer characters of a sequence that is open. -/
theorem length_decodeFrom_nil_le_bytes (state : Option Pending) (bytes : List UInt8) :
    (decodeFrom state []).length ≤ (decodeFrom state bytes).length := by
  induction bytes generalizing state with
  | nil => exact Nat.le_refl _
  | cons b bytes ih =>
    have hstep := (length_step state b).1
    have hrest := ih (step state b).2
    rw [decodeFrom_cons, List.length_append]
    omega

/-- The beginning of some bytes makes no more characters than all of them. -/
theorem length_decodeFrom_append (state : Option Pending) (bytes more : List UInt8) :
    (decodeFrom state bytes).length ≤ (decodeFrom state (bytes ++ more)).length := by
  induction bytes generalizing state with
  | nil => exact length_decodeFrom_nil_le_bytes state more
  | cons b bytes ih =>
    rw [List.cons_append, decodeFrom_cons, decodeFrom_cons, List.length_append, List.length_append]
    exact Nat.add_le_add_left (ih _) _

/-- Every byte makes at most one more character. -/
theorem length_decodeFrom_le (state : Option Pending) (bytes : List UInt8) :
    (decodeFrom state bytes).length ≤ (decodeFrom state []).length + bytes.length := by
  induction bytes generalizing state with
  | nil => exact Nat.le_refl _
  | cons b bytes ih =>
    have hstep := (length_step state b).2
    have hrest := ih (step state b).2
    rw [decodeFrom_cons, List.length_append, List.length_cons]
    omega

/-- There are no more characters than bytes. -/
theorem length_decode_le (bytes : List UInt8) : (decode bytes).length ≤ bytes.length := by
  have hle := length_decodeFrom_le none bytes
  rwa [show (decodeFrom none []).length = 0 from rfl, Nat.zero_add] at hle

end ScriptAudit.Text.Utf8
