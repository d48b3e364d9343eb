import ScriptAudit.Json.Reader
import ScriptAudit.Json.Writer
import ScriptAudit.Proofs.Text.Digits
import ScriptAudit.Proofs.Text.Utf16

/-!
# What is written as JSON can be read

The reader gives back every value that the writer wrote. Each reader is followed through the text of
the value it is meant for, in front of any text that cannot be taken for a part of it: a number ends
where no digit, point or exponent follows, and all else ends by itself.

Strings are the heart of it. The writer escapes a character or leaves it alone, and the reader takes
exactly the spelling of one character at a time, so that what follows is read as if it stood alone.

The reader of values carries a bound on its steps. A value never takes more steps than its text has
characters, and so the length of the text is enough.
-/

set_option autoImplicit false

namespace ScriptAudit.Json

open ScriptAudit.Text

/-! ## Strings -/

/-- A control character is written with four digits that spell it. -/
theorem hexPadded_control : ∀ n < 0x20,
    (hexPadded 4 n).toList.length = 4 ∧ (hexPadded 4 n).toList.all (isDigitOf 16) = true ∧
      ofDigits 16 (hexPadded 4 n).toList = n := by decide

/-- A control character that is spelled with four digits is read back. -/
theorem readUnits_control {c : Char} (hc : c.toNat < 0x20) (rest : List Char) :
    readUnits ('\\' :: 'u' :: (hexPadded 4 c.toNat).toList ++ rest) =
      (readUnits rest).map fun (us, rest) => (Utf16.encode [c] ++ us, rest) := by
  obtain ⟨hlength, hdigits, hvalue⟩ := hexPadded_control c.toNat hc
  have hunits : Utf16.encode [c] = [UInt16.ofNat c.toNat] := by
    have hsmall : c.toNat < 0x10000 := by omega
    simp [Utf16.encode, Utf16.unitsOf, hsmall]
  match hfour : (hexPadded 4 c.toNat).toList, hlength with
  | [w, x, y, z], _ =>
    rw [hfour] at hdigits hvalue
    simp only [List.cons_append, List.nil_append]
    rw [readUnits, if_pos hdigits, hvalue, hunits]
    rfl

/-- A character that is spelled with a letter is read back. -/
theorem readUnits_escape {letter c : Char} (hletter : letter ≠ 'u')
    (hc : unescaped? letter = some c) (rest : List Char) :
    readUnits ('\\' :: letter :: rest) =
      (readUnits rest).map fun (us, rest) => (Utf16.encode [c] ++ us, rest) := by
  rw [readUnits, hc]
  intro _ _ _ _ _ hu
  exact absurd hu hletter

/-- A character that is left alone is read back. -/
theorem readUnits_plain {c : Char} (hquote : c ≠ '"') (hslash : c ≠ '\\') (hc : ¬ c.toNat < 0x20)
    (rest : List Char) :
    readUnits (c :: rest) =
      (readUnits rest).map fun (us, rest) => (Utf16.encode [c] ++ us, rest) := by
  have hproper : ¬ (c.toNat < 0x20 ∨ c = '\\') := fun h => h.elim hc hslash
  rw [readUnits, if_neg hproper]
  · exact hquote
  · intro _ _ _ _ _ h
    exact absurd h hslash
  · intro _ _ h
    exact absurd h hslash

/-- A short escape is undone by the reader, and its letter is no control character. -/
theorem unescaped?_of_shortEscape? {c letter : Char} (h : shortEscape? c = some letter) :
    letter ≠ 'u' ∧ 0x20 ≤ letter.toNat ∧ unescaped? letter = some c := by
  unfold shortEscape? at h
  repeat' split at h
  all_goals cases h
  all_goals
    subst c
    decide

/-- The spelling of a character is read as that character, whatever follows. -/
theorem readUnits_escapedChar (c : Char) (rest : List Char) :
    readUnits (escapedChar c ++ rest) =
      (readUnits rest).map fun (us, rest) => (Utf16.encode [c] ++ us, rest) := by
  unfold escapedChar
  split
  · rename_i hspecial
    rcases hspecial with rfl | rfl
    · exact readUnits_escape (by decide) rfl rest
    · exact readUnits_escape (by decide) rfl rest
  · rename_i hspecial
    obtain ⟨hquote, hslash⟩ := not_or.mp hspecial
    split
    · rename_i letter hshort
      obtain ⟨hletter, -, hc⟩ := unescaped?_of_shortEscape? hshort
      exact readUnits_escape hletter hc rest
    · split
      · rename_i hcontrol
        exact readUnits_control hcontrol rest
      · rename_i hcontrol
        exact readUnits_plain hquote hslash hcontrol rest

/-- Escaped characters are read back up to the closing quote. -/
theorem readUnits_flatMap (cs rest : List Char) :
    readUnits (cs.flatMap escapedChar ++ '"' :: rest) = some (Utf16.encode cs, rest) := by
  induction cs with
  | nil => rfl
  | cons c cs ih =>
    rw [List.flatMap_cons, List.append_assoc, readUnits_escapedChar, ih]
    simp [Utf16.encode]

/-- A string is written as its escaped characters in quotes. -/
theorem toList_renderString (s : String) :
    (renderString s).toList = '"' :: (s.toList.flatMap escapedChar ++ ['"']) := by
  simp [renderString]

/-- A written string is read back, behind its opening quote. -/
theorem readString_flatMap (s : String) (rest : List Char) :
    readString (s.toList.flatMap escapedChar ++ '"' :: rest) = some (s, rest) := by
  have hdecode : Utf16.decode (Utf16.encode s.toList) = s.toList :=
    Utf16.decode_eq_of_reads (Utf16.reads_encode s.toList)
  simp [readString, readUnits_flatMap, hdecode]

/-! ## Numbers -/

/-- A text with which no number goes on. -/
def EndsNumber (rest : List Char) : Prop :=
  ∀ c ∈ rest.head?, isDigitOf 10 c = false ∧ c ≠ '.' ∧ c ≠ 'e' ∧ c ≠ 'E'

/-- A number may end at the end of the text. -/
theorem endsNumber_nil : EndsNumber [] := fun _ h => nomatch h

/-- A number may end in front of a character that cannot belong to it. -/
theorem endsNumber_cons {c : Char} {rest : List Char}
    (h : isDigitOf 10 c = false ∧ c ≠ '.' ∧ c ≠ 'e' ∧ c ≠ 'E') : EndsNumber (c :: rest) := by
  intro d hd
  rw [← Option.some.inj hd]
  exact h

/-- The digits of a number are read as far as they go. -/
theorem readDigits_toDigits (n : Nat) {rest : List Char}
    (hrest : ∀ c ∈ rest.head?, isDigitOf 10 c = false) :
    readDigits (Nat.toDigits 10 n ++ rest) = (Nat.toDigits 10 n, rest) := by
  have hdigits : ∀ c ∈ Nat.toDigits 10 n, isDigitOf 10 c = true := fun c hc =>
    isDigitOf_of_mem_toDigits (by decide) (by decide) hc
  have hhead : rest.takeWhile (isDigitOf 10) = [] ∧ rest.dropWhile (isDigitOf 10) = rest := by
    cases rest with
    | nil => exact ⟨rfl, rfl⟩
    | cons c rest => simp [hrest c rfl]
  rw [readDigits, List.takeWhile_append_of_pos hdigits, List.dropWhile_append_of_pos hdigits,
    hhead.1, hhead.2, List.append_nil]

/-- Where a number ends there is no fraction. -/
theorem readFraction_of_endsNumber {rest : List Char} (h : EndsNumber rest) :
    readFraction rest = some ([], rest) := by
  unfold readFraction
  split
  · exact absurd rfl (h '.' rfl).2.1
  · rfl

/-- Where a number ends there is no exponent. -/
theorem readExponent_of_endsNumber {rest : List Char} (h : EndsNumber rest) :
    readExponent rest = some (none, rest) := by
  cases rest with
  | nil => rfl
  | cons c rest =>
    obtain ⟨-, -, hsmall, hcapital⟩ := h c rfl
    simp [readExponent, hsmall, hcapital]

/-- The digits of a number have no superfluous zero. -/
theorem toDigits_proper (n : Nat) :
    ¬ (Nat.toDigits 10 n = [] ∨
      (Nat.toDigits 10 n).head? = some '0' ∧ (Nat.toDigits 10 n).length ≠ 1) := by
  rintro (hnil | ⟨hzero, hlength⟩)
  · exact Nat.toDigits_ne_nil hnil
  · obtain rfl := eq_zero_of_head?_toDigits (by decide) (by decide) hzero
    exact hlength rfl

/-- The first digit of a number is no sign. -/
theorem exists_toDigits_eq_cons (n : Nat) :
    ∃ c cs, Nat.toDigits 10 n = c :: cs ∧ isDigitOf 10 c = true := by
  have hnonempty : Nat.toDigits 10 n ≠ [] := Nat.toDigits_ne_nil
  obtain ⟨c, cs, hcs⟩ := List.exists_cons_of_ne_nil hnonempty
  refine ⟨c, cs, hcs, ?_⟩
  apply isDigitOf_of_mem_toDigits (n := n) (by decide) (by decide)
  rw [hcs]
  exact List.mem_cons_self

/-- A digit is not a character that is none. -/
theorem ne_of_isDigitOf {c sign : Char} (hc : isDigitOf 10 c = true)
    (hsign : isDigitOf 10 sign = false) : c ≠ sign := by
  rintro rfl
  rw [hc] at hsign
  cases hsign

/-- Digits are read as the number that they spell, with the exponent behind them. -/
theorem readMagnitude_toDigits (negative : Bool) (n : Nat) {tail : List Char}
    (hdigit : ∀ c ∈ tail.head?, isDigitOf 10 c = false)
    (hfraction : readFraction tail = some ([], tail)) :
    readMagnitude negative (Nat.toDigits 10 n ++ tail) =
      (readExponent tail).map fun (exponent, rest) =>
        let mantissa : Int := if negative then -n else n
        (exponent.elim (integer mantissa) (decimal mantissa), rest) := by
  have hvalue : ofDigits 10 (Nat.toDigits 10 n) = n := ofDigits_toDigits (by decide) (by decide) n
  simp only [readMagnitude, readDigits_toDigits n hdigit, toDigits_proper n, if_false, hfraction,
    Option.bind_eq_bind, Option.bind_some]
  rcases readExponent tail with _ | ⟨_ | e, rest⟩
  · rfl
  · simp [hvalue]
  · simp [hvalue]

/-- The text of an integer is read as that integer, and then the exponent decides what the number
is. -/
theorem readNumber_toString (m : Int) {tail : List Char}
    (hdigit : ∀ c ∈ tail.head?, isDigitOf 10 c = false)
    (hfraction : readFraction tail = some ([], tail)) :
    readNumber ((toString m).toList ++ tail) =
      (readExponent tail).map fun (exponent, rest) =>
        (exponent.elim (integer m) (decimal m), rest) := by
  rw [toList_toString_int]
  by_cases hneg : m < 0
  · have hmantissa : -(m.natAbs : Int) = m := by omega
    simp only [hneg, if_true, List.cons_append, List.nil_append, readNumber,
      readMagnitude_toDigits true _ hdigit hfraction, hmantissa]
  · have hmantissa : (m.natAbs : Int) = m := by omega
    obtain ⟨c, cs, hcs, hc⟩ := exists_toDigits_eq_cons m.natAbs
    have hread := readMagnitude_toDigits false m.natAbs hdigit hfraction
    rw [hcs, List.cons_append] at hread
    rw [if_neg hneg, List.nil_append, hcs, List.cons_append, readNumber, hread]
    · simp [hmantissa]
    · -- no digit is taken for the sign
      intro rest h
      exact ne_of_isDigitOf hc (by decide) (List.cons.inj h).1

/-- The digits of a number are read back. -/
theorem readNatural_toDigits (n : Nat) {rest : List Char}
    (hrest : ∀ c ∈ rest.head?, isDigitOf 10 c = false) :
    readNatural (Nat.toDigits 10 n ++ rest) = some (n, rest) := by
  have hvalue : ofDigits 10 (Nat.toDigits 10 n) = n := ofDigits_toDigits (by decide) (by decide) n
  simp [readNatural, readDigits_toDigits n hrest, hvalue]

/-- An exponent is read back with its sign. -/
theorem readSigned_toString (e : Int) {rest : List Char}
    (hrest : ∀ c ∈ rest.head?, isDigitOf 10 c = false) :
    readSigned ((toString e).toList ++ rest) = some (e, rest) := by
  have hread := readNatural_toDigits e.natAbs hrest
  rw [toList_toString_int]
  by_cases hneg : e < 0
  · have hvalue : -(e.natAbs : Int) = e := by omega
    simp only [hneg, if_true, List.cons_append, List.nil_append, readSigned, hread,
      Option.map_some, hvalue]
  · have hvalue : (e.natAbs : Int) = e := by omega
    obtain ⟨c, cs, hcs, hc⟩ := exists_toDigits_eq_cons e.natAbs
    rw [hcs, List.cons_append] at hread
    rw [if_neg hneg, List.nil_append, hcs, List.cons_append, readSigned, hread]
    · simp [hvalue]
    · intro rest h
      exact ne_of_isDigitOf hc (by decide) (List.cons.inj h).1
    · intro rest h
      exact ne_of_isDigitOf hc (by decide) (List.cons.inj h).1

/-- An integer is read back. -/
theorem readNumber_integer (i : Int) {rest : List Char} (hrest : EndsNumber rest) :
    readNumber ((toString i).toList ++ rest) = some (integer i, rest) := by
  rw [readNumber_toString i (fun c hc => (hrest c hc).1) (readFraction_of_endsNumber hrest),
    readExponent_of_endsNumber hrest]
  rfl

/-- A decimal is read back. -/
theorem readNumber_decimal (m e : Int) {rest : List Char} (hrest : EndsNumber rest) :
    readNumber ((toString m).toList ++ 'e' :: ((toString e).toList ++ rest)) =
      some (decimal m e, rest) := by
  have hexponent : readExponent ('e' :: ((toString e).toList ++ rest)) = some (some e, rest) := by
    rw [readExponent, if_pos (Or.inl rfl), readSigned_toString e fun c hc => (hrest c hc).1]
    rfl
  rw [readNumber_toString m, hexponent]
  · rfl
  · intro c hc
    rw [← Option.some.inj hc]
    decide
  · rfl

/-! ## Values -/

/-- Nothing is skipped in front of a character that is no space. -/
theorem skipSpace_cons {c : Char} (h : isSpace c = false) (rest : List Char) :
    skipSpace (c :: rest) = c :: rest := by
  simp [skipSpace, h]

/-- The text of the elements of an array, without the brackets. -/
def elementsText (vs : List Json) : List Char :=
  [','].intercalate ((renderElements vs).map String.toList)

/-- The text of the members of an object, without the braces. -/
def membersText (ms : List (String × Json)) : List Char :=
  [','].intercalate ((renderMembers ms).map String.toList)

/-- An array is written as its elements in brackets. -/
theorem toList_render_array (vs : List Json) :
    (array vs).render.toList = '[' :: (elementsText vs ++ [']']) := by
  simp [render, bracketed, elementsText]

/-- An object is written as its members in braces. -/
theorem toList_render_object (ms : List (String × Json)) :
    (object ms).render.toList = '\x7b' :: (membersText ms ++ ['\x7d']) := by
  simp [render, bracketed, membersText]

/-- A single element is written alone. -/
theorem elementsText_singleton (v : Json) : elementsText [v] = v.render.toList := by
  simp [elementsText, renderElements]

/-- Elements are written with commas between them. -/
theorem elementsText_cons_cons (v w : Json) (vs : List Json) :
    elementsText (v :: w :: vs) = v.render.toList ++ ',' :: elementsText (w :: vs) := by
  simp [elementsText, renderElements, List.intercalate_cons_cons]

/-- The text of one member: its name in quotes, a colon and its value. -/
def memberText (name : String) (v : Json) : List Char :=
  '"' :: (name.toList.flatMap escapedChar ++ '"' :: ':' :: v.render.toList)

/-- A single member is written alone. -/
theorem membersText_singleton (name : String) (v : Json) :
    membersText [(name, v)] = memberText name v := by
  simp [membersText, renderMembers, memberText, toList_renderString]

/-- Members are written with commas between them. -/
theorem membersText_cons_cons (name : String) (v : Json) (m : String × Json)
    (ms : List (String × Json)) :
    membersText ((name, v) :: m :: ms) = memberText name v ++ ',' :: membersText (m :: ms) := by
  simp [membersText, renderMembers, memberText, toList_renderString, List.intercalate_cons_cons]

/-- A number starts with a minus or with one of ten digits. -/
theorem mem_signs_of_isDigitOf {c : Char} (h : c = '-' ∨ isDigitOf 10 c = true) :
    c ∈ ['-', '0', '1', '2', '3', '4', '5', '6', '7', '8', '9'] := by
  rcases h with rfl | h
  · decide
  · apply of_isDigitOf_ten h
    decide

/-- A number is read where a sign or a digit stands. -/
theorem readValue_of_number {c : Char} (h : c = '-' ∨ isDigitOf 10 c = true) (steps : Nat)
    (rest : List Char) : readValue (steps + 1) (c :: rest) = readNumber (c :: rest) := by
  have hmem := mem_signs_of_isDigitOf h
  simp only [List.mem_cons, List.not_mem_nil, or_false] at hmem
  rcases hmem with rfl | rfl | rfl | rfl | rfl | rfl | rfl | rfl | rfl | rfl | rfl <;> rfl

/-- The text of an integer starts with a sign or a digit. -/
theorem exists_toString_eq_cons (i : Int) :
    ∃ c cs, (toString i).toList = c :: cs ∧ (c = '-' ∨ isDigitOf 10 c = true) := by
  rw [toList_toString_int]
  split
  · exact ⟨'-', _, rfl, Or.inl rfl⟩
  · obtain ⟨c, cs, hcs, hc⟩ := exists_toDigits_eq_cons i.natAbs
    exact ⟨c, cs, hcs, Or.inr hc⟩

/-- A written value starts with a character that is neither a blank nor a closing bracket. -/
theorem exists_render_eq_cons (v : Json) :
    ∃ c cs, v.render.toList = c :: cs ∧ isSpace c = false ∧ c ≠ ']' := by
  have hnumber {c : Char} (h : c = '-' ∨ isDigitOf 10 c = true) : isSpace c = false ∧ c ≠ ']' := by
    rcases h with rfl | h
    · decide
    · apply of_isDigitOf_ten h
      decide
  cases v with
  | null => exact ⟨'n', _, rfl, by decide, by decide⟩
  | bool b =>
    cases b with
    | true => exact ⟨'t', _, rfl, by decide, by decide⟩
    | false => exact ⟨'f', _, rfl, by decide, by decide⟩
  | integer i =>
    obtain ⟨c, cs, hcs, hc⟩ := exists_toString_eq_cons i
    exact ⟨c, cs, hcs, hnumber hc⟩
  | decimal m e =>
    obtain ⟨c, cs, hcs, hc⟩ := exists_toString_eq_cons m
    refine ⟨c, cs ++ ("e" ++ toString e).toList, ?_, hnumber hc⟩
    rw [render, String.append_assoc, String.toList_append, hcs, List.cons_append]
  | string s => exact ⟨'"', _, toList_renderString s, by decide, by decide⟩
  | array vs => exact ⟨'[', _, toList_render_array vs, by decide, by decide⟩
  | object ms => exact ⟨'\x7b', _, toList_render_object ms, by decide, by decide⟩

/-- So does the text of the elements of an array. -/
theorem exists_elementsText_eq_cons (v : Json) (vs : List Json) :
    ∃ c cs, elementsText (v :: vs) = c :: cs ∧ isSpace c = false ∧ c ≠ ']' := by
  obtain ⟨c, cs, hcs, hspace, hclose⟩ := exists_render_eq_cons v
  cases vs with
  | nil => exact ⟨c, cs, by rw [elementsText_singleton, hcs], hspace, hclose⟩
  | cons w ws => exact ⟨c, _, by rw [elementsText_cons_cons, hcs]; rfl, hspace, hclose⟩

/-- The text of the members of an object starts with the quote of a name. -/
theorem exists_membersText_eq_cons (m : String × Json) (ms : List (String × Json)) :
    ∃ cs, membersText (m :: ms) = '"' :: cs := by
  cases ms with
  | nil => exact ⟨_, membersText_singleton m.1 m.2⟩
  | cons n ns => exact ⟨_, membersText_cons_cons m.1 m.2 n ns⟩

/-- The value of a member is shorter than the member. -/
theorem length_render_lt_memberText (name : String) (v : Json) :
    v.render.toList.length < (memberText name v).length := by
  simp only [memberText, List.length_cons, List.length_append]
  omega

/-- A string is read back. -/
theorem readValue_string (s : String) (steps : Nat) (rest : List Char) :
    readValue (steps + 1) ((string s).render.toList ++ rest) = some (string s, rest) := by
  have hread := readString_flatMap s rest
  simp [render, toList_renderString, readValue, skipSpace, isSpace, hread]

/-- An integer is read back as a value. -/
theorem readValue_number (i : Int) (steps : Nat) {rest : List Char} (hrest : EndsNumber rest) :
    readValue (steps + 1) ((integer i).render.toList ++ rest) = some (integer i, rest) := by
  obtain ⟨c, cs, hcs, hc⟩ := exists_toString_eq_cons i
  have hread := readNumber_integer i hrest
  rw [render, hcs, List.cons_append, readValue_of_number hc, ← List.cons_append, ← hcs, hread]

/-- A decimal is read back as a value. -/
theorem readValue_decimal (m e : Int) (steps : Nat) {rest : List Char} (hrest : EndsNumber rest) :
    readValue (steps + 1) ((decimal m e).render.toList ++ rest) = some (decimal m e, rest) := by
  obtain ⟨c, cs, hcs, hc⟩ := exists_toString_eq_cons m
  have hread := readNumber_decimal m e hrest
  have htext : (decimal m e).render.toList ++ rest =
      (toString m).toList ++ 'e' :: ((toString e).toList ++ rest) := by
    rw [render, String.toList_append, String.toList_append, List.append_assoc, List.append_assoc]
    rfl
  rw [htext, hcs, List.cons_append, readValue_of_number hc, ← List.cons_append, ← hcs, hread]

/-- An array is read back if its elements are. -/
theorem readValue_array {v : Json} {vs : List Json} {steps : Nat} {rest : List Char}
    (hread : readElements steps (elementsText (v :: vs) ++ ']' :: rest) = some (v :: vs, rest)) :
    readValue (steps + 1) ((array (v :: vs)).render.toList ++ rest) =
      some (array (v :: vs), rest) := by
  obtain ⟨c, cs, hcs, hspace, hclose⟩ := exists_elementsText_eq_cons v vs
  rw [hcs] at hread
  simp only [toList_render_array, hcs, List.cons_append, List.append_assoc, List.nil_append,
    readValue, skipSpace_cons (c := '[') (by decide), skipSpace_cons hspace]
  split
  · rename_i h
    exact absurd (List.cons.inj h).1 hclose
  · rw [← List.cons_append, hread]
    rfl

/-- An object is read back if its members are. -/
theorem readValue_object {m : String × Json} {ms : List (String × Json)} {steps : Nat}
    {rest : List Char}
    (hread : readMembers steps (membersText (m :: ms) ++ '\x7d' :: rest) = some (m :: ms, rest)) :
    readValue (steps + 1) ((object (m :: ms)).render.toList ++ rest) =
      some (object (m :: ms), rest) := by
  obtain ⟨cs, hcs⟩ := exists_membersText_eq_cons m ms
  rw [hcs, List.cons_append] at hread
  simp only [toList_render_object, hcs, List.cons_append, List.append_assoc, List.nil_append,
    readValue, skipSpace_cons (c := '\x7b') (by decide), skipSpace_cons (c := '"') (by decide)]
  -- a quote is no closing brace
  show (readMembers steps ('"' :: (cs ++ '\x7d' :: rest))).map _ = _
  rw [hread]
  rfl

/-- The last element of an array, behind which the closing bracket stands. -/
theorem readElements_last {v : Json} {steps : Nat} {rest : List Char}
    (hread : readValue steps (v.render.toList ++ ']' :: rest) = some (v, ']' :: rest)) :
    readElements (steps + 1) (v.render.toList ++ ']' :: rest) = some ([v], rest) := by
  simp [readElements, skipSpace, isSpace, hread]

/-- An element of an array behind which a comma stands. -/
theorem readElements_more {v : Json} {steps : Nat} {rest : List Char}
    (hread : readValue steps (v.render.toList ++ ',' :: rest) = some (v, ',' :: rest)) :
    readElements (steps + 1) (v.render.toList ++ ',' :: rest) =
      (readElements steps rest).map fun (vs, rest) => (v :: vs, rest) := by
  simp [readElements, skipSpace, isSpace, hread]

/-- The last member of an object, behind whose value the closing brace stands. -/
theorem readMembers_last {name : String} {v : Json} {steps : Nat} {rest : List Char}
    (hread : readValue steps (v.render.toList ++ '\x7d' :: rest) = some (v, '\x7d' :: rest)) :
    readMembers (steps + 1) (memberText name v ++ '\x7d' :: rest) = some ([(name, v)], rest) := by
  have hname := readString_flatMap name (':' :: (v.render.toList ++ '\x7d' :: rest))
  simp [memberText, readMembers, skipSpace, isSpace, hname, hread]

/-- A member of an object behind whose value a comma stands. -/
theorem readMembers_more {name : String} {v : Json} {steps : Nat} {rest : List Char}
    (hread : readValue steps (v.render.toList ++ ',' :: rest) = some (v, ',' :: rest)) :
    readMembers (steps + 1) (memberText name v ++ ',' :: rest) =
      (readMembers steps rest).map fun (ms, rest) => ((name, v) :: ms, rest) := by
  have hname := readString_flatMap name (':' :: (v.render.toList ++ ',' :: rest))
  simp [memberText, readMembers, skipSpace, isSpace, hname, hread]

/-- What the readers achieve with a bound on their steps: they read back every value whose text is
not longer than the bound, and what stands between brackets if it is shorter. -/
structure ReadsBack (steps : Nat) : Prop where
  value (v : Json) (rest : List Char) (hsteps : v.render.toList.length ≤ steps)
    (hrest : EndsNumber rest) : readValue steps (v.render.toList ++ rest) = some (v, rest)
  elements (v : Json) (vs : List Json) (rest : List Char)
    (hsteps : (elementsText (v :: vs)).length < steps) :
    readElements steps (elementsText (v :: vs) ++ ']' :: rest) = some (v :: vs, rest)
  members (m : String × Json) (ms : List (String × Json)) (rest : List Char)
    (hsteps : (membersText (m :: ms)).length < steps) :
    readMembers steps (membersText (m :: ms) ++ '\x7d' :: rest) = some (m :: ms, rest)

namespace ReadsBack

variable {steps : Nat}

/-- With one more step values are read back that take so many. -/
theorem value_succ (ih : ReadsBack steps) (v : Json) (rest : List Char)
    (hsteps : v.render.toList.length ≤ steps + 1) (hrest : EndsNumber rest) :
    readValue (steps + 1) (v.render.toList ++ rest) = some (v, rest) := by
  cases v with
  | null => rfl
  | bool b => cases b <;> rfl
  | integer i => exact readValue_number i steps hrest
  | decimal m e => exact readValue_decimal m e steps hrest
  | string s => exact readValue_string s steps rest
  | array vs =>
    cases vs with
    | nil => rfl
    | cons w ws =>
      rw [toList_render_array, List.length_cons, List.length_append,
        List.length_singleton] at hsteps
      exact readValue_array (ih.elements w ws rest (by omega))
  | object ms =>
    cases ms with
    | nil => rfl
    | cons m ms =>
      rw [toList_render_object, List.length_cons, List.length_append,
        List.length_singleton] at hsteps
      exact readValue_object (ih.members m ms rest (by omega))

/-- With one more step elements are read back that take so many. -/
theorem elements_succ (ih : ReadsBack steps) (v : Json) (vs : List Json) (rest : List Char)
    (hsteps : (elementsText (v :: vs)).length < steps + 1) :
    readElements (steps + 1) (elementsText (v :: vs) ++ ']' :: rest) = some (v :: vs, rest) := by
  cases vs with
  | nil =>
    rw [elementsText_singleton] at hsteps ⊢
    exact readElements_last (ih.value v _ (by omega) (endsNumber_cons (by decide)))
  | cons w ws =>
    rw [elementsText_cons_cons] at hsteps ⊢
    rw [List.length_append, List.length_cons] at hsteps
    have hread := ih.value v (',' :: (elementsText (w :: ws) ++ ']' :: rest)) (by omega)
      (endsNumber_cons (by decide))
    have hmore := ih.elements w ws rest (by omega)
    rw [List.append_assoc, List.cons_append, readElements_more hread, hmore]
    rfl

/-- With one more step members are read back that take so many. -/
theorem members_succ (ih : ReadsBack steps) (m : String × Json) (ms : List (String × Json))
    (rest : List Char) (hsteps : (membersText (m :: ms)).length < steps + 1) :
    readMembers (steps + 1) (membersText (m :: ms) ++ '\x7d' :: rest) = some (m :: ms, rest) := by
  obtain ⟨name, v⟩ := m
  have hvalue : v.render.toList.length < (memberText name v).length :=
    length_render_lt_memberText name v
  cases ms with
  | nil =>
    rw [membersText_singleton] at hsteps ⊢
    exact readMembers_last (ih.value v _ (by omega) (endsNumber_cons (by decide)))
  | cons m ms =>
    rw [membersText_cons_cons] at hsteps ⊢
    rw [List.length_append, List.length_cons] at hsteps
    have hread := ih.value v (',' :: (membersText (m :: ms) ++ '\x7d' :: rest)) (by omega)
      (endsNumber_cons (by decide))
    have hmore := ih.members m ms rest (by omega)
    rw [List.append_assoc, List.cons_append, readMembers_more hread, hmore]
    rfl

end ReadsBack

/-- What takes no more than the given steps is read back. -/
theorem readsBack (steps : Nat) : ReadsBack steps := by
  -- each bracket, and each element or member behind another, costs one step and one character
  induction steps with
  | zero =>
    refine ⟨fun v rest hsteps _ => ?_, fun _ _ _ h => absurd h (Nat.not_lt_zero _),
      fun _ _ _ h => absurd h (Nat.not_lt_zero _)⟩
    obtain ⟨c, cs, hcs, -, -⟩ := exists_render_eq_cons v
    rw [hcs, List.length_cons] at hsteps
    omega
  | succ steps ih => exact ⟨ih.value_succ, ih.elements_succ, ih.members_succ⟩

/-- What is written is read back. -/
theorem read?_render (v : Json) : read? v.render = some v := by
  have hread := (readsBack (v.render.toList.length + 1)).value v [] (by omega) endsNumber_nil
  rw [List.append_nil] at hread
  simp [read?, hread, skipSpace]

/-! ## Lines -/

/-- A text without control characters, so that it is one line. -/
def Inline (cs : List Char) : Prop := ∀ c ∈ cs, 0x20 ≤ c.toNat

instance (cs : List Char) : Decidable (Inline cs) :=
  List.decidableBAll (fun c : Char => 0x20 ≤ c.toNat) cs

/-- Nothing holds no control characters. -/
theorem inline_nil : Inline [] := fun _ h => nomatch h

/-- A character that is no control character adds none. -/
theorem inline_cons {c : Char} {cs : List Char} (hc : 0x20 ≤ c.toNat) (hcs : Inline cs) :
    Inline (c :: cs) :=
  List.forall_mem_cons.mpr ⟨hc, hcs⟩

/-- Two texts without control characters hold none together. -/
theorem inline_append {xs ys : List Char} (hxs : Inline xs) (hys : Inline ys) :
    Inline (xs ++ ys) := by
  intro c hc
  rcases List.mem_append.mp hc with hc | hc
  · exact hxs c hc
  · exact hys c hc

/-- The digits of a number are no control characters. -/
theorem inline_toDigits (n : Nat) : Inline (Nat.toDigits 10 n) := by
  intro c hc
  apply of_isDigitOf_ten (isDigitOf_of_mem_toDigits (by decide) (by decide) hc)
  decide

/-- An integer is written without control characters. -/
theorem inline_toString (i : Int) : Inline (toString i).toList := by
  rw [toList_toString_int]
  refine inline_append ?_ (inline_toDigits i.natAbs)
  split
  · decide
  · exact inline_nil

/-- The spelling of a control character holds none. -/
theorem inline_hexPadded_control : ∀ n < 0x20, Inline (hexPadded 4 n).toList := by
  decide

/-- The escapes of the writer leave no control character. -/
theorem inline_escapedChar (c : Char) : Inline (escapedChar c) := by
  unfold escapedChar
  split
  · rename_i hspecial
    rcases hspecial with rfl | rfl <;> decide
  · split
    · rename_i letter hshort
      obtain ⟨-, hletter, -⟩ := unescaped?_of_shortEscape? hshort
      exact inline_cons (by decide) (inline_cons hletter inline_nil)
    · split
      · rename_i hcontrol
        have hdigits := inline_hexPadded_control c.toNat hcontrol
        exact inline_cons (by decide) (inline_cons (by decide) hdigits)
      · rename_i hcontrol
        exact inline_cons (Nat.le_of_not_lt hcontrol) inline_nil

/-- A string is written without control characters. -/
theorem inline_renderString (s : String) : Inline (renderString s).toList := by
  rw [toList_renderString]
  refine inline_cons (by decide) (inline_append ?_ (by decide))
  intro c hc
  obtain ⟨d, -, hd⟩ := List.mem_flatMap.mp hc
  exact inline_escapedChar d c hd

/-- Texts without control characters, put together with a separator without any, hold none. -/
theorem inline_intercalate {separator : List Char} {parts : List (List Char)}
    (hseparator : Inline separator) (hparts : ∀ part ∈ parts, Inline part) :
    Inline (separator.intercalate parts) := by
  induction parts with
  | nil => exact inline_nil
  | cons part parts ih =>
    obtain ⟨hpart, hparts⟩ := List.forall_mem_cons.mp hparts
    cases parts with
    | nil => simpa using hpart
    | cons next parts =>
      rw [List.intercalate_cons_cons]
      exact inline_append (inline_append hpart hseparator) (ih hparts)

/-- Texts without control characters hold none in brackets. -/
theorem inline_bracketed {opening closing : String} {parts : List String}
    (hopening : Inline opening.toList) (hclosing : Inline closing.toList)
    (hparts : ∀ part ∈ parts, Inline part.toList) :
    Inline (bracketed opening closing parts).toList := by
  rw [bracketed, String.toList_append, String.toList_append, String.toList_intercalate]
  refine inline_append (inline_append hopening ?_) hclosing
  exact inline_intercalate (by decide) (by simpa using hparts)

mutual
/-- A written value holds no control character. -/
theorem inline_render (v : Json) : Inline v.render.toList := by
  cases v with
  | null => decide
  | bool b => cases b <;> decide
  | integer i => exact inline_toString i
  | decimal m e =>
    rw [render, String.toList_append, String.toList_append]
    exact inline_append (inline_append (inline_toString m) (by decide)) (inline_toString e)
  | string s => exact inline_renderString s
  | array vs =>
    exact inline_bracketed (by decide) (by decide) (inline_renderElements vs)
  | object ms =>
    exact inline_bracketed (by decide) (by decide) (inline_renderMembers ms)

/-- The elements of an array are written without control characters. -/
theorem inline_renderElements (vs : List Json) :
    ∀ part ∈ renderElements vs, Inline part.toList := by
  cases vs with
  | nil => exact fun _ h => nomatch h
  | cons v vs =>
    intro part hpart
    rcases List.mem_cons.mp hpart with rfl | hpart
    · exact inline_render v
    · exact inline_renderElements vs part hpart

/-- The members of an object are written without control characters. -/
theorem inline_renderMembers (ms : List (String × Json)) :
    ∀ part ∈ renderMembers ms, Inline part.toList := by
  match ms with
  | [] => exact fun _ h => nomatch h
  | (name, v) :: ms =>
    intro part hpart
    rcases List.mem_cons.mp hpart with rfl | hpart
    · rw [String.toList_append, String.toList_append]
      exact inline_append (inline_append (inline_renderString name) (by decide))
        (inline_render v)
    · exact inline_renderMembers ms part hpart
end

end ScriptAudit.Json
