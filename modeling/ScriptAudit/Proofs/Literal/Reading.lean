import Mathlib.Data.Nat.Digits.Lemmas
import ScriptAudit.Literal.Text
import ScriptAudit.Proofs.Literal.Grammar
import ScriptAudit.Proofs.Text.Utf16

/-!
# Literals are read as the grammar means them

The reader of a literal knows no elements: it looks for a backslash, tries the kinds of escapes one
after the other, and takes as many characters as the first kind that fits. For every literal of the
grammar that gives back the units of its elements.

The ladder has three rungs. Behind a backslash the reader takes exactly the spelling of the escape,
whatever text follows it. So it reads one element and is then at the next; and by induction it reads
all of them. Only at the end are the units put together to characters, so halves from two escapes
still find each other.
-/

set_option autoImplicit false

namespace ScriptAudit.Literal

open ScriptAudit.Text

/-! ## Digits -/

/-- A hexadecimal digit is written with a character of its value. -/
theorem HexDigit.digitValue_char (d : HexDigit) : digitValue? d.char = some d.value.val := by
  obtain ⟨v, capital⟩ := d
  revert v capital
  decide

/-- An octal digit is written with a character of its value. -/
theorem OctalDigit.digitValue_char (d : OctalDigit) : digitValue? d.char = some d.val := by
  revert d
  decide

/-- A hexadecimal digit is a digit of base sixteen. -/
theorem HexDigit.isDigitOf_char (d : HexDigit) : isDigitOf 16 d.char = true := by
  rw [isDigitOf, d.digitValue_char]
  exact decide_eq_true d.value.isLt

/-- An octal digit is one of every base above its value. -/
theorem OctalDigit.isDigitOf_char (d : OctalDigit) (base : ℕ) :
    isDigitOf base d.char = decide (d.val < base) := by
  rw [isDigitOf, d.digitValue_char]

/-- Digits that are read from the left give the number they spell. -/
theorem ofDigits_map {δ : Type} (char : δ → Char) (value : δ → ℕ)
    (h : ∀ d, digitValue? (char d) = some (value d)) (base : ℕ) (ds : List δ) :
    ofDigits base (ds.map char) = Nat.ofDigits base (ds.map value).reverse := by
  have hfold (n : ℕ) : (ds.map char).foldl (fun n c => n * base + (digitValue? c).getD 0) n =
      (ds.map value).foldl (fun n v => v + base * n) n := by
    induction ds generalizing n with
    | nil => rfl
    | cons d ds ih =>
      rw [List.map_cons, List.foldl_cons, List.map_cons, List.foldl_cons, h, ih, Option.getD_some,
        Nat.mul_comm, Nat.add_comm]
  rw [ofDigits, hfold, Nat.ofDigits_eq_foldr, List.foldr_reverse]
  rfl

/-- A number is bounded by the count of its digits. -/
theorem ofDigits_map_lt {δ : Type} (value : δ → ℕ) {base : ℕ} (hbase : 1 < base)
    (h : ∀ d, value d < base) (ds : List δ) :
    Nat.ofDigits base (ds.map value).reverse < base ^ ds.length := by
  have hlt := Nat.ofDigits_lt_base_pow_length (l := (ds.map value).reverse) hbase fun v hv => by
    obtain ⟨d, -, rfl⟩ := List.mem_map.mp (List.mem_reverse.mp hv)
    exact h d
  rwa [List.length_reverse, List.length_map] at hlt

/-- The characters of hexadecimal digits spell their number. -/
theorem HexDigit.ofDigits_chars (ds : List HexDigit) :
    ofDigits 16 (ds.map HexDigit.char) = HexDigit.number ds :=
  ofDigits_map _ _ digitValue_char 16 ds

/-- The characters of octal digits spell their number. -/
theorem OctalDigit.ofDigits_chars (ds : List OctalDigit) :
    ofDigits 8 (ds.map OctalDigit.char) = OctalDigit.number ds :=
  ofDigits_map _ _ digitValue_char 8 ds

/-- A number of sixteen bits is a unit by itself. -/
theorem unitsOf_of_lt {n : ℕ} (h : n < 0x10000) : Utf16.unitsOf n = [UInt16.ofNat n] :=
  if_pos h

/-- Up to four hexadecimal digits spell one code unit. -/
theorem HexDigit.unitsOf_number {ds : List HexDigit} (h : ds.length ≤ 4) :
    Utf16.unitsOf (HexDigit.number ds) = [UInt16.ofNat (HexDigit.number ds)] := by
  apply unitsOf_of_lt
  calc
    HexDigit.number ds < 16 ^ ds.length :=
      ofDigits_map_lt _ (by decide) (fun d : HexDigit => d.value.isLt) ds
    _ ≤ 16 ^ 4 := Nat.pow_le_pow_right (by decide) h

/-- Up to three octal digits spell one code unit. -/
theorem OctalDigit.unitsOf_number {ds : List OctalDigit} (h : ds.length ≤ 3) :
    Utf16.unitsOf (OctalDigit.number ds) = [UInt16.ofNat (OctalDigit.number ds)] := by
  apply unitsOf_of_lt
  calc
    OctalDigit.number ds < 8 ^ ds.length := ofDigits_map_lt _ (by decide) Fin.isLt ds
    _ ≤ 8 ^ 3 := Nat.pow_le_pow_right (by decide) h
    _ < 0x10000 := by decide

/-- Hexadecimal digits are taken before what follows them. -/
theorem HexDigit.takeWhile_chars (ds : List HexDigit) (t : List Char) :
    (ds.map HexDigit.char ++ t).takeWhile (isDigitOf 16) =
      ds.map HexDigit.char ++ t.takeWhile (isDigitOf 16) := by
  apply List.takeWhile_append_of_pos
  intro c hc
  obtain ⟨d, -, rfl⟩ := List.mem_map.mp hc
  exact d.isDigitOf_char

/-! ## One escape -/

/-- Without a brace there are no digits in braces. -/
theorem bracedDigits_of_ne {c : Char} (h : c ≠ '\x7b') (rest : List Char) :
    bracedDigits? ('u' :: c :: rest) = none := by
  unfold bracedDigits?
  split
  · rename_i heq
    simp only [List.cons.injEq] at heq
    exact absurd heq.2.1 h
  · rfl

/-- Without the letter for units there are no digits in braces. -/
theorem bracedDigits_of_letter_ne {c : Char} (h : c ≠ 'u') (rest : List Char) :
    bracedDigits? (c :: rest) = none := by
  unfold bracedDigits?
  split
  · rename_i heq
    exact absurd (List.cons.inj heq).1 h
  · rfl

/-- Digits in braces are taken up to the closing brace. -/
theorem bracedDigits_chars {ds : List HexDigit} (hne : ds ≠ []) (t : List Char) :
    bracedDigits? ('u' :: '\x7b' :: (ds.map HexDigit.char ++ '\x7d' :: t)) =
      some (ds.map HexDigit.char) := by
  have htake : (ds.map HexDigit.char ++ '\x7d' :: t).takeWhile (isDigitOf 16) =
      ds.map HexDigit.char := by
    rw [HexDigit.takeWhile_chars, List.takeWhile_cons_of_neg (by decide), List.append_nil]
  rw [bracedDigits?]
  simp only [htake, List.drop_left]
  exact if_pos ⟨by simpa using hne, rfl⟩

/-- A fixed number of digits after the right letter are taken. -/
theorem fixedDigits_chars (letter : Char) (ds : List HexDigit) (t : List Char) :
    fixedDigits? letter ds.length (letter :: (ds.map HexDigit.char ++ t)) =
      some (ds.map HexDigit.char) := by
  have htake : ((ds.map HexDigit.char ++ t).take ds.length).takeWhile (isDigitOf 16) =
      ds.map HexDigit.char := by
    have hall := HexDigit.takeWhile_chars ds []
    rw [List.append_nil, List.takeWhile_nil, List.append_nil] at hall
    rw [List.take_left' (by simp), hall]
  rw [fixedDigits?]
  simp only [htake]
  exact if_pos ⟨trivial, by simp⟩

/-- Without its letter there is no escape with a fixed number of digits. -/
theorem fixedDigits_of_ne {letter c : Char} (h : c ≠ letter) (count : ℕ) (rest : List Char) :
    fixedDigits? letter count (c :: rest) = none :=
  if_neg fun hboth => h hboth.1

/-- An escape with four digits is read as its units. -/
theorem escape_unicode (d₁ d₂ d₃ d₄ : HexDigit) (t : List Char) :
    escape ((Escape.unicode d₁ d₂ d₃ d₄).spelling ++ t) =
      ((Escape.unicode d₁ d₂ d₃ d₄).units, 5) := by
  have hbrace : d₁.char ≠ '\x7b' := by
    intro h
    have hdigit := d₁.isDigitOf_char
    rw [h] at hdigit
    revert hdigit
    decide
  have hbraced : bracedDigits? ((Escape.unicode d₁ d₂ d₃ d₄).spelling ++ t) = none :=
    bracedDigits_of_ne hbrace _
  have hfixed : fixedDigits? 'u' 4 ((Escape.unicode d₁ d₂ d₃ d₄).spelling ++ t) =
      some ([d₁, d₂, d₃, d₄].map HexDigit.char) := fixedDigits_chars 'u' [d₁, d₂, d₃, d₄] t
  rw [escape.eq_def, hbraced]
  simp only [hfixed]
  rw [HexDigit.ofDigits_chars, HexDigit.unitsOf_number (by simp)]
  rfl

/-- An escape with digits in braces is read as its units. -/
theorem escape_codePoint (ds : List HexDigit) (hne : ds ≠ [])
    (hpoint : HexDigit.number ds ≤ 0x10FFFF) (t : List Char) :
    escape ((Escape.codePoint ds hne hpoint).spelling ++ t) =
      ((Escape.codePoint ds hne hpoint).units,
        (Escape.codePoint ds hne hpoint).spelling.length) := by
  have hspelling : (Escape.codePoint ds hne hpoint).spelling ++ t =
      'u' :: '\x7b' :: (ds.map HexDigit.char ++ '\x7d' :: t) := by
    simp [Escape.spelling]
  rw [hspelling, escape.eq_def, bracedDigits_chars hne]
  simp only [HexDigit.ofDigits_chars, if_pos hpoint]
  rfl

/-- An escape with two digits is read as its units. -/
theorem escape_hex (d₁ d₂ : HexDigit) (t : List Char) :
    escape ((Escape.hex d₁ d₂).spelling ++ t) = ((Escape.hex d₁ d₂).units, 3) := by
  have hbraced : bracedDigits? ((Escape.hex d₁ d₂).spelling ++ t) = none :=
    bracedDigits_of_letter_ne (by decide) _
  have hunicode : fixedDigits? 'u' 4 ((Escape.hex d₁ d₂).spelling ++ t) = none :=
    fixedDigits_of_ne (by decide) 4 _
  have hfixed : fixedDigits? 'x' 2 ((Escape.hex d₁ d₂).spelling ++ t) =
      some ([d₁, d₂].map HexDigit.char) := fixedDigits_chars 'x' [d₁, d₂] t
  rw [escape.eq_def, hbraced]
  simp only [hunicode, hfixed]
  rw [HexDigit.ofDigits_chars, HexDigit.unitsOf_number (by simp)]
  rfl

/-- Behind any other letter octal digits come first. -/
theorem escape_of_octalDigits {c d : Char} {rest ds : List Char} (hu : c ≠ 'u') (hx : c ≠ 'x')
    (hoctal : octalDigits (c :: rest) = d :: ds) :
    escape (c :: rest) = (Utf16.unitsOf (ofDigits 8 (d :: ds)), (d :: ds).length) := by
  rw [escape.eq_def, bracedDigits_of_letter_ne hu]
  simp only [fixedDigits_of_ne hu, fixedDigits_of_ne hx, hoctal]
  rfl

/-- A character that is no digit is looked at by itself, unless two of them end a line. -/
theorem escape_of_char {c : Char} (hu : c ≠ 'u') (hx : c ≠ 'x') (hdigit : isDigitOf 8 c = false)
    {rest : List Char} (hline : c = '\r' → rest.head? ≠ some '\n') :
    escape (c :: rest) =
      if isLineEnd c then ([], 1) else (Utf16.encode [(letterEscape? c).getD c], 1) := by
  have hoctal : octalDigits (c :: rest) = [] := by
    rw [octalDigits, List.takeWhile_cons_of_neg (by simp [hdigit])]
    exact List.take_nil
  rw [escape.eq_def, bracedDigits_of_letter_ne hu]
  simp only [fixedDigits_of_ne hu, fixedDigits_of_ne hx, hoctal]
  split
  · rename_i rest' heq
    obtain ⟨rfl, rfl⟩ := List.cons.inj heq
    exact absurd rfl (hline rfl)
  · rename_i heq
    obtain ⟨rfl, rfl⟩ := List.cons.inj heq
    rfl
  · rename_i heq
    cases heq

/-- The octal digits are eight characters. -/
theorem mem_octal_of_isDigitOf {c : Char} (h : isDigitOf 8 c = true) : c ∈ "01234567".toList := by
  have hrange : 0x30 ≤ c.toNat ∧ c.toNat < 0x38 := by
    unfold isDigitOf digitValue? at h
    split_ifs at h with hdecimal hsmall hcapital
    · have hlow : 0x30 ≤ c.toNat := hdecimal.1
      have hvalue : c.toNat - 0x30 < 8 := of_decide_eq_true h
      omega
    -- letters count from ten
    · have hvalue : c.toNat - 'a'.toNat + 10 < 8 := of_decide_eq_true h
      omega
    · have hvalue : c.toNat - 'A'.toNat + 10 < 8 := of_decide_eq_true h
      omega
  have hcodes : ∀ n < 0x38, 0x30 ≤ n → Char.ofNat n ∈ "01234567".toList := by decide
  rw [← Char.ofNat_toNat c]
  exact hcodes c.toNat hrange.2 hrange.1

/-- A list that holds the octal digits holds each of them. -/
theorem mem_of_mem_octal {cs : List Char} (h : "01234567".toList.all cs.contains = true) {c : Char}
    (hc : c ∈ "01234567".toList) : c ∈ cs :=
  List.contains_iff_mem.mp (List.all_eq_true.mp h c hc)

/-- No octal digit follows where none is allowed. -/
theorem takeWhile_octal_of_next {q : Quote} {t : List Char}
    (h : Element.next q t ∉ "01234567".toList) : t.takeWhile (isDigitOf 8) = [] := by
  cases t with
  | nil => rfl
  | cons c t => exact List.takeWhile_cons_of_neg fun hc => h (mem_octal_of_isDigitOf hc)

/-- The reader takes the digits of an octal escape and no more. -/
theorem octalDigits_chars {q : Quote} {t : List Char} (e : OctalEscape)
    (h : e.Allows (Element.next q t)) :
    octalDigits (e.digits.map OctalDigit.char ++ t) = e.digits.map OctalDigit.char := by
  have hoctal (d : OctalDigit) : isDigitOf 8 d.char = true :=
    (d.isDigitOf_char 8).trans (decide_eq_true d.isLt)
  have hfour (d : OctalDigit) : isDigitOf 4 d.char = decide (d.val < 4) := d.isDigitOf_char 4
  -- an escape of one digit, or of two that could be three, ends where the digits do
  have hone (d : OctalDigit) (hstop : t.takeWhile (isDigitOf 8) = []) :
      octalDigits (d.char :: t) = [d.char] := by
    rw [octalDigits, List.takeWhile_cons_of_pos (hoctal d), hstop]
    split <;> rfl
  cases e with
  | null =>
    refine hone 0 (takeWhile_octal_of_next (q := q) ?_)
    intro hmem
    exact h (mem_of_mem_octal (by decide) hmem)
  | zero =>
    refine hone 0 (takeWhile_octal_of_next (q := q) ?_)
    rcases h with h | h <;> rw [h] <;> decide
  | one d hd => exact hone d (takeWhile_octal_of_next h)
  | lowPair d₁ d₂ hd =>
    have hstop := takeWhile_octal_of_next h
    show octalDigits (d₁.char :: d₂.char :: t) = _
    rw [octalDigits, List.takeWhile_cons_of_pos (hoctal d₁), List.takeWhile_cons_of_pos (hoctal d₂),
      hstop, hfour, if_pos (decide_eq_true (by omega))]
    rfl
  | highPair d₁ d₂ hd =>
    show octalDigits (d₁.char :: d₂.char :: t) = _
    rw [octalDigits, List.takeWhile_cons_of_pos (hoctal d₁), List.takeWhile_cons_of_pos (hoctal d₂),
      hfour, if_neg (by simpa using hd)]
    rfl
  | triple d₁ d₂ d₃ hd =>
    show octalDigits (d₁.char :: d₂.char :: d₃.char :: t) = _
    rw [octalDigits, List.takeWhile_cons_of_pos (hoctal d₁), List.takeWhile_cons_of_pos (hoctal d₂),
      List.takeWhile_cons_of_pos (hoctal d₃), hfour, if_pos (decide_eq_true (by omega))]
    rfl

/-- An octal escape that what follows allows is read as its unit. -/
theorem escape_octal {q : Quote} {t : List Char} (e : OctalEscape)
    (h : e.Allows (Element.next q t)) :
    escape ((Escape.octal e).spelling ++ t) =
      ((Escape.octal e).units, (Escape.octal e).spelling.length) := by
  have hletters : ∀ d : OctalDigit, d.char ≠ 'u' ∧ d.char ≠ 'x' := by decide
  have hlength : e.digits ≠ [] ∧ e.digits.length ≤ 3 := by
    cases e <;> simp [OctalEscape.digits]
  have hunits : (Escape.octal e).units =
      Utf16.unitsOf (ofDigits 8 (e.digits.map OctalDigit.char)) := by
    rw [OctalDigit.ofDigits_chars, OctalDigit.unitsOf_number hlength.2]
    rfl
  have hdigits := octalDigits_chars e h
  rw [hunits]
  show escape (e.digits.map OctalDigit.char ++ t) = (_, (e.digits.map OctalDigit.char).length)
  obtain ⟨d, ds, hcons⟩ := List.exists_cons_of_ne_nil hlength.1
  rw [hcons] at hdigits ⊢
  exact escape_of_octalDigits (hletters d).1 (hletters d).2 hdigits

/-- A character that stands for itself behind a backslash. -/
theorem escape_identity (c : Char) (hc : c ∉ reserved) (t : List Char) :
    escape (c :: t) = (Utf16.encode [c], 1) := by
  have hne (d : Char) (hd : d ∈ reserved) : c ≠ d := fun h => hc (h ▸ hd)
  have hdigit : isDigitOf 8 c = false := by
    rw [Bool.eq_false_iff]
    intro h
    exact hc (mem_of_mem_octal (by decide) (mem_octal_of_isDigitOf h))
  have hend : isLineEnd c = false := by
    simp [isLineEnd, hne '\n' (by decide), hne '\r' (by decide), hne '\u2028' (by decide),
      hne '\u2029' (by decide)]
  have hletter : letterEscape? c = none := by
    unfold letterEscape?
    split <;> first | rfl | exact absurd rfl (hne _ (by decide))
  rw [escape_of_char (hne 'u' (by decide)) (hne 'x' (by decide)) hdigit
    fun h => absurd h (hne '\r' (by decide)), hend, hletter]
  rfl

/-- The end of a line. A single return is not followed by a line feed. -/
theorem escape_lineContinuation (e : LineEnd) {t : List Char} (hline : t.head? ≠ some '\n') :
    escape (e.spelling ++ t) = ([], e.spelling.length) := by
  cases e with
  | carriageReturn => exact escape_of_char (by decide) (by decide) (by decide) fun _ => hline
  | _ => rfl

/-- Behind a backslash the reader takes exactly the spelling of an escape, and finds its units. -/
theorem escape_spelling {q : Quote} {t : List Char} (e : Escape) (h : e.Allows (Element.next q t))
    (hline : t.head? ≠ some '\n') :
    escape (e.spelling ++ t) = (e.units, e.spelling.length) := by
  cases e with
  | unicode d₁ d₂ d₃ d₄ => exact escape_unicode d₁ d₂ d₃ d₄ t
  | codePoint ds hne hpoint => exact escape_codePoint ds hne hpoint t
  | hex d₁ d₂ => exact escape_hex d₁ d₂ t
  | octal e => exact escape_octal e h
  | decimal c hc => rcases hc with rfl | rfl <;> rfl
  | single e => cases e <;> rfl
  | identity c hc => exact escape_identity c hc t
  | lineContinuation e => exact escape_lineContinuation e hline

/-! ## All elements -/

/-- An escape has at least one character behind its backslash. -/
theorem Escape.exists_spelling_eq_cons (e : Escape) : ∃ c v, e.spelling = c :: v := by
  apply List.exists_cons_of_ne_nil
  cases e with
  | octal e => cases e <;> exact List.cons_ne_nil _ _
  | lineContinuation e => cases e <;> exact List.cons_ne_nil _ _
  | _ => exact List.cons_ne_nil _ _

/-- No element begins with a line feed. -/
theorem head_spelling_ne {q : Quote} (es : List (Element q)) :
    (es.flatMap Element.spelling).head? ≠ some '\n' := by
  cases es with
  | nil => exact Option.some_ne_none _ |>.symm
  | cons e es =>
    rw [List.flatMap_cons]
    cases e with
    | plain c hc => exact fun h => hc.2.2.1 (Option.some.inj h)
    | escape e => exact fun h => absurd (Option.some.inj h) (by decide)

/-- The reader reads one element and is then at the text behind it. -/
theorem units_spelling_append {q : Quote} {t : List Char} (e : Element q)
    (h : e.Allows (Element.next q t)) (hline : t.head? ≠ some '\n') :
    units (e.spelling ++ t) = e.units ++ units t := by
  cases e with
  | plain c hc =>
    exact units.eq_4 c t (fun hslash _ => hc.2.1 hslash) fun _ _ hslash _ => hc.2.1 hslash
  | escape e =>
    have hescape := escape_spelling e h hline
    obtain ⟨c, v, hcons⟩ := e.exists_spelling_eq_cons
    show units ('\\' :: (e.spelling ++ t)) = e.units ++ units t
    rw [hcons] at hescape ⊢
    rw [List.cons_append] at hescape ⊢
    rw [units.eq_3, hescape]
    show e.units ++ units (((c :: v) ++ t).drop (c :: v).length) = e.units ++ units t
    rw [List.drop_left]

/-- The reader finds the units of all elements. -/
theorem units_flatMap_spelling {q : Quote} (es : List (Element q)) (h : Element.WellFormed es) :
    units (es.flatMap Element.spelling) = es.flatMap Element.units := by
  induction es with
  | nil => exact units.eq_1
  | cons e es ih =>
    rw [List.flatMap_cons, List.flatMap_cons, units_spelling_append e h.1 (head_spelling_ne es),
      ih h.2]

/-- The quotes of a literal go, and nothing else. -/
theorem body_literal (q : Quote) (cs : List Char) : body (q.char :: (cs ++ [q.char])) = cs := by
  have hquote : q.char = '\'' ∨ q.char = '"' := by
    cases q
    · exact Or.inl rfl
    · exact Or.inr rfl
  obtain ⟨c, rest, hcons⟩ := List.exists_cons_of_ne_nil (List.append_ne_nil_of_right_ne_nil cs
    (List.cons_ne_nil q.char []))
  have hlast : (c :: rest).getLast? = some q.char := by
    rw [← hcons, List.getLast?_concat]
  rw [hcons, body, if_pos ⟨hquote, hlast⟩, ← hcons, List.dropLast_concat]

/-- The value of a literal is the text that the units of its elements read as, and no other. So a
text comes back unchanged from every literal whose elements stand for it, however its characters are
escaped. -/
theorem textValue_eq_iff_reads (q : Quote) (es : List (Element q)) (h : Element.WellFormed es) :
    (∀ s : String, textValue (Element.literal q es) = s ↔
      Utf16.Reads (es.flatMap Element.units) s.toList) ∧
    ∀ s : String, es.flatMap Element.units = Utf16.encode s.toList →
      textValue (Element.literal q es) = s := by
  have hvalue : textValue (Element.literal q es) =
      String.ofList (Utf16.decode (es.flatMap Element.units)) := by
    rw [textValue, Element.literal, String.toList_ofList, body_literal, units_flatMap_spelling es h]
  have hreads (s : String) : textValue (Element.literal q es) = s ↔
      Utf16.Reads (es.flatMap Element.units) s.toList := by
    rw [hvalue, Utf16.reads_iff_decode, ← String.toList_inj, String.toList_ofList]
  refine ⟨hreads, ?_⟩
  intro s hs
  rw [hreads, hs]
  exact Utf16.reads_encode s.toList

/-- A literal with two halves of a pair in two escapes, an octal escape before a digit it must not
take, and a line that goes on. -/
def mixedElements : List (Element .double) :=
  [.escape (.unicode ⟨13, true⟩ ⟨8, true⟩ ⟨3, true⟩ ⟨13, true⟩),
    .escape (.unicode ⟨13, false⟩ ⟨14, false⟩ ⟨0, false⟩ ⟨0, false⟩),
    .escape (.lineContinuation .carriageReturnLineFeed), .escape (.octal .zero),
    .plain '8' (by decide)]

/-- The halves are joined, and the digit is read as it is. -/
theorem textValue_mixedElements :
    Element.WellFormed mixedElements ∧
    Element.literal .double mixedElements = "\"\\uD83D\\ude00\\\r\n\\08\"" ∧
    textValue "\"\\uD83D\\ude00\\\r\n\\08\"" = "😀\x008" := by
  have hwell : Element.WellFormed mixedElements := by
    simp [mixedElements, Element.WellFormed, Element.Allows, Escape.Allows, OctalEscape.Allows,
      Element.next, Element.spelling]
  have hliteral : Element.literal .double mixedElements = "\"\\uD83D\\ude00\\\r\n\\08\"" := by
    decide
  refine ⟨hwell, hliteral, ?_⟩
  rw [← hliteral]
  exact (textValue_eq_iff_reads .double mixedElements hwell).2 _ (by decide)

end ScriptAudit.Literal
