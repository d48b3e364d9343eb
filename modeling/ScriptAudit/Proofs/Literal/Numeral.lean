import ScriptAudit.Node.Adapt
import ScriptAudit.Proofs.Literal.Reading

/-!
# Integer literals

An integer literal is a numeral, with or without the suffix of a big integer. A numeral is decimal,
or it has a base mark of either case behind a zero. Single separators may stand between its digits.
A decimal numeral starts with a zero only if it has no other digit. `IntegerLiteral.text` is how a
literal is written and `IntegerLiteral.number` is what it denotes, whatever the reader makes of it.

Whole numbers are read from decimal numerals up to a length only, so the bound belongs to the type.
Numerals with a base mark have no bound, and they denote every number.

The reader drops separators and suffix, and then blanks and signs, of which a numeral has none. What
is left is `Numeral.plain`, and its digits are read to the number it denotes.
-/

set_option autoImplicit false

namespace ScriptAudit.Literal

open ScriptAudit.Text

/-- A digit of a base: a hexadecimal digit whose value is below the base. -/
abbrev Digit (base : ℕ) := { d : HexDigit // d.value.val < base }

namespace Digit

variable {base : ℕ}

/-- The character of a digit. -/
def char (d : Digit base) : Char := d.1.char

/-- The value of a digit. -/
def value (d : Digit base) : ℕ := d.1.value.val

end Digit

/-- Digits of a base. Behind the first, a flag with each digit says whether a separator stands in
front of it. -/
structure Digits (base : ℕ) where
  first : Digit base
  rest : List (Bool × Digit base)

namespace Digits

variable {base : ℕ}

/-- The digits without their separators. -/
def all (ds : Digits base) : List (Digit base) := ds.first :: ds.rest.map Prod.snd

/-- The digits with their separators. -/
def spelling (ds : Digits base) : List Char :=
  ds.first.char ::
    ds.rest.flatMap fun (separated, d) => if separated then ['_', d.char] else [d.char]

/-- The number that digits spell, the most significant first. -/
def number (ds : Digits base) : ℕ := Nat.ofDigits base (ds.all.map Digit.value).reverse

end Digits

/-- The bases that have a mark. -/
inductive Radix where
  | binary
  | octal
  | hexadecimal
  deriving DecidableEq

namespace Radix

/-- The base that a mark stands for. -/
def base : Radix → ℕ
  | binary => 2
  | octal => 8
  | hexadecimal => 16

/-- The letter behind the zero, small or capital. -/
def mark : Radix → Bool → Char
  | binary, capital => if capital then 'B' else 'b'
  | octal, capital => if capital then 'O' else 'o'
  | hexadecimal, capital => if capital then 'X' else 'x'

end Radix

/-- A numeral, by its productions. -/
inductive Numeral where
  | decimal (ds : Digits 10) (hzero : ds.first.value = 0 → ds.rest = [])
      (hlength : ds.all.length ≤ 4300)
  | marked (radix : Radix) (capital : Bool) (ds : Digits radix.base)

namespace Numeral

/-- The characters of a numeral. -/
def spelling : Numeral → List Char
  | decimal ds _ _ => ds.spelling
  | marked radix capital ds => '0' :: radix.mark capital :: ds.spelling

/-- The number that a numeral stands for. -/
def number : Numeral → ℕ
  | decimal ds _ _ => ds.number
  | marked _ _ ds => ds.number

end Numeral

/-- An integer literal: a numeral, and whether it has the suffix of a big integer. -/
structure IntegerLiteral where
  numeral : Numeral
  big : Bool

namespace IntegerLiteral

/-- The text of a literal. -/
def text (l : IntegerLiteral) : String :=
  String.ofList (l.numeral.spelling ++ if l.big then ['n'] else [])

/-- The number that a literal stands for. -/
def number (l : IntegerLiteral) : ℕ := l.numeral.number

end IntegerLiteral

/-! ## Every number has a numeral with a mark -/

/-- Any values below the base are those of some digits. -/
theorem Digits.exists_all_map_value {base : ℕ} (hbase : base ≤ 16) {vs : List ℕ} (hne : vs ≠ [])
    (hvs : ∀ v ∈ vs, v < base) : ∃ ds : Digits base, ds.all.map Digit.value = vs := by
  let digit (v : ℕ) (hv : v < base) : Digit base := ⟨⟨⟨v, hv.trans_le hbase⟩, false⟩, hv⟩
  obtain ⟨v, vs, rfl⟩ := List.exists_cons_of_ne_nil hne
  obtain ⟨hv, hvs⟩ := List.forall_mem_cons.mp hvs
  refine ⟨⟨digit v hv, vs.attach.map fun u => (false, digit u.1 (hvs u.1 u.2))⟩, ?_⟩
  have hrest : (vs.attach.map fun u => (digit u.1 (hvs u.1 u.2)).value) = vs :=
    List.attach_map_subtype_val vs
  rw [all, List.map_cons, List.map_map, List.map_map]
  exact congrArg (v :: ·) hrest

/-- Every number is spelled by some digits. -/
theorem Digits.exists_number_eq {base : ℕ} (hone : 1 < base) (hbase : base ≤ 16) (v : ℕ) :
    ∃ ds : Digits base, ds.number = v := by
  rcases Nat.eq_zero_or_pos v with rfl | hpos
  · have hdigit : ∀ d ∈ [0], d < base := by simp; omega
    obtain ⟨ds, hds⟩ := exists_all_map_value hbase (List.cons_ne_nil 0 []) hdigit
    exact ⟨ds, by rw [number, hds]; simp⟩
  · have hne : (Nat.digits base v).reverse ≠ [] := by
      rw [Ne, List.reverse_eq_nil_iff]
      exact Nat.digits_ne_nil_iff_ne_zero.mpr hpos.ne'
    obtain ⟨ds, hds⟩ := exists_all_map_value hbase hne fun d hd =>
      Nat.digits_lt_base hone (List.mem_reverse.mp hd)
    exact ⟨ds, by rw [number, hds, List.reverse_reverse, Nat.ofDigits_digits]⟩

/-! ## The characters of a number -/

/-- The digits of all bases are the ASCII digits and letters. -/
theorem toNat_of_isDigitOf {base : ℕ} {c : Char} (h : isDigitOf base c = true) :
    (48 ≤ c.toNat ∧ c.toNat ≤ 57) ∨ (65 ≤ c.toNat ∧ c.toNat ≤ 90) ∨
      (97 ≤ c.toNat ∧ c.toNat ≤ 122) := by
  have hle (a b : Char) : a ≤ b ↔ a.toNat ≤ b.toNat := Iff.rfl
  unfold isDigitOf digitValue? at h
  simp only [hle] at h
  split_ifs at h with hdecimal hsmall hcapital
  · exact Or.inl hdecimal
  · exact Or.inr (Or.inr hsmall)
  · exact Or.inr (Or.inl hcapital)

/-- A digit of ASCII is its own form in ASCII. -/
theorem asciiForm?_of_isDigitOf {base : ℕ} {c : Char} (h : isDigitOf base c = true) :
    asciiForm? c = some c := by
  have hrange := toNat_of_isDigitOf h
  exact if_pos (by omega)

/-- A digit is no blank. -/
theorem isAsciiBlank_of_isDigitOf {base : ℕ} {c : Char} (h : isDigitOf base c = true) :
    isAsciiBlank c = false := by
  have hrange := toNat_of_isDigitOf h
  simp only [isAsciiBlank, Bool.or_eq_false_iff, Bool.and_eq_false_iff, decide_eq_false_iff_not]
  omega

/-- A list is kept if each of its elements is. -/
theorem mapM_eq_some_self {α : Type} {f : α → Option α} {as : List α}
    (h : ∀ a ∈ as, f a = some a) : as.mapM f = some as := by
  induction as with
  | nil => rfl
  | cons a as ih =>
    obtain ⟨ha, has⟩ := List.forall_mem_cons.mp h
    rw [List.mapM_cons, ha, ih has]
    rfl

/-- Nothing is trimmed of characters that are not to be dropped. -/
theorem trimBy_eq_self {drop : Char → Bool} {cs : List Char} (h : ∀ c ∈ cs, drop c = false) :
    trimBy drop cs = cs := by
  have hkeep (ds : List Char) (hds : ∀ c ∈ ds, drop c = false) : ds.dropWhile drop = ds := by
    cases ds with
    | nil => rfl
    | cons c ds => exact List.dropWhile_cons_of_neg (by simp [hds c List.mem_cons_self])
  rw [trimBy, hkeep cs h, hkeep cs.reverse (fun c hc => h c (List.mem_reverse.mp hc)),
    List.reverse_reverse]

/-- A number that is written with ASCII digits and letters only keeps its text. -/
theorem numberText?_of_isDigitOf {raw : String} {cs : List Char}
    (hmarks : withoutMarks raw.toList = cs) (h : ∀ c ∈ cs, isDigitOf 36 c = true) :
    numberText? raw = some cs := by
  have hascii : cs.mapM asciiForm? = some cs :=
    mapM_eq_some_self fun c hc => asciiForm?_of_isDigitOf (h c hc)
  rw [numberText?, hmarks, hascii, Option.map_some,
    trimBy_eq_self fun c hc => isAsciiBlank_of_isDigitOf (h c hc)]

/-- Digits that have no base mark behind a zero are decimal. -/
theorem magnitude?_of_unmarked {cs : List Char}
    (h : ∀ mark digits, cs = '0' :: mark :: digits → markedBase? mark = none) :
    magnitude? cs = decimalDigits? cs := by
  unfold magnitude?
  split
  · rename_i mark digits
    rw [h mark digits rfl]
  · rfl

/-- A number that starts with a digit has no sign. -/
theorem splitSign_of_isDigitOf {base : ℕ} {c : Char} (h : isDigitOf base c = true)
    (cs : List Char) : splitSign (c :: cs) = (false, c :: cs) := by
  have hrange := toNat_of_isDigitOf h
  unfold splitSign
  split
  · rename_i heq
    obtain rfl := (List.cons.inj heq).1
    simp at hrange
  · rename_i heq
    obtain rfl := (List.cons.inj heq).1
    simp at hrange
  · rfl

/-! ## Integer literals are read -/

namespace Digit

variable {base : ℕ}

/-- A digit is written with a digit of its base. -/
theorem isDigitOf_char (d : Digit base) : isDigitOf base d.char = true := by
  rw [isDigitOf, char, d.1.digitValue_char]
  exact decide_eq_true d.2

/-- A digit is written with a digit of every larger base. -/
theorem isDigitOf_char_of_le {larger : ℕ} (hle : base ≤ larger) (d : Digit base) :
    isDigitOf larger d.char = true := by
  rw [isDigitOf, char, d.1.digitValue_char]
  exact decide_eq_true (d.2.trans_le hle)

/-- A digit is not written with a character that is no digit. -/
theorem char_ne {c : Char} (hc : isDigitOf 16 c = false) (d : Digit base) : d.char ≠ c := by
  rintro rfl
  rw [char, d.1.isDigitOf_char] at hc
  cases hc

/-- Only zero is written with a zero. -/
theorem char_eq_zero_iff (d : Digit base) : d.char = '0' ↔ d.value = 0 := by
  have hall : ∀ d : HexDigit, d.char = '0' ↔ d.value.val = 0 := by
    rintro ⟨v, capital⟩
    revert v capital
    decide
  exact hall d.1

end Digit

/-- A character that is no separator is kept. -/
theorem filter_separator_cons {c : Char} (hc : c ≠ '_') (cs : List Char) :
    (c :: cs).filter (· ≠ '_') = c :: cs.filter (· ≠ '_') :=
  List.filter_cons_of_pos (decide_eq_true hc)

namespace Digits

variable {base : ℕ}

/-- Without separators the spelling consists of the digits alone. -/
theorem filter_spelling (ds : Digits base) :
    ds.spelling.filter (· ≠ '_') = ds.all.map Digit.char := by
  have hkept (d : Digit base) : d.char ≠ '_' := d.char_ne (by decide)
  have hrest : ∀ rest : List (Bool × Digit base),
      (rest.flatMap fun (separated, d) => if separated then ['_', d.char] else [d.char]).filter
        (· ≠ '_') = (rest.map Prod.snd).map Digit.char := by
    intro rest
    induction rest with
    | nil => rfl
    | cons flagged rest ih =>
      obtain ⟨separated, d⟩ := flagged
      rw [List.flatMap_cons, List.filter_append, ih]
      cases separated with
      | false => exact congrArg (· ++ _) (filter_separator_cons (hkept d) [])
      | true => exact congrArg (· ++ _) (filter_separator_cons (hkept d) [])
  rw [spelling, filter_separator_cons (hkept ds.first), hrest, all, List.map_cons]

/-- Digits are read as the number that they spell. -/
theorem digits?_all (ds : Digits base) : digits? base (ds.all.map Digit.char) = some ds.number := by
  have hdigits : (ds.all.map Digit.char).all (isDigitOf base) = true := by
    simp [Digit.isDigitOf_char]
  have hne : ds.all.map Digit.char ≠ [] := by simp [all]
  rw [digits?, if_pos ⟨hne, hdigits⟩]
  exact congrArg some
    (ofDigits_map Digit.char Digit.value (fun d => d.1.digitValue_char) base ds.all)

end Digits

namespace Numeral

/-- The characters of a numeral without its separators. -/
def plain : Numeral → List Char
  | decimal ds _ _ => ds.all.map Digit.char
  | marked radix capital ds => '0' :: radix.mark capital :: ds.all.map Digit.char

/-- Without its separators a numeral is plain. -/
theorem filter_spelling (n : Numeral) : n.spelling.filter (· ≠ '_') = n.plain := by
  cases n with
  | decimal ds hzero hlength => exact ds.filter_spelling
  | marked radix capital ds =>
    have hmark : radix.mark capital ≠ '_' := by cases radix <;> cases capital <;> decide
    rw [spelling, filter_separator_cons (by decide), filter_separator_cons hmark,
      ds.filter_spelling, plain]

/-- A plain numeral is written with digits and letters. -/
theorem isDigitOf_of_mem_plain {n : Numeral} {c : Char} (hc : c ∈ n.plain) :
    isDigitOf 36 c = true := by
  have hbase : ∀ radix : Radix, radix.base ≤ 36 := by rintro (_ | _ | _) <;> decide
  cases n with
  | decimal ds hzero hlength =>
    obtain ⟨d, -, rfl⟩ := List.mem_map.mp hc
    exact d.isDigitOf_char_of_le (by decide)
  | marked radix capital ds =>
    rcases List.mem_cons.mp hc with rfl | hc
    · decide
    rcases List.mem_cons.mp hc with rfl | hc
    · cases radix <;> cases capital <;> decide
    · obtain ⟨d, -, rfl⟩ := List.mem_map.mp hc
      exact d.isDigitOf_char_of_le (hbase radix)

/-- A plain numeral is not empty. -/
theorem exists_plain_eq_cons (n : Numeral) : ∃ c cs, n.plain = c :: cs := by
  cases n with
  | decimal ds hzero hlength => exact ⟨_, _, rfl⟩
  | marked radix capital ds => exact ⟨_, _, rfl⟩

/-- A numeral ends with a digit of its base, and the suffix is none. -/
theorem getLast?_plain_ne (n : Numeral) : n.plain.getLast? ≠ some 'n' := by
  have hlast {base : ℕ} (ds : Digits base) (cs : List Char) :
      (cs ++ ds.all.map Digit.char).getLast? ≠ some 'n' := by
    rw [List.getLast?_append_of_ne_nil _ (by simp [Digits.all])]
    intro h
    obtain ⟨d, -, hd⟩ := List.mem_map.mp (List.mem_of_getLast? h)
    exact d.char_ne (by decide) hd
  cases n with
  | decimal ds hzero hlength => exact hlast ds []
  | marked radix capital ds => exact hlast ds ['0', radix.mark capital]

/-- A plain numeral is read as its number. -/
theorem magnitude?_plain (n : Numeral) : magnitude? n.plain = some n.number := by
  cases n with
  | decimal ds hzero hlength =>
    -- behind a leading zero there is nothing, so it carries no mark and is a zero altogether
    have halone : ds.first.char = '0' → ds.all = [ds.first] := by
      intro h
      rw [Digits.all, hzero (ds.first.char_eq_zero_iff.mp h), List.map_nil]
    have hunmarked : ∀ mark digits, plain (.decimal ds hzero hlength) = '0' :: mark :: digits →
        markedBase? mark = none := by
      intro mark digits h
      have hfirst : ds.first.char = '0' := (List.cons.inj h).1
      rw [plain, halone hfirst] at h
      simp at h
    have hzeros : (ds.all.map Digit.char).head? = some '0' →
        (ds.all.map Digit.char).all (· = '0') = true := by
      intro h
      have hfirst : ds.first.char = '0' := Option.some.inj h
      rw [halone hfirst, List.map_singleton, hfirst]
      rfl
    have hshort : (ds.all.map Digit.char).length ≤ maxDecimalDigits := by
      rw [List.length_map]
      exact hlength
    rw [magnitude?_of_unmarked hunmarked, plain, decimalDigits?, if_pos ⟨hshort, hzeros⟩]
    exact ds.digits?_all
  | marked radix capital ds =>
    have hmark : markedBase? (radix.mark capital) = some radix.base := by
      cases radix <;> cases capital <;> rfl
    rw [plain, magnitude?]
    simp only [hmark]
    exact ds.digits?_all

end Numeral

namespace IntegerLiteral

/-- An integer literal without its marks is a plain numeral. -/
theorem withoutMarks_text (l : IntegerLiteral) : withoutMarks l.text.toList = l.numeral.plain := by
  unfold withoutMarks
  rw [text, String.toList_ofList, List.filter_append, Numeral.filter_spelling]
  cases l.big with
  | false =>
    simp only [Bool.false_eq_true, if_false, List.filter_nil, List.append_nil]
    exact if_neg l.numeral.getLast?_plain_ne
  | true =>
    have hsuffix : ['n'].filter (· ≠ '_') = ['n'] := by decide
    simp only [if_true, hsuffix, List.getLast?_concat, List.dropLast_concat]

/-- An integer literal is read as its number. -/
theorem numberValue?_text (l : IntegerLiteral) :
    numberValue? l.text = some (.integer l.number) := by
  have htext : numberText? l.text = some l.numeral.plain :=
    numberText?_of_isDigitOf l.withoutMarks_text fun c hc => Numeral.isDigitOf_of_mem_plain hc
  have hsign : splitSign l.numeral.plain = (false, l.numeral.plain) := by
    obtain ⟨c, cs, hcs⟩ := l.numeral.exists_plain_eq_cons
    rw [hcs]
    exact splitSign_of_isDigitOf (Numeral.isDigitOf_of_mem_plain (hcs ▸ List.mem_cons_self)) cs
  have hwhole : wholeNumber? l.numeral.plain = some (l.number : ℤ) := by
    rw [wholeNumber?, hsign]
    show ((magnitude? l.numeral.plain).map fun n => if false then -(n : ℤ) else n) = _
    rw [l.numeral.magnitude?_plain]
    rfl
  rw [numberValue?, htext]
  show ((wholeNumber? l.numeral.plain).map Value.integer <|> _) = _
  rw [hwhole]
  rfl

/-- Every number is that of a literal with a given mark for its base. -/
theorem exists_marked (radix : Radix) (capital big : Bool) (v : ℕ) :
    ∃ ds : Digits radix.base, (⟨.marked radix capital ds, big⟩ : IntegerLiteral).number = v := by
  have hbase : 1 < radix.base ∧ radix.base ≤ 16 := by cases radix <;> decide
  exact Digits.exists_number_eq hbase.1 hbase.2 v

end IntegerLiteral

end ScriptAudit.Literal

namespace ScriptAudit.Concrete

/-- The tree of a number becomes the literal of its text, whatever its children. -/
theorem Tree.built_adapt_number (source : Source) {t : Tree} (h : t.label.kind = "number") :
    (t.adapt source).built = buildLiteral source t.label := by
  obtain ⟨label, children⟩ := t
  have hkind : label.kind = "number" := h
  rw [Tree.adapt, assemble]
  simp [build, hkind, Kind.identifiers, Kind.literals, Tree.label]

end ScriptAudit.Concrete

namespace ScriptAudit.Literal

/-- **Integer literals are read exactly.** The value of an integer literal is the number it denotes,
as a whole number, and a tree of a number with that text becomes a literal with that value and
leaves nothing to log. So two literals have the same value if and only if they denote the same
number. With a base mark of any kind and case, with and without the suffix, there is a literal for
every number. -/
theorem numberValue?_integerLiteral :
    (∀ l : IntegerLiteral, numberValue? l.text = some (.integer l.number) ∧
      ∀ (source : Source) (t : Concrete.Tree), t.label.kind = "number" →
        t.label.text source = l.text →
        t.toNode source =
          .literal (t.label.head source "Literal") (.integer l.number) (some l.text) ∧
        t.unreadable source = []) ∧
    (∀ l l' : IntegerLiteral, numberValue? l.text = numberValue? l'.text ↔ l.number = l'.number) ∧
    (∀ (radix : Radix) (capital big : Bool) (v : ℕ), ∃ ds : Digits radix.base,
      (⟨.marked radix capital ds, big⟩ : IntegerLiteral).number = v) := by
  refine ⟨?_, ?_, IntegerLiteral.exists_marked⟩
  · intro l
    refine ⟨l.numberValue?_text, ?_⟩
    intro source t hkind htext
    have hvalue : Concrete.literalValue? t.label.kind l.text = some (.integer l.number) := by
      rw [hkind, ← l.numberValue?_text]
      rfl
    have hbuilt : (t.adapt source).built =
        ⟨.literal (t.label.head source "Literal") (.integer l.number) (some l.text), []⟩ := by
      rw [Concrete.Tree.built_adapt_number source hkind, Concrete.buildLiteral, htext]
      simp only [hvalue]
      rfl
    rw [Concrete.Tree.toNode, Concrete.Tree.unreadable, hbuilt]
    exact ⟨rfl, rfl⟩
  · intro l l'
    rw [l.numberValue?_text, l'.numberValue?_text]
    simp

/-- The tree of `0XfF_0n`, with a capital mark, digits of both cases, a separator and the suffix. -/
def separatedTree : Concrete.Tree := .node ⟨"number", 0, 7, 0, 0, none, true⟩ []

/-- A literal in base sixteen, with letters of both cases, a separator and a suffix. -/
theorem numberValue?_integerLiteral_separated :
    separatedTree.label.kind = "number" ∧
      separatedTree.label.text [48, 88, 102, 70, 95, 48, 110] = "0XfF_0n" ∧
      numberValue? "0XfF_0n" = some (.integer 4080) ∧
      separatedTree.unreadable [48, 88, 102, 70, 95, 48, 110] = [] := by
  obtain ⟨l, htext, hnumber⟩ : ∃ l : IntegerLiteral, l.text = "0XfF_0n" ∧ l.number = 4080 := by
    let digits : Digits 16 := ⟨⟨⟨15, false⟩, by decide⟩,
      [(false, ⟨⟨15, true⟩, by decide⟩), (true, ⟨⟨0, false⟩, by decide⟩)]⟩
    exact ⟨⟨.marked .hexadecimal true digits, true⟩, by decide, by decide⟩
  have hspan : separatedTree.label.text [48, 88, 102, 70, 95, 48, 110] = "0XfF_0n" := by
    decide +kernel
  obtain ⟨hvalue, htree⟩ := numberValue?_integerLiteral.1 l
  have hbuilt := htree [48, 88, 102, 70, 95, 48, 110] separatedTree rfl (hspan.trans htext.symm)
  rw [htext, hnumber] at hvalue
  exact ⟨rfl, hspan, hvalue, hbuilt.2⟩

end ScriptAudit.Literal
