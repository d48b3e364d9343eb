import Mathlib.Computability.Language
import ScriptAudit.Secret.Pattern

/-!
# The languages of the secret patterns

Each pattern read as a regular language over characters, in the words of regular expressions: a
class is a set of one-character words, patterns are put together by union, concatenation and
repetition, and nothing is said about how a match is found. Classes are given by their characters,
apart from the tests that a search uses; that the two agree is proved here.
-/

set_option autoImplicit false

namespace ScriptAudit.Secret

open scoped Computability
open ScriptAudit.Text

/-! ## Words, classes and repetitions -/

/-- The one word of a given spelling. -/
def word (s : String) : Language Char := {s.toList}

/-- The one-character words of a class. -/
def oneOf (p : Char → Prop) : Language Char := {w | ∃ c, p c ∧ w = [c]}

/-- At least `least` words of a language, one after the other. -/
def atLeast (least : ℕ) (l : Language Char) : Language Char := l ^ least * l∗

/-- At most `most` words of a language, one after the other. -/
def atMost (most : ℕ) (l : Language Char) : Language Char := {w | ∃ n ≤ most, w ∈ l ^ n}

/-! ## Classes of characters -/

/-- A letter or digit of ASCII. -/
def Alnum (c : Char) : Prop := ('a' ≤ c ∧ c ≤ 'z') ∨ ('A' ≤ c ∧ c ≤ 'Z') ∨ ('0' ≤ c ∧ c ≤ '9')

/-- The code points of white space in Unicode, with the information separators. -/
def whiteCodes : List ℕ :=
  [0x09, 0x0A, 0x0B, 0x0C, 0x0D, 0x1C, 0x1D, 0x1E, 0x1F, 0x20, 0x85, 0xA0, 0x1680, 0x2000, 0x2001,
    0x2002, 0x2003, 0x2004, 0x2005, 0x2006, 0x2007, 0x2008, 0x2009, 0x200A, 0x2028, 0x2029, 0x202F,
    0x205F, 0x3000]

/-- White space. -/
def White (c : Char) : Prop := c.toNat ∈ whiteCodes

/-- A single or double quote. -/
def Quote (c : Char) : Prop := c = '\'' ∨ c = '"'

/-- The words of a pattern. -/
def Pattern.language : Pattern → Language Char
  | apiKey => atLeast 32 (oneOf Alnum)
  | base64 => atLeast 20 (oneOf fun c => Alnum c ∨ c = '+' ∨ c = '/') * atMost 3 (word "=")
  | jwt =>
    word "eyJ" * atLeast 1 (oneOf fun c => Alnum c ∨ c = '_' ∨ c = '-') *
      word "." * atLeast 1 (oneOf fun c => Alnum c ∨ c = '_' ∨ c = '-') *
      word "." * atLeast 1 (oneOf fun c => Alnum c ∨ c = '_' ∨ c = '-')
  | credential =>
    (word "secret" + word "password" + word "token") * (oneOf White)∗ *
      oneOf (fun c => c = ':' ∨ c = '=') * (oneOf White)∗ *
      oneOf Quote * atLeast 1 (oneOf fun c => ¬ Quote c) * oneOf Quote
  | url =>
    word "http" * (1 + word "s") * word "://" *
      atLeast 1 (oneOf fun c => Alnum c ∨ c = '.' ∨ c = '-')
  | mongodb =>
    word "mongodb" * (1 + word "+srv") * word "://" *
      atLeast 1 (oneOf (· ≠ ':')) * word ":" * atLeast 1 (oneOf (· ≠ '@')) * word "@" *
      atLeast 1 (oneOf (· ≠ '/'))

/-! ## The tests of a search decide the classes -/

/-- The test for letters and digits is that of the language. -/
theorem isAlnum_iff (c : Char) : isAlnum c = true ↔ Alnum c := by
  have htests : isAlnum c =
      (decide ('A' ≤ c ∧ c ≤ 'Z') || (decide ('a' ≤ c) && decide (c ≤ 'z')) ||
        (decide ('0' ≤ c) && decide (c ≤ '9'))) := rfl
  rw [htests, Bool.or_eq_true, Bool.or_eq_true, Bool.and_eq_true, Bool.and_eq_true]
  simp only [decide_eq_true_eq, Alnum]
  tauto

/-- The test for blanks is that of the language. -/
theorem isBlank_iff (c : Char) : isBlank c = true ↔ White c := by
  simp only [isBlank, blanks, RangeTable.has, List.any_cons, List.any_nil, Bool.or_eq_true,
    Bool.and_eq_true, decide_eq_true_eq, White, whiteCodes, List.mem_cons, List.not_mem_nil,
    Bool.false_eq_true, or_false]
  omega

/-- The test for quotes is that of the language. -/
theorem isQuote_iff (c : Char) : isQuote c = true ↔ Quote c := by
  simp [isQuote, Quote]

/-! ## Membership -/

/-- The only word of the language of a word is the word. -/
@[simp] theorem mem_word {s : String} {w : List Char} : w ∈ word s ↔ w = s.toList := Iff.rfl

/-- The words of a class are its characters. -/
@[simp] theorem mem_oneOf {p : Char → Prop} {w : List Char} :
    w ∈ oneOf p ↔ ∃ c, p c ∧ w = [c] := Iff.rfl

/-- A number of characters of a class. -/
theorem mem_oneOf_pow {p : Char → Prop} {n : ℕ} {w : List Char} :
    w ∈ oneOf p ^ n ↔ w.length = n ∧ ∀ c ∈ w, p c := by
  induction n generalizing w with
  | zero =>
    rw [pow_zero, Language.mem_one, List.length_eq_zero_iff]
    constructor
    · rintro rfl
      exact ⟨rfl, fun c hc => nomatch hc⟩
    · exact And.left
  | succ n ih =>
    rw [pow_succ', Language.mem_mul]
    constructor
    · rintro ⟨a, ⟨c, hc, rfl⟩, b, hb, rfl⟩
      obtain ⟨hlength, hall⟩ := ih.mp hb
      simpa [hlength, hc] using hall
    · rintro ⟨hlength, hall⟩
      obtain ⟨c, b, rfl⟩ := List.exists_cons_of_length_eq_add_one hlength
      rw [List.forall_mem_cons] at hall
      refine ⟨[c], ⟨c, hall.1, rfl⟩, b, ih.mpr ⟨by simpa using hlength, hall.2⟩, rfl⟩

/-- The runs of a class are the words of its characters. -/
theorem mem_oneOf_kstar {p : Char → Prop} {w : List Char} :
    w ∈ (oneOf p)∗ ↔ ∀ c ∈ w, p c := by
  rw [Language.kstar_eq_iSup_pow, Language.mem_iSup]
  simp [mem_oneOf_pow]

/-- At least a number of characters of a class. -/
theorem mem_atLeast_oneOf {p : Char → Prop} {least : ℕ} {w : List Char} :
    w ∈ atLeast least (oneOf p) ↔ least ≤ w.length ∧ ∀ c ∈ w, p c := by
  rw [atLeast, Language.mem_mul]
  constructor
  · rintro ⟨a, ha, b, hb, rfl⟩
    rw [mem_oneOf_pow] at ha
    rw [mem_oneOf_kstar] at hb
    refine ⟨?_, List.forall_mem_append.mpr ⟨ha.2, hb⟩⟩
    rw [List.length_append]
    omega
  · rintro ⟨hlength, hall⟩
    refine ⟨w.take least, ?_, w.drop least, ?_, List.take_append_drop least w⟩
    · rw [mem_oneOf_pow, List.length_take]
      exact ⟨by omega, fun c hc => hall c (List.mem_of_mem_take hc)⟩
    · rw [mem_oneOf_kstar]
      exact fun c hc => hall c (List.mem_of_mem_drop hc)

/-- At most a number of characters of a class. -/
theorem mem_atMost_oneOf {p : Char → Prop} {most : ℕ} {w : List Char} :
    w ∈ atMost most (oneOf p) ↔ w.length ≤ most ∧ ∀ c ∈ w, p c := by
  constructor
  · rintro ⟨n, hn, hw⟩
    obtain ⟨rfl, hall⟩ := mem_oneOf_pow.mp hw
    exact ⟨hn, hall⟩
  · rintro ⟨hlength, hall⟩
    exact ⟨w.length, hlength, mem_oneOf_pow.mpr ⟨rfl, hall⟩⟩

end ScriptAudit.Secret
