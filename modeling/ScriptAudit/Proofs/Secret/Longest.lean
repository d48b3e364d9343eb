import ScriptAudit.Proofs.Secret.Language

/-!
# A pattern takes the longest word of its language

A reader answers with the text behind what it takes, if it takes anything. It is longest for a
language when what it takes is a word of the language, and when it never takes less than a word the
text begins with. Such a reader takes the longest word there is, and it fails only where there is
none.

That is what every pattern does, though it looks at its text only once and never goes back. Readers
of one part are put together by `Longest.bind`: it asks that the first reader stops just before the
second part, wherever a word of both parts stands. A fixed word and a single character always do. A
run of a class does because the second part begins with a character outside the class. The one part
that may be empty, the padding of base64, is treated by itself.
-/

set_option autoImplicit false

namespace ScriptAudit.Secret

open scoped Computability
open ScriptAudit.Text

/-- Reads the beginning of a text and answers with the rest. -/
abbrev Reader := List Char → Option (List Char)

/-- A reader that takes the longest word of a language. -/
structure Longest (f : Reader) (l : Language Char) : Prop where
  sound : ∀ cs rest, f cs = some rest → ∃ w ∈ l, cs = w ++ rest
  reaches : ∀ w ∈ l, ∀ t, ∃ rest, f (w ++ t) = some rest ∧ rest <:+ t

namespace Longest

variable {f g : Reader} {l m : Language Char}

/-- Two parts in a row. Wherever a word of both parts stands, the first reader has to stop before a
word of the second part, with no more text behind it. -/
theorem bind (hf : Longest f l) (hg : Longest g m)
    (hmeet : ∀ a ∈ l, ∀ b ∈ m, ∀ t,
      ∃ b' ∈ m, ∃ t', f (a ++ (b ++ t)) = some (b' ++ t') ∧ t' <:+ t) :
    Longest (fun cs => f cs >>= g) (l * m) := by
  constructor
  · intro cs rest h
    obtain ⟨mid, hmid, hrest⟩ := Option.bind_eq_some_iff.mp h
    obtain ⟨a, ha, rfl⟩ := hf.sound cs mid hmid
    obtain ⟨b, hb, rfl⟩ := hg.sound mid rest hrest
    exact ⟨a ++ b, Language.append_mem_mul ha hb, (List.append_assoc a b rest).symm⟩
  · intro w hw t
    obtain ⟨a, ha, b, hb, rfl⟩ := Language.mem_mul.mp hw
    obtain ⟨b', hb', t', hstop, ht'⟩ := hmeet a ha b hb t
    obtain ⟨rest, hrest, hsuffix⟩ := hg.reaches b' hb' t'
    refine ⟨rest, ?_, hsuffix.trans ht'⟩
    rw [List.append_assoc]
    show (f (a ++ (b ++ t)) >>= g) = some rest
    rw [hstop]
    exact hrest

/-- What is taken is no shorter than any word the text begins with. -/
theorem length_le (hf : Longest f l) {cs rest w : List Char} (h : f cs = some rest) (hw : w ∈ l)
    (hbegins : w <+: cs) : w.length ≤ cs.length - rest.length := by
  obtain ⟨t, rfl⟩ := hbegins
  obtain ⟨rest', hrest', hsuffix⟩ := hf.reaches w hw t
  obtain rfl : rest = rest' := Option.some.inj (h.symm.trans hrest')
  have hlength := hsuffix.length_le
  rw [List.length_append]
  omega

/-- A reader takes something wherever the text begins with a word of the language. -/
theorem isSome_of_begins (hf : Longest f l) {cs w : List Char} (hw : w ∈ l) (hbegins : w <+: cs) :
    (f cs).isSome := by
  obtain ⟨t, rfl⟩ := hbegins
  obtain ⟨rest, hrest, -⟩ := hf.reaches w hw t
  rw [hrest]
  rfl

end Longest

/-! ## Readers of one part -/

/-- A reader that stops right behind any word of a language. -/
structure Exact (f : Reader) (l : Language Char) : Prop where
  sound : ∀ cs rest, f cs = some rest → ∃ w ∈ l, cs = w ++ rest
  stops : ∀ w ∈ l, ∀ t, f (w ++ t) = some t

namespace Exact

variable {f g : Reader} {l m : Language Char}

/-- A reader that stops right behind every word takes no less than it. -/
theorem longest (hf : Exact f l) : Longest f l :=
  ⟨hf.sound, fun w hw t => ⟨t, hf.stops w hw t, List.suffix_rfl⟩⟩

/-- An exact part and then another. -/
theorem bind (hf : Exact f l) (hg : Longest g m) : Longest (fun cs => f cs >>= g) (l * m) :=
  hf.longest.bind hg fun a ha b hb t => ⟨b, hb, t, hf.stops a ha (b ++ t), List.suffix_rfl⟩

/-- One of two exact parts, if no text begins with both. -/
theorem orElse (hf : Exact f l) (hg : Exact g m) (hapart : ∀ b ∈ m, ∀ t, f (b ++ t) = none) :
    Exact (fun cs => f cs <|> g cs) (l + m) := by
  constructor
  · intro cs rest h
    cases hfirst : f cs with
    | some rest' =>
      obtain rfl : rest' = rest := by simpa [hfirst] using h
      obtain ⟨w, hw, hcs⟩ := hf.sound cs rest' hfirst
      exact ⟨w, (Language.mem_add l m w).mpr (Or.inl hw), hcs⟩
    | none =>
      obtain ⟨w, hw, hcs⟩ := hg.sound cs rest (by simpa [hfirst] using h)
      exact ⟨w, (Language.mem_add l m w).mpr (Or.inr hw), hcs⟩
  · intro w hw t
    rcases (Language.mem_add l m w).mp hw with h | h
    · simp [hf.stops w h t]
    · simp [hapart w h t, hg.stops w h t]

end Exact

/-- The reader of a word is exact. -/
theorem exact_afterWord (s : String) : Exact (afterWord? s) (word s) := by
  constructor
  · intro cs rest h
    unfold afterWord? at h
    split at h
    · rename_i hbegins
      obtain ⟨t, rfl⟩ := List.isPrefixOf_iff_prefix.mp hbegins
      rw [← String.length_toList, List.drop_left] at h
      obtain rfl : t = rest := Option.some.inj h
      exact ⟨s.toList, rfl, rfl⟩
    · cases h
  · rintro w rfl t
    have hbegins : s.toList.isPrefixOf (s.toList ++ t) = true :=
      List.isPrefixOf_iff_prefix.mpr (List.prefix_append _ _)
    rw [afterWord?, if_pos hbegins, ← String.length_toList, List.drop_left]

/-- The reader of a character of a class is exact. -/
theorem exact_afterOne {p : Char → Bool} {q : Char → Prop} (hp : ∀ c, p c = true ↔ q c) :
    Exact (afterOne? p) (oneOf q) := by
  constructor
  · intro cs rest h
    cases cs with
    | nil => cases h
    | cons c cs =>
      rw [afterOne?] at h
      split at h
      · rename_i hc
        obtain rfl : cs = rest := Option.some.inj h
        exact ⟨[c], ⟨c, (hp c).mp hc, rfl⟩, rfl⟩
      · cases h
  · rintro w ⟨c, hc, rfl⟩ t
    show (if p c then some t else none) = some t
    rw [if_pos ((hp c).mpr hc)]

/-- Two words together are a word. -/
theorem word_mul_word (s t : String) : word s * word t = word (s ++ t) := by
  ext w
  simp only [Language.mem_mul, mem_word, String.toList_append]
  constructor
  · rintro ⟨a, rfl, b, rfl, rfl⟩
    rfl
  · rintro rfl
    exact ⟨s.toList, rfl, t.toList, rfl, rfl⟩

/-- A word with a part in the middle that may be missing. -/
theorem word_mul_optional_mul_word (s t u : String) :
    word s * (1 + word t) * word u = word (s ++ t ++ u) + word (s ++ u) := by
  rw [mul_add, add_mul, mul_one, word_mul_word, word_mul_word, word_mul_word, add_comm]

/-- A word of one character is a class of one character. -/
theorem word_eq_oneOf {s : String} {c : Char} (h : s.toList = [c]) : word s = oneOf (· = c) := by
  ext w
  simp [h]

/-! ## Runs of a class -/

/-- Every word of a language begins with a character outside a class. -/
def BeginsOutside (p : Char → Bool) (l : Language Char) : Prop :=
  ∀ w ∈ l, ∃ c v, w = c :: v ∧ p c = false

/-- A part that begins outside a class still does with more behind it. -/
theorem BeginsOutside.mul {p : Char → Bool} {l : Language Char} (h : BeginsOutside p l)
    (m : Language Char) : BeginsOutside p (l * m) := by
  intro w hw
  obtain ⟨a, ha, b, -, rfl⟩ := Language.mem_mul.mp hw
  obtain ⟨c, v, rfl, hc⟩ := h a ha
  exact ⟨c, v ++ b, rfl, hc⟩

/-- The words of a class begin outside of every class that shares no character with it. -/
theorem beginsOutside_oneOf {p : Char → Bool} {q : Char → Prop} (h : ∀ c, q c → p c = false) :
    BeginsOutside p (oneOf q) := by
  rintro w ⟨c, hc, rfl⟩
  exact ⟨c, [], rfl, h c hc⟩

/-- A run of a class stops at the first character outside. -/
theorem afterRun_append {p : Char → Bool} {least : ℕ} {a t : List Char} (hlength : least ≤ a.length)
    (hall : ∀ c ∈ a, p c = true) :
    afterRun? least p (a ++ t) = some (t.dropWhile p) := by
  unfold afterRun?
  rw [List.takeWhile_append_of_pos hall, List.dropWhile_append_of_pos hall, List.length_append,
    if_pos (by omega)]

/-- A run of a class is taken as a whole. -/
theorem longest_afterRun {p : Char → Bool} {q : Char → Prop} (hp : ∀ c, p c = true ↔ q c)
    (least : ℕ) : Longest (afterRun? least p) (atLeast least (oneOf q)) := by
  constructor
  · intro cs rest h
    unfold afterRun? at h
    split at h
    · rename_i hlength
      obtain rfl : cs.dropWhile p = rest := Option.some.inj h
      refine ⟨cs.takeWhile p, mem_atLeast_oneOf.mpr ⟨hlength, ?_⟩,
        List.takeWhile_append_dropWhile.symm⟩
      exact fun c hc => (hp c).mp (List.all_eq_true.mp List.all_takeWhile c hc)
    · cases h
  · intro w hw t
    obtain ⟨hlength, hall⟩ := mem_atLeast_oneOf.mp hw
    exact ⟨t.dropWhile p, afterRun_append hlength fun c hc => (hp c).mpr (hall c hc),
      List.dropWhile_suffix p⟩

/-- A run of a class, and then a part that begins outside the class. -/
theorem Longest.run_bind {g : Reader} {m : Language Char} {p : Char → Bool} {q : Char → Prop}
    (hp : ∀ c, p c = true ↔ q c) (least : ℕ) (hg : Longest g m) (hm : BeginsOutside p m) :
    Longest (fun cs => afterRun? least p cs >>= g) (atLeast least (oneOf q) * m) := by
  refine (longest_afterRun hp least).bind hg ?_
  intro a ha b hb t
  obtain ⟨hlength, hall⟩ := mem_atLeast_oneOf.mp ha
  obtain ⟨c, v, rfl, hc⟩ := hm b hb
  refine ⟨c :: v, hb, t, ?_, List.suffix_rfl⟩
  rw [afterRun_append hlength fun c hc => (hp c).mpr (hall c hc), List.cons_append,
    List.dropWhile_cons_of_neg (by simp [hc])]

/-! ## The six patterns -/

/-- The characters of a base64 text are letters, digits and two signs. -/
theorem isBase64_iff (c : Char) : isBase64 c = true ↔ Alnum c ∨ c = '+' ∨ c = '/' := by
  simp [isBase64, isAlnum_iff, or_assoc]

/-- The characters of a token are letters, digits and two signs. -/
theorem isTokenChar_iff (c : Char) : isTokenChar c = true ↔ Alnum c ∨ c = '_' ∨ c = '-' := by
  simp [isTokenChar, isAlnum_iff, or_assoc]

/-- The characters of a host are letters, digits, dots and dashes. -/
theorem isHostChar_iff (c : Char) : isHostChar c = true ↔ Alnum c ∨ c = '.' ∨ c = '-' := by
  simp [isHostChar, isAlnum_iff, or_assoc]

/-- At most a number of copies of a character are taken as far as they go. -/
theorem longest_afterAtMost (most : ℕ) (c : Char) :
    Longest (fun cs => some (afterAtMost most c cs)) (atMost most (oneOf (· = c))) := by
  constructor
  · intro cs rest h
    obtain rfl : afterAtMost most c cs = rest := Option.some.inj h
    refine ⟨(cs.takeWhile (· = c)).take most,
      mem_atMost_oneOf.mpr ⟨List.length_take_le _ _, ?_⟩, ?_⟩
    · intro d hd
      exact of_decide_eq_true (List.all_eq_true.mp List.all_takeWhile d (List.mem_of_mem_take hd))
    · have hbegins : (cs.takeWhile (· = c)).take most <+: cs :=
        (List.take_prefix _ _).trans (List.takeWhile_prefix _)
      exact (List.prefix_iff_eq_append.mp hbegins).symm
  · intro w hw t
    obtain ⟨hlength, hall⟩ := mem_atMost_oneOf.mp hw
    refine ⟨_, rfl, ?_⟩
    -- what is dropped reaches at least to the end of `w`
    have htaken : w.length ≤ (((w ++ t).takeWhile (· = c)).take most).length := by
      rw [List.takeWhile_append_of_pos fun d hd => decide_eq_true (hall d hd), List.length_take,
        List.length_append]
      omega
    unfold afterAtMost
    rw [List.drop_append, List.drop_eq_nil_of_le htaken, List.nil_append]
    exact List.drop_suffix _ t

/-- Base64 text: the padding may be missing, and then the run goes on as far as it can. -/
theorem longest_base64 : Longest Pattern.base64.rest? Pattern.base64.language := by
  have hpad : word "=" = oneOf (· = '=') := word_eq_oneOf rfl
  have hrest : Pattern.base64.rest? =
      fun cs => afterRun? 20 isBase64 cs >>= fun cs => some (afterAtMost 3 '=' cs) := by
    funext cs
    exact Option.map_eq_bind
  rw [hrest, Pattern.language, hpad]
  refine (longest_afterRun isBase64_iff 20).bind (longest_afterAtMost 3 '=') ?_
  intro a ha b hb t
  obtain ⟨hlength, hall⟩ := mem_atLeast_oneOf.mp ha
  have hrun := afterRun_append (t := b ++ t) hlength fun c hc => (isBase64_iff c).mpr (hall c hc)
  cases b with
  | nil => exact ⟨[], hb, t.dropWhile isBase64, hrun, List.dropWhile_suffix _⟩
  | cons d b =>
    obtain rfl : d = '=' := (mem_atMost_oneOf.mp hb).2 d List.mem_cons_self
    refine ⟨'=' :: b, hb, t, ?_, List.suffix_rfl⟩
    rw [hrun]
    rfl

/-- Web tokens: every run ends at the point behind it. -/
theorem longest_jwt : Longest Pattern.jwt.rest? Pattern.jwt.language := by
  have hdot : word "." = oneOf (· = '.') := word_eq_oneOf rfl
  have hstop : BeginsOutside isTokenChar (oneOf (· = '.')) :=
    beginsOutside_oneOf fun c hc => by subst hc; rfl
  have hone := exact_afterOne (p := (· = '.')) (q := (· = '.')) fun c => decide_eq_true_iff
  have hrun := longest_afterRun isTokenChar_iff 1
  simp only [Pattern.language, hdot, mul_assoc]
  refine (exact_afterWord "eyJ").bind ?_
  refine Longest.run_bind isTokenChar_iff 1 ?_ (hstop.mul _)
  refine hone.bind ?_
  refine Longest.run_bind isTokenChar_iff 1 ?_ (hstop.mul _)
  exact hone.bind hrun

/-- A run of no fixed length takes all characters of the class. -/
theorem afterRun_zero (p : Char → Bool) (cs : List Char) :
    afterRun? 0 p cs = some (cs.dropWhile p) :=
  if_pos (Nat.zero_le _)

/-- Credentials: blanks end at the delimiter or the quote, and the value ends at the next quote. -/
theorem longest_credential : Longest Pattern.credential.rest? Pattern.credential.language := by
  have hrest : Pattern.credential.rest? = fun cs =>
      (afterWord? "secret" cs <|> afterWord? "password" cs <|> afterWord? "token" cs) >>= fun cs =>
      afterRun? 0 isBlank cs >>= fun cs =>
      afterOne? (fun c => c = ':' || c = '=') cs >>= fun cs =>
      afterRun? 0 isBlank cs >>= fun cs =>
      afterOne? isQuote cs >>= fun cs =>
      afterRun? 1 (!isQuote ·) cs >>= afterOne? isQuote := by
    funext cs
    simp only [afterRun_zero]
    rfl
  have hblanks : (oneOf White)∗ = atLeast 0 (oneOf White) := by
    rw [atLeast, pow_zero, one_mul]
  have hdelimiter (c : Char) : (c = ':' || c = '=') = true ↔ c = ':' ∨ c = '=' := by simp
  have hinside (c : Char) : (!isQuote c) = true ↔ ¬ Quote c := by simp [← isQuote_iff]
  have hkeyword : Exact
      (fun cs => afterWord? "secret" cs <|> afterWord? "password" cs <|> afterWord? "token" cs)
      (word "secret" + (word "password" + word "token")) := by
    refine (exact_afterWord "secret").orElse
      ((exact_afterWord "password").orElse (exact_afterWord "token") ?_) ?_
    · rintro b rfl t
      rfl
    · rintro b (rfl | rfl) t <;> rfl
  rw [hrest]
  simp only [Pattern.language, hblanks, add_assoc, mul_assoc]
  refine hkeyword.bind ?_
  refine Longest.run_bind isBlank_iff 0 ?_ ((beginsOutside_oneOf ?_).mul _)
  · refine (exact_afterOne hdelimiter).bind ?_
    refine Longest.run_bind isBlank_iff 0 ?_ ((beginsOutside_oneOf ?_).mul _)
    · refine (exact_afterOne isQuote_iff).bind ?_
      refine Longest.run_bind hinside 1 (exact_afterOne isQuote_iff).longest
        (beginsOutside_oneOf ?_)
      intro c hc
      simp [isQuote_iff, hc]
    · rintro c (rfl | rfl) <;> rfl
  · rintro c (rfl | rfl) <;> rfl

/-- Addresses of the web. -/
theorem longest_url : Longest Pattern.url.rest? Pattern.url.language := by
  have hscheme : word "http" * (1 + word "s") * word "://" = word "https://" + word "http://" :=
    word_mul_optional_mul_word "http" "s" "://"
  simp only [Pattern.language, hscheme]
  refine Exact.bind ?_ (longest_afterRun isHostChar_iff 1)
  refine (exact_afterWord "https://").orElse (exact_afterWord "http://") ?_
  rintro b rfl t
  rfl

/-- Connection strings: each part ends at its delimiter. -/
theorem longest_mongodb : Longest Pattern.mongodb.rest? Pattern.mongodb.language := by
  have hscheme : word "mongodb" * (1 + word "+srv") * word "://" =
      word "mongodb+srv://" + word "mongodb://" :=
    word_mul_optional_mul_word "mongodb" "+srv" "://"
  have hcolon : word ":" = oneOf (· = ':') := word_eq_oneOf rfl
  have hat : word "@" = oneOf (· = '@') := word_eq_oneOf rfl
  have hone (d c : Char) : decide (c = d) = true ↔ c = d := decide_eq_true_iff
  have hother (d c : Char) : decide (c ≠ d) = true ↔ c ≠ d := decide_eq_true_iff
  have houtside (d : Char) : BeginsOutside (· ≠ d) (oneOf (· = d)) :=
    beginsOutside_oneOf fun c hc => decide_eq_false (not_not_intro hc)
  simp only [Pattern.language, hscheme, hcolon, hat, mul_assoc]
  refine Exact.bind ?_ ?_
  · refine (exact_afterWord "mongodb+srv://").orElse (exact_afterWord "mongodb://") ?_
    rintro b rfl t
    rfl
  · refine Longest.run_bind (hother ':') 1 ?_ ((houtside ':').mul _)
    refine (exact_afterOne (hone ':')).bind ?_
    refine Longest.run_bind (hother '@') 1 ?_ ((houtside '@').mul _)
    exact (exact_afterOne (hone '@')).bind (longest_afterRun (hother '/') 1)

/-- Every pattern takes the longest word of its language. -/
theorem longest_rest (p : Pattern) : Longest p.rest? p.language := by
  cases p with
  | apiKey => exact longest_afterRun isAlnum_iff 32
  | base64 => exact longest_base64
  | jwt => exact longest_jwt
  | credential => exact longest_credential
  | url => exact longest_url
  | mongodb => exact longest_mongodb

end ScriptAudit.Secret
