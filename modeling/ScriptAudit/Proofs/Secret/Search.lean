import ScriptAudit.Proofs.Secret.Longest
import ScriptAudit.Secret.Search

/-!
# A search for secrets is exact

A search tries the patterns at one position after the other and goes on behind each match. Two
statements say that it does so without loss. Every position at which a word of one of the patterns
stands is covered by a match. And every match is genuine: it belongs to the first pattern that has a
word at its position, and its text is the longest word of that pattern there; matches do not
overlap.

Both are proved along the search, for the part of the text that begins at the current position.
-/

set_option autoImplicit false

namespace ScriptAudit.Secret

/-! ## One position -/

/-- No pattern has an empty word. -/
theorem nil_notMem_language (p : Pattern) : [] ∉ p.language := by
  intro h
  obtain ⟨rest, hrest, -⟩ := (longest_rest p).reaches [] h []
  cases p <;> cases hrest

/-- A pattern without a match has no word at the beginning of the text. -/
theorem matchLength_eq_none_iff {p : Pattern} {cs : List Char} :
    p.matchLength? cs = none ↔ ∀ w ∈ p.language, ¬ w <+: cs := by
  unfold Pattern.matchLength?
  rw [Option.map_eq_none_iff]
  constructor
  · intro h w hw hbegins
    have hsome := (longest_rest p).isSome_of_begins hw hbegins
    rw [h] at hsome
    cases hsome
  · intro h
    cases hrest : p.rest? cs with
    | none => rfl
    | some rest =>
      obtain ⟨w, hw, rfl⟩ := (longest_rest p).sound cs rest hrest
      exact absurd (List.prefix_append w rest) (h w hw)

/-- The match of a pattern is a word of its language, and no word at the beginning of the text is
longer. -/
theorem matchLength_eq_some {p : Pattern} {cs : List Char} {n : ℕ}
    (h : p.matchLength? cs = some n) :
    n ≤ cs.length ∧ cs.take n ∈ p.language ∧ ∀ w ∈ p.language, w <+: cs → w.length ≤ n := by
  unfold Pattern.matchLength? at h
  obtain ⟨rest, hrest, rfl⟩ := Option.map_eq_some_iff.mp h
  refine ⟨Nat.sub_le _ _, ?_, fun w hw hbegins => (longest_rest p).length_le hrest hw hbegins⟩
  obtain ⟨w, hw, rfl⟩ := (longest_rest p).sound cs rest hrest
  rwa [List.length_append, Nat.add_sub_cancel, List.take_left]

/-- The first of the patterns with a match. -/
theorem firstMatch_eq_some {patterns : List Pattern} {cs : List Char} {p : Pattern} {n : ℕ}
    (h : firstMatch? patterns cs = some (p, n)) :
    p.matchLength? cs = some n ∧
      ∃ before after, patterns = before ++ p :: after ∧ ∀ q ∈ before, q.matchLength? cs = none := by
  unfold firstMatch? at h
  obtain ⟨before, q, after, hsplit, hq, hbefore⟩ := List.findSome?_eq_some_iff.mp h
  obtain ⟨k, hk, hpair⟩ := Option.map_eq_some_iff.mp hq
  obtain ⟨rfl, rfl⟩ := Prod.mk.inj hpair
  exact ⟨hk, before, after, hsplit, fun q hq => Option.map_eq_none_iff.mp (hbefore q hq)⟩

/-- Where a word of one of the patterns stands, some pattern has a match, and it is not empty. -/
theorem exists_firstMatch {patterns : List Pattern} {cs : List Char} {p : Pattern} {w : List Char}
    (hp : p ∈ patterns) (hw : w ∈ p.language) (hbegins : w <+: cs) :
    ∃ q n, firstMatch? patterns cs = some (q, n + 1) := by
  cases h : firstMatch? patterns cs with
  | none =>
    have hnone := List.findSome?_eq_none_iff.mp h p hp
    exact absurd hbegins (matchLength_eq_none_iff.mp (Option.map_eq_none_iff.mp hnone) w hw)
  | some found =>
    obtain ⟨q, n⟩ := found
    obtain ⟨hmatch, -⟩ := firstMatch_eq_some h
    cases n with
    | zero => exact absurd (matchLength_eq_some hmatch).2.1 (nil_notMem_language q)
    | succ n => exact ⟨q, n, rfl⟩

/-! ## Nothing is missed -/

/-- A search from a position on covers every later position at which a word of a pattern stands. -/
theorem searchFrom_covers {patterns : List Pattern} {p : Pattern} (hp : p ∈ patterns)
    {w : List Char} (hw : w ∈ p.language) (position : ℕ) (cs : List Char) (k : ℕ)
    (hbegins : w <+: cs.drop k) :
    ∃ m ∈ searchFrom patterns position cs, m.start ≤ position + k ∧ position + k < m.stop := by
  fun_induction searchFrom patterns position cs generalizing k with
  | case1 position =>
    rw [List.drop_nil, List.prefix_nil] at hbegins
    exact absurd (hbegins ▸ hw) (nil_notMem_language p)
  | case2 position c rest q length hmatch ih =>
    by_cases hk : k < length + 1
    · exact ⟨_, List.mem_cons_self, Nat.le_add_right _ _, Nat.add_lt_add_left hk position⟩
    · -- the position lies behind this match, in the text the search goes on with
      obtain ⟨e, rfl⟩ := Nat.exists_eq_add_of_le (Nat.le_of_not_lt hk)
      rw [← List.drop_drop, List.drop_succ_cons] at hbegins
      obtain ⟨m, hm, hstart, hstop⟩ := ih e hbegins
      exact ⟨m, List.mem_cons_of_mem _ hm, by omega, by omega⟩
  | case3 position c rest hnomatch ih =>
    cases k with
    | zero =>
      obtain ⟨q, n, hfirst⟩ := exists_firstMatch hp hw hbegins
      exact absurd hfirst (hnomatch q n)
    | succ k =>
      obtain ⟨m, hm, hstart, hstop⟩ := ih k hbegins
      exact ⟨m, hm, by omega, by omega⟩

/-- Wherever a part of a text is a word of one of the patterns, the search has a match that covers
the beginning of that part. -/
theorem search_covers_words (patterns : List Pattern) (value : String) (p : Pattern) (i j : ℕ)
    (hp : p ∈ patterns) (hword : (value.toList.drop i).take (j - i) ∈ p.language) :
    ∃ m ∈ search patterns value, m.start ≤ i ∧ i < m.stop := by
  have hne : patterns.isEmpty = false := List.isEmpty_eq_false_iff_exists_mem.mpr ⟨p, hp⟩
  rw [search, hne, if_neg Bool.false_ne_true]
  obtain ⟨m, hm, hstart, hstop⟩ :=
    searchFrom_covers hp hword 0 value.toList i (List.take_prefix _ _)
  rw [Nat.zero_add] at hstart hstop
  exact ⟨m, hm, hstart, hstop⟩

/-- The address in a quoted value is no match of its own, but the credential covers it. -/
theorem search_covers_words_quoted_url :
    ("token='http://h'".toList.drop 7).take (15 - 7) ∈ Pattern.url.language ∧
    ∃ m ∈ search [.url, .credential] "token='http://h'", m.start ≤ 7 ∧ 7 < m.stop := by
  have hword : ("token='http://h'".toList.drop 7).take (15 - 7) ∈ Pattern.url.language :=
    (matchLength_eq_some (n := 8) (by decide)).2.1
  refine ⟨hword, ?_⟩
  exact search_covers_words [.url, .credential] "token='http://h'" .url 7 15 (by decide) hword

/-! ## Every match is genuine -/

/-- What a match claims about the text it was found in. It is not empty and holds the text between
its ends; it belongs to the first pattern that has a word at its position; and its text is the
longest word of that pattern there. -/
structure Match.Genuine (patterns : List Pattern) (value : List Char) (m : Match) : Prop where
  nonempty : m.start < m.stop
  within : m.stop ≤ value.length
  text_eq : m.text.toList = (value.drop m.start).take (m.stop - m.start)
  labelled : ∃ before p after, patterns = before ++ p :: after ∧
    m.pattern = some p ∧ m.kind = p.name ∧
    (∀ q ∈ before, ∀ w ∈ q.language, ¬ w <+: value.drop m.start) ∧
    m.text.toList ∈ p.language ∧
    ∀ w ∈ p.language, w <+: value.drop m.start → w.length ≤ m.text.length

/-- The first match at a position is genuine. -/
theorem genuine_of_firstMatch {patterns : List Pattern} {value cs : List Char} {position : ℕ}
    {p : Pattern} {n : ℕ} (hdrop : value.drop position = cs)
    (hfirst : firstMatch? patterns cs = some (p, n + 1)) :
    Match.Genuine patterns value
      { pattern := some p, text := String.ofList (cs.take (n + 1)), start := position,
        stop := position + (n + 1) } := by
  obtain ⟨hmatch, before, after, hsplit, hbefore⟩ := firstMatch_eq_some hfirst
  obtain ⟨hlength, hmem, hlongest⟩ := matchLength_eq_some hmatch
  subst hdrop
  refine ⟨by simp, ?_, by simp, before, p, after, hsplit, rfl, rfl, ?_, ?_, ?_⟩
  · rw [List.length_drop] at hlength
    show position + (n + 1) ≤ value.length
    omega
  · exact fun q hq => matchLength_eq_none_iff.mp (hbefore q hq)
  · rwa [String.toList_ofList]
  · intro w hw hbegins
    rw [String.length_ofList, List.length_take, Nat.min_eq_left hlength]
    exact hlongest w hw hbegins

/-- The matches of a search from a position on are genuine, begin no earlier than that position, and
follow each other without overlap. -/
theorem searchFrom_genuine (patterns : List Pattern) {value : List Char} (position : ℕ)
    (cs : List Char) (hdrop : value.drop position = cs) :
    (∀ m ∈ searchFrom patterns position cs,
      position ≤ m.start ∧ Match.Genuine patterns value m) ∧
    (searchFrom patterns position cs).Pairwise fun m m' => m.stop ≤ m'.start := by
  fun_induction searchFrom patterns position cs with
  | case1 position => simp
  | case2 position c rest p length hmatch ih =>
    have hrest : value.drop (position + (length + 1)) = rest.drop length := by
      rw [← List.drop_drop, hdrop, List.drop_succ_cons]
    obtain ⟨hgenuine, hapart⟩ := ih hrest
    constructor
    · intro m hm
      rcases List.mem_cons.mp hm with rfl | hm
      · exact ⟨Nat.le_refl _, genuine_of_firstMatch hdrop hmatch⟩
      · obtain ⟨hstart, hm⟩ := hgenuine m hm
        exact ⟨by omega, hm⟩
    · exact List.pairwise_cons.mpr ⟨fun m hm => (hgenuine m hm).1, hapart⟩
  | case3 position c rest hnomatch ih =>
    have hrest : value.drop (position + 1) = rest := by
      rw [← List.drop_drop, hdrop, List.drop_succ_cons, List.drop_zero]
    obtain ⟨hgenuine, hapart⟩ := ih hrest
    refine ⟨?_, hapart⟩
    intro m hm
    obtain ⟨hstart, hm⟩ := hgenuine m hm
    exact ⟨by omega, hm⟩

/-- The matches of a search with at least one pattern are genuine and do not overlap. -/
theorem search_matches_genuine (patterns : List Pattern) (value : String) (hne : patterns ≠ []) :
    (∀ m ∈ search patterns value, Match.Genuine patterns value.toList m) ∧
    (search patterns value).Pairwise fun m m' => m.stop ≤ m'.start := by
  rw [search, List.isEmpty_eq_false_iff.mpr hne, if_neg Bool.false_ne_true]
  obtain ⟨hgenuine, hapart⟩ := searchFrom_genuine patterns 0 value.toList rfl
  exact ⟨fun m hm => (hgenuine m hm).2, hapart⟩

/-- Two patterns have a word at the same position, and the one that is listed first wins. -/
theorem search_matches_genuine_shared_start :
    [Pattern.base64, .apiKey] ≠ [] ∧
    Match.Genuine [.base64, .apiKey] "0123456789abcdef0123456789abcdef==".toList
      { pattern := some .base64, text := "0123456789abcdef0123456789abcdef==", start := 0,
        stop := 34 } := by
  have hne : [Pattern.base64, .apiKey] ≠ [] := by decide
  have hsearch : search [.base64, .apiKey] "0123456789abcdef0123456789abcdef==" =
      [{ pattern := some .base64, text := "0123456789abcdef0123456789abcdef==", start := 0,
         stop := 34 }] := by
    decide +kernel
  refine ⟨hne, (search_matches_genuine _ _ hne).1 _ ?_⟩
  rw [hsearch]
  exact List.mem_singleton_self _

end ScriptAudit.Secret
