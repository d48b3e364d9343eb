import Mathlib.Data.List.TakeWhile
import ScriptAudit.Proofs.Scan.Isolation
import ScriptAudit.Proofs.Secret.Search

/-!
# How much of a secret a message shows

The message about a secret ends with the beginning of its text, cut off behind twenty characters and
followed by three dots. Whether a reader of the message can still see the whole secret is settled
here for every match of a search.

The text of a match cannot begin in the fixed words of the message, because no pattern has a word
there, whatever follows. Nor can it begin behind the first character that is shown: it would then be
a copy of itself moved towards the dots, hence nothing but dots, and no word begins with a dot. So
the message shows the whole secret if and only if what the cut takes away is put back by the dots.
That is so for a text of at most twenty characters, and for one whose further characters are up to
three dots.
-/

set_option autoImplicit false

namespace ScriptAudit

open scoped Computability

namespace Secret

/-- The words in front of the beginning of a secret. -/
def notice : List Char := "found hardcoded secret - ".toList

/-- The mark behind the beginning of a secret. -/
def cutMark : List Char := "...".toList

/-! ## No secret begins in the notice -/

/-- A run that starts in the notice ends in it, at a blank. -/
theorem afterRun?_notice {least : ℕ} {p : Char → Bool} (hblank : p ' ' = false)
    (hshort : ∀ i < notice.length, ((notice.drop i).takeWhile p).length < least) {i : ℕ}
    (hi : i < notice.length) (t : List Char) : afterRun? least p (notice.drop i ++ t) = none := by
  have hlast : ' ' ∈ notice.drop i := by
    have hall : ∀ i < notice.length, ' ' ∈ notice.drop i := by decide
    exact hall i hi
  have hrun : (notice.drop i ++ t).takeWhile p = (notice.drop i).takeWhile p := by
    rw [List.takeWhile_append, if_neg]
    intro hlength
    have hwhole := (List.takeWhile_prefix p).eq_of_length hlength
    have hp := List.takeWhile_eq_self_iff.mp hwhole ' ' hlast
    rw [hblank] at hp
    cases hp
  rw [afterRun?, hrun, if_neg (Nat.not_le_of_lt (hshort i hi))]

/-- A fixed word starts in the notice only if one of the two goes on as the other does. -/
theorem afterWord?_notice {word : String} {i : ℕ}
    (h : ¬ word.toList <+: notice.drop i ∧ ¬ notice.drop i <+: word.toList) (t : List Char) :
    afterWord? word (notice.drop i ++ t) = none := by
  apply if_neg
  intro hword
  rcases List.prefix_or_prefix_of_prefix (List.isPrefixOf_iff_prefix.mp hword)
    (List.prefix_append (notice.drop i) t) with hle | hge
  · exact h.1 hle
  · exact h.2 hge

/-- No match of a pattern begins in the notice. -/
theorem rest?_notice (p : Pattern) {i : ℕ} (hi : i < notice.length) (t : List Char) :
    p.rest? (notice.drop i ++ t) = none := by
  have hapart : ∀ word ∈ ["eyJ", "password", "token", "https://", "http://", "mongodb+srv://",
      "mongodb://"], ∀ i < notice.length,
      ¬ word.toList <+: notice.drop i ∧ ¬ notice.drop i <+: word.toList := by
    decide
  have hnone (word : String) (hword : word ∈ ["eyJ", "password", "token", "https://", "http://",
      "mongodb+srv://", "mongodb://"]) : afterWord? word (notice.drop i ++ t) = none :=
    afterWord?_notice (hapart word hword i hi) t
  cases p with
  | apiKey => exact afterRun?_notice (by decide) (by decide) hi t
  | base64 =>
    rw [Pattern.rest?, afterRun?_notice (by decide) (by decide) hi, Option.map_none]
  | jwt =>
    rw [Pattern.rest?, hnone "eyJ" (by decide)]
    rfl
  | credential =>
    -- the notice itself names a secret, but no delimiter follows
    by_cases hsecret : i = 16
    · subst hsecret
      rfl
    · have hother : ∀ i < notice.length, i ≠ 16 →
          ¬ "secret".toList <+: notice.drop i ∧ ¬ notice.drop i <+: "secret".toList := by
        decide
      rw [Pattern.rest?, afterWord?_notice (hother i hi hsecret), hnone "password" (by decide),
        hnone "token" (by decide)]
      rfl
  | url =>
    rw [Pattern.rest?, hnone "https://" (by decide), hnone "http://" (by decide)]
    rfl
  | mongodb =>
    rw [Pattern.rest?, hnone "mongodb+srv://" (by decide), hnone "mongodb://" (by decide)]
    rfl

/-! ## Where a secret stands in its message -/

/-- No secret begins with a dot. -/
theorem dot_notMem_head? {p : Pattern} {w : List Char} (hw : w ∈ p.language) :
    '.' ∉ w.head? := by
  intro hhead
  obtain ⟨t, rfl⟩ := List.head?_eq_some_iff.mp hhead
  have hnone : p.rest? ('.' :: t) = none := by cases p <;> rfl
  have hsome := (longest_rest p).isSome_of_begins hw List.prefix_rfl
  rw [hnone] at hsome
  cases hsome

/-- A text that stands in a cut copy of itself, but not at its beginning, consists of characters of
the mark behind the cut. -/
theorem getElem_mem_of_prefix_drop {w mark : List Char} {cut shift : ℕ} (hshift : 0 < shift)
    (h : w <+: (w.take cut ++ mark).drop shift) (i : ℕ) (hi : i < w.length) : w[i] ∈ mark := by
  have hcopy : (w.take cut ++ mark)[shift + i]? = some w[i] := by
    rw [← List.getElem?_drop]
    exact List.prefix_iff_getElem?.mp h i hi
  -- the character has a copy further behind, and the last copy stands in the mark
  by_cases hcut : shift + i < (w.take cut).length
  · have hnext : shift + i < w.length := Nat.lt_of_lt_of_le hcut (List.length_take_le' _ _)
    have hsame : w[shift + i] = w[i] := by
      rw [List.getElem?_append_left hcut, List.getElem?_eq_getElem hcut, List.getElem_take,
        Option.some.injEq] at hcopy
      exact hcopy
    rw [← hsame]
    exact getElem_mem_of_prefix_drop hshift h (shift + i) hnext
  · rw [List.getElem?_append_right (Nat.le_of_not_lt hcut)] at hcopy
    exact List.mem_of_getElem? hcopy
termination_by w.length - i

/-- A message shows a whole secret if and only if the mark puts back what the cut took away. -/
theorem isInfix_message_iff {p : Pattern} {w : List Char} (hw : w ∈ p.language) :
    w <:+: notice ++ (w.take previewLength ++ cutMark) ↔ w.drop previewLength <+: cutMark := by
  constructor
  · rintro ⟨before, behind, h⟩
    rw [List.append_assoc] at h
    have hrest : w ++ behind =
        (notice ++ (w.take previewLength ++ cutMark)).drop before.length := by
      rw [← h, List.drop_left]
    rcases Nat.lt_trichotomy before.length notice.length with hlt | heq | hgt
    · -- the secret would begin in the notice
      rw [List.drop_append_of_le_length (Nat.le_of_lt hlt)] at hrest
      have hsome := (longest_rest p).isSome_of_begins hw ⟨behind, hrest⟩
      rw [rest?_notice p hlt] at hsome
      cases hsome
    · have hwhole : w.take previewLength ++ (w.drop previewLength ++ behind) =
          w.take previewLength ++ cutMark := by
        rw [← List.append_assoc, List.take_append_drop, hrest, heq, List.drop_left]
      exact ⟨behind, List.append_cancel_left hwhole⟩
    · -- the secret would begin behind its first character and so be made of dots
      have hshift : 0 < before.length - notice.length := Nat.sub_pos_of_lt hgt
      have hcopy :
          w <+: (w.take previewLength ++ cutMark).drop (before.length - notice.length) := by
        refine ⟨behind, ?_⟩
        rw [hrest, List.drop_append, List.drop_eq_nil_of_le (Nat.le_of_lt hgt), List.nil_append]
      cases w with
      | nil => exact absurd hw (nil_notMem_language p)
      | cons c rest =>
        have hdot : c ∈ cutMark := getElem_mem_of_prefix_drop hshift hcopy 0 (Nat.succ_pos _)
        have hc : c = '.' := by simpa [cutMark] using hdot
        exact absurd (hc ▸ rfl) (dot_notMem_head? hw)
  · intro h
    have hpreview : w <+: w.take previewLength ++ cutMark := by
      have hwhole := (List.prefix_append_right_inj (w.take previewLength)).mpr h
      rwa [List.take_append_drop] at hwhole
    exact hpreview.isInfix.trans (List.suffix_append _ _).isInfix

/-! ## Which kinds of secrets are shown -/

/-- A word ends as its last part does. -/
theorem exists_getLast?_eq_of_mem_mul {l m : Language Char} {w : List Char} (hw : w ∈ l * m)
    (hne : [] ∉ m) : ∃ v ∈ m, w.getLast? = v.getLast? := by
  obtain ⟨u, -, v, hv, rfl⟩ := Language.mem_mul.mp hw
  refine ⟨v, hv, List.getLast?_append_of_ne_nil u ?_⟩
  rintro rfl
  exact hne hv

/-- Only addresses and connection strings can end with a dot. -/
theorem dot_notMem_getLast? {p : Pattern} (hurl : p ≠ .url) (hmongodb : p ≠ .mongodb)
    {w : List Char} (hw : w ∈ p.language) : '.' ∉ w.getLast? := by
  have halnum : ¬ Alnum '.' := by
    rw [← isAlnum_iff]
    decide
  cases p with
  | apiKey =>
    intro hlast
    exact halnum ((mem_atLeast_oneOf.mp hw).2 '.' (List.mem_of_getLast? hlast))
  | base64 =>
    intro hlast
    obtain ⟨u, hu, v, hv, rfl⟩ := Language.mem_mul.mp hw
    have hpadding : word "=" = oneOf (· = '=') := word_eq_oneOf rfl
    rw [hpadding] at hv
    rcases List.mem_append.mp (List.mem_of_getLast? hlast) with hdot | hdot
    · have hclass := (mem_atLeast_oneOf.mp hu).2 '.' hdot
      simp [halnum] at hclass
    · have hclass := (mem_atMost_oneOf.mp hv).2 '.' hdot
      simp at hclass
  | jwt =>
    intro hlast
    obtain ⟨v, hv, hend⟩ := exists_getLast?_eq_of_mem_mul hw fun hnil =>
      absurd (mem_atLeast_oneOf.mp hnil).1 (by decide)
    rw [hend] at hlast
    have hclass := (mem_atLeast_oneOf.mp hv).2 '.' (List.mem_of_getLast? hlast)
    simp [halnum] at hclass
  | credential =>
    intro hlast
    obtain ⟨v, ⟨c, hquote, rfl⟩, hend⟩ := exists_getLast?_eq_of_mem_mul hw fun hnil => by
      simp at hnil
    rw [hend, List.getLast?_singleton, Option.mem_some_iff] at hlast
    rw [hlast, ← isQuote_iff] at hquote
    exact absurd hquote (by decide)
  | url => exact absurd rfl hurl
  | mongodb => exact absurd rfl hmongodb

/-- A secret that does not end in a dot is cut exactly if it is longer than the preview. -/
theorem drop_isPrefix_cutMark_iff {p : Pattern} (hurl : p ≠ .url) (hmongodb : p ≠ .mongodb)
    {w : List Char} (hw : w ∈ p.language) :
    w.drop previewLength <+: cutMark ↔ w.length ≤ previewLength := by
  rw [← List.drop_eq_nil_iff]
  constructor
  · intro h
    by_contra hne
    have hlast : (w.drop previewLength).getLast? = w.getLast? := by
      conv_rhs => rw [← List.take_append_drop previewLength w]
      exact (List.getLast?_append_of_ne_nil _ hne).symm
    obtain ⟨c, hc⟩ := List.getLast?_isSome.mpr hne |> Option.isSome_iff_exists.mp
    have hdot : c = '.' := by
      have hmem : c ∈ cutMark := h.subset (List.mem_of_getLast? hc)
      simpa [cutMark] using hmem
    rw [hlast, hdot] at hc
    exact dot_notMem_getLast? hurl hmongodb hw hc
  · intro h
    rw [h]
    exact List.nil_prefix

end Secret

namespace Rule

open ScriptAudit.Secret

/-- A message is the notice, the beginning of the secret and the dots. -/
theorem toList_secretMessage (m : Match) :
    ("found hardcoded secret - " ++ m.preview).toList =
      notice ++ (m.text.toList.take previewLength ++ cutMark) := by
  have hpreview : m.preview.toList = m.text.toList.take previewLength ++ cutMark := by
    rw [Match.preview, Secret.preview, String.toList_append, String.toList_ofList]
    rfl
  rw [String.toList_append, hpreview]
  rfl

/-- **A message shows the whole secret if and only if the cut takes nothing away that the dots do
not put back.** A check of a string literal at a proper place goes well and reports each match of
the search in its value once, in order. The message shows the first twenty characters of the match
and dots behind them, so the text of the match is a part of the message exactly when what follows
its first twenty characters is nothing but up to three dots. For every kind other than addresses and
connection strings that means a text of at most twenty characters; keys are longer, so they are
never shown. -/
theorem check_shows_secret_iff (tree : Option Node) (head : Head) (s : String)
    (raw : Option String) (hline : 1 ≤ head.line) (hcolumn : 1 ≤ head.column) :
    ∃ ds, hardcodedSecret.check tree (.literal head (.text s) raw) = .ok ds ∧
      List.Forall₂ (fun m d =>
        d.ruleId = "hardcoded-secret" ∧
        d.message.toList =
          "found hardcoded secret - ".toList ++ (m.text.toList.take 20 ++ "...".toList) ∧
        (m.text.toList <:+: d.message.toList ↔ m.text.toList.drop 20 <+: "...".toList) ∧
        (m.pattern ≠ some .url → m.pattern ≠ some .mongodb →
          (m.text.toList <:+: d.message.toList ↔ m.text.length ≤ 20)) ∧
        (m.pattern = some .apiKey → ¬ m.text.toList <:+: d.message.toList))
        (search Pattern.all s) ds := by
  let n : Node := .literal head (.text s) raw
  have hgood : ∃ ds, hardcodedSecret.check tree n = .ok ds := by
    apply exists_mapM_eq_ok
    intro remark hremark
    obtain ⟨m, -, rfl⟩ := List.mem_map.mp hremark
    exact Remark.exists_diagnostic_eq_ok _ _ hline hcolumn
  obtain ⟨ds, hds⟩ := hgood
  refine ⟨ds, hds, ?_⟩
  have hall : List.Forall₂ (fun m d => (⟨head, .warning, "found hardcoded secret - " ++ m.preview⟩ :
      Remark).diagnostic hardcodedSecret = .ok d) (search Pattern.all s) ds :=
    List.forall₂_map_left_iff.mp (forall₂_of_mapM_eq_ok hds)
  have hgenuine : ∀ m ∈ search Pattern.all s, m.Genuine Pattern.all s.toList := fun m hm =>
    ((searchFrom_genuine Pattern.all 0 s.toList rfl).1 m hm).2
  refine (List.forall₂_and_left _ _ |>.mpr ⟨hgenuine, hall⟩).imp ?_
  rintro m d ⟨hm, hd⟩
  obtain ⟨before, p, after, -, hpattern, -, -, hword, -⟩ := hm.labelled
  obtain ⟨hrule, -, hmessage, -⟩ := Remark.fields_of_diagnostic hd
  have hcut : d.message.toList = notice ++ (m.text.toList.take previewLength ++ cutMark) := by
    rw [hmessage, toList_secretMessage]
  have hshown : m.text.toList <:+: d.message.toList ↔
      m.text.toList.drop previewLength <+: cutMark := by
    rw [hcut, isInfix_message_iff hword]
  have hlength : p ≠ .url → p ≠ .mongodb →
      (m.text.toList <:+: d.message.toList ↔ m.text.length ≤ previewLength) := by
    intro hurl hmongodb
    rw [hshown, drop_isPrefix_cutMark_iff hurl hmongodb hword, String.length_toList]
  refine ⟨hrule, hcut, hshown, ?_, ?_⟩
  · rw [hpattern]
    intro hurl hmongodb
    exact hlength (fun h => hurl (h ▸ rfl)) fun h => hmongodb (h ▸ rfl)
  · intro hkey hinfix
    obtain rfl : p = .apiKey := Option.some.inj (hpattern.symm.trans hkey)
    have hlong : 32 ≤ m.text.toList.length := (mem_atLeast_oneOf.mp hword).1
    have hshort : m.text.length ≤ 20 := (hlength (by decide) (by decide)).mp hinfix
    rw [String.length_toList] at hlong
    omega

/-- An address of twenty-two characters, of which the last two are dots. -/
def dottedAddress : Node :=
  .literal ⟨"Literal", 0, 24, 1, 1⟩ (.text "http://db.example.co..") none

/-- The dots behind the preview are taken for those of the address. -/
theorem check_shows_secret_iff_dottedAddress :
    1 ≤ dottedAddress.head.line ∧ 1 ≤ dottedAddress.head.column ∧
      ∃ d, hardcodedSecret.check none dottedAddress = .ok [d] ∧
        "http://db.example.co..".toList <:+: d.message.toList := by
  have hsearch : search Pattern.all "http://db.example.co.." =
      [{ pattern := some .url, text := "http://db.example.co..", start := 0, stop := 22 }] := by
    decide +kernel
  obtain ⟨ds, hds, hall⟩ := check_shows_secret_iff none dottedAddress.head "http://db.example.co.."
    none (by decide) (by decide)
  rw [hsearch, List.forall₂_cons_left_iff] at hall
  obtain ⟨d, rest, hd, hrest, rfl⟩ := hall
  obtain rfl := List.forall₂_nil_left_iff.mp hrest
  exact ⟨by decide, by decide, d, hds, hd.2.2.1.mpr (by decide)⟩

/-- A short secret is shown from its first to its last character. -/
theorem check_shows_short_secret :
    ∃ m d, search Pattern.all "token='x'" = [m] ∧
      hardcodedSecret.check none (.literal ⟨"Literal", 0, 11, 1, 1⟩ (.text "token='x'") none) =
        .ok [d] ∧
      m.text = "token='x'" ∧ d.message = "found hardcoded secret - token='x'..." ∧
      m.text.toList <:+: d.message.toList := by
  refine ⟨⟨some .credential, "token='x'", 0, 9⟩,
    { ruleId := "hardcoded-secret", severity := .warning,
      message := "found hardcoded secret - token='x'...", line := 1, column := some 1,
      line_pos := Nat.le_refl 1, column_pos := Diagnostic.present_pos (Nat.le_refl 1) }, ?_⟩
  decide +kernel

end Rule

end ScriptAudit
