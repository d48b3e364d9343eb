import Mathlib.Data.List.Nodup
import ScriptAudit.FileTree.Canonical

/-!
# The order of a listing

A directory is a list of entries, and so it has an order in which it lists them. Where names occur
once in every directory this order cannot be seen by looking a name up. Two listings are reordered
if one becomes the other by permuting the entries of directories at any depth; then a look-up in
both gives the same thing, up to the order of a directory that it ends in.

Following a path and resolving it are nothing but look-ups, so they lead to the same place in a tree
with another order.
-/

set_option autoImplicit false

namespace ScriptAudit

/-! ## Names that occur once -/

mutual
/-- Names occur once in every directory of an entry. -/
def Entry.Distinct : Entry → Prop
  | .file _ _ => True
  | .directory _ entries => Entry.DistinctIn entries
  | .link _ => True
  | .special => True

/-- Names occur once among some entries, and in every directory of them. -/
def Entry.DistinctIn : List (String × Entry) → Prop
  | [] => True
  | (name, entry) :: rest =>
    name ∉ rest.map Prod.fst ∧ Entry.Distinct entry ∧ Entry.DistinctIn rest
end

/-- What holds of a listing whenever it holds of the listings of its directories holds of every
listing. -/
theorem Entry.induction_inner {motive : List (String × Entry) → Prop}
    (step : ∀ entries, (∀ name refusal inner, (name, .directory refusal inner) ∈ entries →
      motive inner) → motive entries)
    (entries : List (String × Entry)) : motive entries :=
  step entries fun _ _ inner _ => induction_inner step inner
termination_by sizeOf entries
decreasing_by
  rename_i name refusal hmem
  have hlt := List.sizeOf_lt_of_mem hmem
  simp only [Prod.mk.sizeOf_spec, Entry.directory.sizeOf_spec] at hlt
  omega

/-- Names occur once in a listing if they do so at its top and in each of its entries. -/
theorem Entry.distinctIn_iff (entries : List (String × Entry)) :
    Entry.DistinctIn entries ↔
      (entries.map Prod.fst).Nodup ∧ ∀ x ∈ entries, Entry.Distinct x.2 := by
  induction entries with
  | nil => simp [Entry.DistinctIn]
  | cons x rest ih =>
    obtain ⟨name, entry⟩ := x
    rw [Entry.DistinctIn, ih, List.map_cons, List.nodup_cons, List.forall_mem_cons]
    tauto

namespace FileTree

/-- An entry that is found by name is listed under that name. -/
theorem mem_of_entryNamed? {name : String} {entries : List (String × Entry)} {entry : Entry}
    (h : entryNamed? name entries = some entry) : (name, entry) ∈ entries := by
  obtain ⟨x, hx, rfl⟩ := Option.map_eq_some_iff.mp h
  have hname : x.1 = name := by simpa using List.find?_some hx
  rw [← hname]
  exact List.mem_of_find?_eq_some hx

/-- Where names occur once, a name stands for the one entry that has it. -/
theorem entryNamed?_eq_some_iff {entries : List (String × Entry)}
    (h : (entries.map Prod.fst).Nodup) {name : String} {entry : Entry} :
    entryNamed? name entries = some entry ↔ (name, entry) ∈ entries := by
  refine ⟨mem_of_entryNamed?, ?_⟩
  intro hmem
  induction entries with
  | nil => cases hmem
  | cons x rest ih =>
    rw [List.map_cons, List.nodup_cons] at h
    rcases List.mem_cons.mp hmem with rfl | hmem
    · simp [entryNamed?]
    · have hne : x.1 ≠ name := by
        rintro rfl
        exact h.1 (List.mem_map.mpr ⟨_, hmem, rfl⟩)
      have hrest := ih h.2 hmem
      rw [entryNamed?] at hrest ⊢
      rw [List.find?_cons_of_neg (by simpa using hne)]
      exact hrest

/-- A single name is looked up in the listing itself. -/
theorem entryAt?_singleton (entries : List (String × Entry)) (name : String) :
    entryAt? entries [name] = entryNamed? name entries := by
  rw [entryAt?]

/-- The first of several names leads to a directory, in which the others are looked up. -/
theorem entryAt?_cons {entries : List (String × Entry)} {name : String} {names : List String}
    (h : names ≠ []) :
    entryAt? entries (name :: names) =
      match entryNamed? name entries with
      | some (.directory _ inner) => entryAt? inner names
      | _ => none := by
  cases names with
  | nil => exact absurd rfl h
  | cons next names => rfl

/-- Names occur once in every entry of a listing in which they do so. -/
theorem distinct_of_entryAt? {entries : List (String × Entry)} {names : List String}
    {entry : Entry} (h : Entry.DistinctIn entries) (hentry : entryAt? entries names = some entry) :
    entry.Distinct := by
  induction names generalizing entries with
  | nil =>
    rw [entryAt?, Option.some.injEq] at hentry
    rw [← hentry]
    exact h
  | cons name names ih =>
    have hnamed {e : Entry} (he : entryNamed? name entries = some e) : e.Distinct :=
      ((Entry.distinctIn_iff entries).mp h).2 _ (mem_of_entryNamed? he)
    by_cases hlast : names = []
    · rw [hlast, entryAt?_singleton] at hentry
      exact hnamed hentry
    · rw [entryAt?_cons hlast] at hentry
      split at hentry
      · rename_i inner hinner
        exact ih (hnamed hinner) hentry
      · cases hentry

end FileTree

/-! ## Reordered listings -/

/-- Two listings that differ in nothing but the order in which directories, at any depth, list their
entries. -/
inductive Entry.Reordered : List (String × Entry) → List (String × Entry) → Prop
  | nil : Reordered [] []
  | cons {as bs : List (String × Entry)} (x : String × Entry) (h : Reordered as bs) :
    Reordered (x :: as) (x :: bs)
  | inside {as bs : List (String × Entry)} (name : String) (refusal : Option FileFault)
    (rest : List (String × Entry)) (h : Reordered as bs) :
    Reordered ((name, .directory refusal as) :: rest) ((name, .directory refusal bs) :: rest)
  | swap (x y : String × Entry) (rest : List (String × Entry)) :
    Reordered (x :: y :: rest) (y :: x :: rest)
  | trans {as bs cs : List (String × Entry)} (h : Reordered as bs) (h' : Reordered bs cs) :
    Reordered as cs

/-- Two entries that are the same, or directories with reordered listings. -/
inductive Entry.Alike : Entry → Entry → Prop
  | same (entry : Entry) : Alike entry entry
  | directory {as bs : List (String × Entry)} (refusal : Option FileFault)
    (h : Entry.Reordered as bs) : Alike (.directory refusal as) (.directory refusal bs)

namespace Entry

variable {as bs : List (String × Entry)}

/-- A listing is an order of itself. -/
theorem Reordered.refl (as : List (String × Entry)) : Reordered as as := by
  induction as with
  | nil => exact .nil
  | cons x as ih => exact .cons x ih

/-- Reordering can be undone. -/
theorem Reordered.symm (h : Reordered as bs) : Reordered bs as := by
  induction h with
  | nil => exact .nil
  | cons x _ ih => exact .cons x ih
  | inside name refusal rest _ ih => exact .inside name refusal rest ih
  | swap x y rest => exact .swap y x rest
  | trans _ _ ih ih' => exact .trans ih' ih

/-- Entries that are like a third one are like each other. -/
theorem Alike.trans {d e f : Entry} (h : Alike d e) (h' : Alike e f) : Alike d f := by
  cases h with
  | same => exact h'
  | directory refusal h =>
    cases h' with
    | same => exact .directory refusal h
    | directory _ h' => exact .directory refusal (h.trans h')

/-- Like a directory are only directories with the same refusal and a reordered listing. -/
theorem Alike.of_directory {refusal : Option FileFault} {e : Entry}
    (h : Alike (.directory refusal as) e) : ∃ bs, e = .directory refusal bs ∧ Reordered as bs := by
  cases h with
  | same => exact ⟨as, rfl, .refl as⟩
  | directory _ h => exact ⟨_, rfl, h⟩

/-- Reordering permutes the names. -/
theorem Reordered.map_fst_perm (h : Reordered as bs) :
    (as.map Prod.fst).Perm (bs.map Prod.fst) := by
  induction h with
  | nil => exact .nil
  | cons x _ ih => exact ih.cons x.1
  | inside name _ _ _ _ => exact .refl _
  | swap x y rest => exact .swap _ _ _
  | trans _ _ ih ih' => exact ih.trans ih'

/-- Every entry of a listing stands in a reordered one, possibly reordered itself. -/
theorem Reordered.exists_alike (h : Reordered as bs) {name : String} {entry : Entry}
    (hmem : (name, entry) ∈ as) : ∃ other, (name, other) ∈ bs ∧ Alike entry other := by
  induction h generalizing entry with
  | nil => cases hmem
  | cons x _ ih =>
    rcases List.mem_cons.mp hmem with rfl | hmem
    · exact ⟨entry, List.mem_cons_self, .same entry⟩
    · obtain ⟨other, hother, halike⟩ := ih hmem
      exact ⟨other, List.mem_cons_of_mem _ hother, halike⟩
  | inside name' refusal rest h _ =>
    rcases List.mem_cons.mp hmem with heq | hmem
    · cases heq
      exact ⟨_, List.mem_cons_self, .directory refusal h⟩
    · exact ⟨entry, List.mem_cons_of_mem _ hmem, .same entry⟩
  | swap x y rest =>
    have hsame : (name, entry) ∈ y :: x :: rest := (List.Perm.swap y x rest).subset hmem
    exact ⟨entry, hsame, .same entry⟩
  | trans _ _ ih ih' =>
    obtain ⟨other, hother, halike⟩ := ih hmem
    obtain ⟨third, hthird, halike'⟩ := ih' hother
    exact ⟨third, hthird, halike.trans halike'⟩

/-- Reordering keeps the number of links. -/
theorem Reordered.linkCountIn_eq (h : Reordered as bs) : linkCountIn as = linkCountIn bs := by
  induction h with
  | nil => rfl
  | cons x _ ih => rw [linkCountIn, linkCountIn, ih]
  | inside name refusal rest _ ih => rw [linkCountIn, linkCountIn, linkCount, linkCount, ih]
  | swap x y rest =>
    simp only [linkCountIn]
    omega
  | trans _ _ ih ih' => rw [ih, ih']

end Entry

namespace FileTree

variable {as bs : List (String × Entry)}

/-- A name stands for the same thing in a reordered listing. -/
theorem entryNamed?_of_reordered (h : Entry.Reordered as bs) (hnames : (as.map Prod.fst).Nodup)
    (name : String) :
    Option.Rel Entry.Alike (entryNamed? name as) (entryNamed? name bs) := by
  have hnames' : (bs.map Prod.fst).Nodup := h.map_fst_perm.nodup_iff.mp hnames
  cases ha : entryNamed? name as with
  | none =>
    cases hb : entryNamed? name bs with
    | none => exact .none
    | some other =>
      obtain ⟨entry, hentry, -⟩ := h.symm.exists_alike (mem_of_entryNamed? hb)
      rw [(entryNamed?_eq_some_iff hnames).mpr hentry] at ha
      cases ha
  | some entry =>
    obtain ⟨other, hother, halike⟩ := h.exists_alike (mem_of_entryNamed? ha)
    rw [(entryNamed?_eq_some_iff hnames').mpr hother]
    exact .some halike

/-- A place holds the same thing in a reordered listing. -/
theorem entryAt?_of_reordered (h : Entry.Reordered as bs) (hdistinct : Entry.DistinctIn as)
    (names : List String) :
    Option.Rel Entry.Alike (entryAt? as names) (entryAt? bs names) := by
  have hrefl (e : Option Entry) : Option.Rel Entry.Alike e e := by
    cases e with
    | none => exact .none
    | some entry => exact .some (.same entry)
  induction names generalizing as bs with
  | nil =>
    rw [entryAt?, entryAt?]
    exact .some (.directory none h)
  | cons name names ih =>
    obtain ⟨hnames, hinner⟩ := (Entry.distinctIn_iff as).mp hdistinct
    have hnamed := entryNamed?_of_reordered h hnames name
    by_cases hlast : names = []
    · rw [hlast, entryAt?_singleton, entryAt?_singleton]
      exact hnamed
    · rw [entryAt?_cons hlast, entryAt?_cons hlast]
      have hentry {e : Entry} (he : entryNamed? name as = some e) : e.Distinct :=
        hinner _ (mem_of_entryNamed? he)
      generalize entryNamed? name as = a at hnamed hentry ⊢
      generalize entryNamed? name bs = b at hnamed ⊢
      cases hnamed with
      | none => exact .none
      | some halike =>
        cases halike with
        | same => exact hrefl _
        | directory refusal hreordered => exact ih hreordered (hentry rfl)

/-- In a reordered listing the same entry is found, unless it is a directory. -/
theorem entryAt?_eq_of_reordered (h : Entry.Reordered as bs) (hdistinct : Entry.DistinctIn as)
    {names : List String}
    (hother : ∀ refusal inner, entryAt? as names ≠ some (.directory refusal inner)) :
    entryAt? bs names = entryAt? as names := by
  have hat := entryAt?_of_reordered h hdistinct names
  generalize entryAt? as names = a at hat hother ⊢
  generalize entryAt? bs names = b at hat ⊢
  cases hat with
  | none => rfl
  | some halike =>
    cases halike with
    | same => rfl
    | directory refusal _ => exact absurd rfl (hother refusal _)

/-- In a reordered listing a directory is found again, with a reordered listing. -/
theorem exists_directory_of_reordered (h : Entry.Reordered as bs)
    (hdistinct : Entry.DistinctIn as) {names : List String} {refusal : Option FileFault}
    {inner : List (String × Entry)}
    (hdirectory : entryAt? as names = some (.directory refusal inner)) :
    ∃ other, entryAt? bs names = some (.directory refusal other) ∧
      Entry.Reordered inner other := by
  have hat := entryAt?_of_reordered h hdistinct names
  rw [hdirectory] at hat
  generalize entryAt? bs names = b at hat ⊢
  cases hat with
  | some halike =>
    obtain ⟨other, rfl, hreordered⟩ := halike.of_directory
    exact ⟨other, rfl, hreordered⟩

/-! ## Places in a reordered tree -/

variable {tree : FileTree}

/-- The tree with another listing. -/
def relisted (tree : FileTree) (entries : List (String × Entry)) : FileTree := { tree with entries }

/-- Links lead to the same place in a reordered listing. -/
theorem follow_relisted (h : Entry.Reordered tree.entries bs)
    (hdistinct : Entry.DistinctIn tree.entries) (links : Nat) (place todo : List String) :
    (tree.relisted bs).follow links place todo = tree.follow links place todo := by
  have hentries : (tree.relisted bs).entries = bs := rfl
  have hsame {names : List String}
      (hother : ∀ refusal inner, entryAt? tree.entries names ≠ some (.directory refusal inner)) :
      entryAt? (tree.relisted bs).entries names = entryAt? tree.entries names :=
    entryAt?_eq_of_reordered h hdistinct hother
  fun_induction follow tree links place todo with
  | case1 links place => rw [follow]
  | case2 links place rest ih => rw [follow, if_pos rfl, ih]
  | case3 links place rest hup ih => rw [follow, if_neg hup, if_pos rfl, ih]
  | case4 links place name rest hup hdot hlong =>
    rw [follow, if_neg hup, if_neg hdot, if_pos hlong]
  | case5 links place name rest hup hdot hlong hnone =>
    rw [follow, if_neg hup, if_neg hdot, if_neg hlong, hsame (by simp [hnone]), hnone]
  | case6 place name rest hup hdot hlong target hlink =>
    rw [follow, if_neg hup, if_neg hdot, if_neg hlong, hsame (by simp [hlink]), hlink]
  | case7 place name rest hup hdot hlong target hlink links ih =>
    rw [follow, if_neg hup, if_neg hdot, if_neg hlong, hsame (by simp [hlink]), hlink]
    exact ih
  | case8 links place name rest hup hdot hlong refusal inner hdirectory ih =>
    obtain ⟨other, hother, -⟩ := exists_directory_of_reordered h hdistinct hdirectory
    rw [follow, if_neg hup, if_neg hdot, if_neg hlong, hentries, hother]
    exact ih
  | case9 links place name hup hdot hlong entry hlink hdirectory hentry =>
    rw [follow, if_neg hup, if_neg hdot, if_neg hlong, hsame (by simp [hentry]; exact hdirectory),
      hentry]
    simp
  | case10 links place name rest hup hdot hlong entry hlink hdirectory hentry hrest =>
    rw [follow, if_neg hup, if_neg hdot, if_neg hlong, hsame (by simp [hentry]; exact hdirectory),
      hentry]
    simp [hrest]

/-- Names are resolved to the same place in a reordered listing. -/
theorem resolve_relisted (h : Entry.Reordered tree.entries bs)
    (hdistinct : Entry.DistinctIn tree.entries) (depth : Nat) (entered : List (List String))
    (place todo : List String) :
    (tree.relisted bs).resolve depth entered place todo =
      tree.resolve depth entered place todo := by
  have hlinked {names : List String} {target : LinkTarget}
      (hlink : entryAt? tree.entries names = some (.link target)) :
      entryAt? (tree.relisted bs).entries names = some (.link target) := by
    rw [← hlink]
    exact entryAt?_eq_of_reordered h hdistinct (by simp [hlink])
  fun_induction resolve tree depth entered place todo with
  | case1 depth entered place => rw [resolve.eq_def]
  | case2 depth entered place rest ih =>
    rw [resolve.eq_def]
    simpa using ih
  | case3 entered place name rest hup target hlink =>
    rw [resolve.eq_def]
    simp [hup, hlinked hlink]
  | case4 entered place name rest hup target hlink depth hentered =>
    rw [resolve.eq_def]
    simp only [hup, if_false, hlinked hlink, hentered, if_true]
  | case5 entered place name rest hup target hlink depth hentered resolved hresolved ih ihRest =>
    rw [resolve.eq_def]
    simp only [hup, if_false, hlinked hlink, hentered, Bool.false_eq_true, ih, hresolved, ihRest]
  | case6 entered place name rest hup target hlink depth hentered segments hlooping ih =>
    rw [resolve.eq_def]
    simp only [hup, if_false, hlinked hlink, hentered, Bool.false_eq_true, ih, hlooping]
  | case7 depth entered place name rest hup hlink ih =>
    rw [resolve.eq_def]
    simp only [hup, if_false]
    split
    · rename_i target htarget
      -- a link of the reordered tree is one of the tree itself
      have hback := entryAt?_of_reordered h hdistinct (place ++ [name])
      rw [show entryAt? bs (place ++ [name]) = some (.link target) from htarget] at hback
      generalize entryAt? tree.entries (place ++ [name]) = a at hback hlink
      cases hback with
      | some halike =>
        cases halike
        exact absurd rfl (hlink target)
    · exact ih

/-- Paths have the same canonical form in a reordered listing. -/
theorem canonical_relisted (h : Entry.Reordered tree.entries bs)
    (hdistinct : Entry.DistinctIn tree.entries) (path : Path) :
    (tree.relisted bs).canonical path = tree.canonical path := by
  have hlinks : Entry.linkCountIn (tree.relisted bs).entries = Entry.linkCountIn tree.entries :=
    h.linkCountIn_eq.symm
  rw [canonical, canonical, hlinks, resolve_relisted h hdistinct]
  rfl

/-- What is found at a path is what stands at the place that the path leads to. -/
theorem entry_eq_ok_iff {path : Path} {entry : Entry} :
    tree.entry path = .ok entry ↔
      ¬ maxPathBytes < (tree.absolute path).toText.utf8ByteSize ∧
        ∃ links place,
          tree.follow maxLinks [] (tree.absolute path).segments = .ok (links, place) ∧
          entryAt? tree.entries place = some entry := by
  unfold FileTree.entry
  by_cases hlong : maxPathBytes < (tree.absolute path).toText.utf8ByteSize
  · simp [hlong]
  · rw [if_neg hlong]
    rcases tree.follow maxLinks [] (tree.absolute path).segments with fault | ⟨links, place⟩
    · simp [bind, Except.bind]
    · simp only [bind, Except.bind]
      cases hat : entryAt? tree.entries place with
      | none => simp [hat]
      | some other => simp [hlong, hat]

/-- A directory is found at the same path of a reordered tree, with its listing reordered. -/
theorem exists_entry_relisted (h : Entry.Reordered tree.entries bs)
    (hdistinct : Entry.DistinctIn tree.entries) {path : Path} {refusal : Option FileFault}
    {entries : List (String × Entry)}
    (hentry : tree.entry path = .ok (.directory refusal entries)) :
    ∃ other, (tree.relisted bs).entry path = .ok (.directory refusal other) ∧
      Entry.Reordered entries other := by
  obtain ⟨hshort, links, place, hfollow, hat⟩ := entry_eq_ok_iff.mp hentry
  obtain ⟨other, hother, hreordered⟩ := exists_directory_of_reordered h hdistinct hat
  refine ⟨other, entry_eq_ok_iff.mpr ⟨hshort, links, place, ?_, hother⟩, hreordered⟩
  rw [follow_relisted h hdistinct]
  exact hfollow

/-- Names occur once in a directory of a tree in which they do so. -/
theorem distinctIn_of_entry (hdistinct : Entry.DistinctIn tree.entries) {path : Path}
    {refusal : Option FileFault} {entries : List (String × Entry)}
    (hentry : tree.entry path = .ok (.directory refusal entries)) : Entry.DistinctIn entries := by
  obtain ⟨-, links, place, -, hat⟩ := entry_eq_ok_iff.mp hentry
  exact distinct_of_entryAt? hdistinct hat

/-! ## The root of a tree -/

/-- The root is in canonical form. -/
theorem canonical_root (tree : FileTree) : tree.canonical (pathOf []) = pathOf [] := by
  have hsegments : (tree.absolute (pathOf [])).segments = [] := rfl
  rw [canonical, hsegments, resolve.eq_def]
  rfl

/-- At the root there is the listing of the tree. -/
theorem entry_root (tree : FileTree) :
    tree.entry (pathOf []) = .ok (.directory none tree.entries) := by
  have hfollow : tree.follow maxLinks [] [] = .ok (maxLinks, []) := by
    rw [follow]
  have habsolute : tree.absolute (pathOf []) = pathOf [] := rfl
  rw [entry_eq_ok_iff, habsolute]
  exact ⟨by decide, maxLinks, [], hfollow, rfl⟩

end FileTree

end ScriptAudit
