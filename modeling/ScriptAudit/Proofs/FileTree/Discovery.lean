import Mathlib.Data.List.Nodup
import ScriptAudit.FileTree.Discover
import ScriptAudit.Proofs.FileTree.Listing
import ScriptAudit.Proofs.FileTree.ScriptName
import ScriptAudit.Proofs.Text.Order

/-!
# The files that are found

A search that follows no links is a recursion over the listing alone, `scriptsIn`. Where names occur
once in every directory, it yields exactly the files that the options ask for and that can be
reached through directories it enters (`mem_scriptsIn`), each of them once (`nodup_scriptsIn`), and
another order of the listings only permutes what it yields (`scriptsIn_perm`).

Sorting then makes the result unique: paths below one root that are all different have one strict
order by their segments.
-/

set_option autoImplicit false

namespace ScriptAudit

/-- The path that leads from a directory along some names. -/
def Path.below (directory : Path) (names : List String) : Path :=
  { directory with segments := directory.segments ++ names }

/-- A name is the first of the names below its directory. -/
theorem Path.below_child (directory : Path) (name : String) (names : List String) :
    (directory.child name).below names = directory.below (name :: names) := by
  simp [below, child]

/-- A path ends in the name that was added last. -/
theorem Path.name_child (directory : Path) (name : String) :
    (directory.child name).name = name := by
  simp [Path.name, child]

namespace DiscoverOptions

/-- A file that is asked for, by its path. -/
@[mk_iff]
structure Accepts (options : DiscoverOptions) (path : Path) : Prop where
  script : Path.IsScriptName path.name
  plain : options.keepMinified = false → ¬ Path.IsMinifiedName path.name
  passes : ∀ keep ∈ options.filter, keep path = true

/-- The names lead to a regular file, and every name before the last one to a directory that is not
ignored and that can be listed. Names lead through no links. -/
structure Reaches (options : DiscoverOptions) (entries : List (String × Entry))
    (names : List String) : Prop where
  file : ∃ refusal bytes, FileTree.entryAt? entries names = some (.file refusal bytes)
  entered : ∀ before name behind, names = before ++ name :: behind → behind ≠ [] →
    name ∉ options.ignored ∧
      ∃ inner, FileTree.entryAt? entries (before ++ [name]) = some (.directory none inner)

variable {options : DiscoverOptions} {entries : List (String × Entry)} {name : String}
  {names : List String}

/-- What is asked for is tested by three conditions, one after another. -/
theorem accepts_iff_tests (path : Path) :
    options.Accepts path ↔ path.isScript = true ∧
      ¬ (path.isMinified && !options.keepMinified) = true ∧
      ¬ (options.filter.any fun keep => !keep path) = true := by
  have hplain : ¬ (path.isMinified && !options.keepMinified) = true ↔
      (options.keepMinified = false → ¬ Path.IsMinifiedName path.name) := by
    rw [← Path.isMinified_iff, Bool.and_eq_true, Bool.not_eq_true', not_and']
  have hpasses : ¬ (options.filter.any fun keep => !keep path) = true ↔
      ∀ keep ∈ options.filter, keep path = true := by
    cases options.filter with
    | none => simp
    | some keep => simp
  rw [hplain, hpasses, Path.isScript_iff, accepts_iff]

/-- At least one name leads to a file. -/
theorem Reaches.ne_nil (h : options.Reaches entries names) : names ≠ [] := by
  rintro rfl
  obtain ⟨refusal, bytes, hfile⟩ := h.file
  cases hfile

/-- A single name leads to a file of the listing itself. -/
theorem reaches_singleton_iff (h : (entries.map Prod.fst).Nodup) :
    options.Reaches entries [name] ↔ ∃ refusal bytes, (name, .file refusal bytes) ∈ entries := by
  simp only [← FileTree.entryNamed?_eq_some_iff h]
  constructor
  · intro hreaches
    exact hreaches.file
  · intro hfile
    refine ⟨hfile, ?_⟩
    intro before last behind hnames hbehind
    have hlength := congrArg List.length hnames
    rw [List.length_singleton, List.length_append, List.length_cons] at hlength
    have hpos := List.length_pos_iff.mpr hbehind
    omega

/-- Several names lead into a directory of the listing first. -/
theorem reaches_cons_iff (h : (entries.map Prod.fst).Nodup) (hnames : names ≠ []) :
    options.Reaches entries (name :: names) ↔
      name ∉ options.ignored ∧
        ∃ inner, (name, .directory none inner) ∈ entries ∧ options.Reaches inner names := by
  simp only [← FileTree.entryNamed?_eq_some_iff h]
  constructor
  · intro hreaches
    obtain ⟨hallowed, inner, hinner⟩ := hreaches.entered [] name names rfl hnames
    rw [List.nil_append, FileTree.entryAt?_singleton] at hinner
    obtain ⟨refusal, bytes, hfile⟩ := hreaches.file
    rw [FileTree.entryAt?_cons hnames, hinner] at hfile
    refine ⟨hallowed, inner, hinner, ⟨refusal, bytes, hfile⟩, ?_⟩
    intro before last behind hsplit hbehind
    obtain ⟨hother, deeper, hdeeper⟩ :=
      hreaches.entered (name :: before) last behind (by rw [hsplit]; rfl) hbehind
    rw [List.cons_append, FileTree.entryAt?_cons (by simp), hinner] at hdeeper
    exact ⟨hother, deeper, hdeeper⟩
  · rintro ⟨hallowed, inner, hinner, hreaches⟩
    obtain ⟨refusal, bytes, hfile⟩ := hreaches.file
    refine ⟨⟨refusal, bytes, ?_⟩, ?_⟩
    · rw [FileTree.entryAt?_cons hnames, hinner]
      exact hfile
    · intro before last behind hsplit hbehind
      cases before with
      | nil =>
        cases hsplit
        refine ⟨hallowed, inner, ?_⟩
        rw [List.nil_append, FileTree.entryAt?_singleton]
        exact hinner
      | cons first before =>
        cases hsplit
        obtain ⟨hother, deeper, hdeeper⟩ := hreaches.entered before last behind rfl hbehind
        refine ⟨hother, deeper, ?_⟩
        rw [List.cons_append, FileTree.entryAt?_cons (by simp), hinner]
        exact hdeeper

end DiscoverOptions

namespace FileTree

variable {options : DiscoverOptions}

/-! ## The search without links -/

mutual
/-- The files that an entry at a path yields if no link is followed. -/
def scriptsAt (options : DiscoverOptions) (path : Path) : Entry → List Path
  | .file _ _ => (considerFile options path).files
  | .directory refusal entries =>
    if path.isIgnored options.ignored || refusal.isSome then []
    else scriptsIn options path entries
  | .link _ => []
  | .special => []

/-- The files that the entries of a directory yield if no link is followed. -/
def scriptsIn (options : DiscoverOptions) (shown : Path) : List (String × Entry) → List Path
  | [] => []
  | (name, entry) :: rest =>
    scriptsAt options (shown.child name) entry ++ scriptsIn options shown rest
end

/-- The entries of a directory yield what each of them yields, in order. -/
theorem scriptsIn_eq_flatMap (shown : Path) (entries : List (String × Entry)) :
    scriptsIn options shown entries =
      entries.flatMap fun x => scriptsAt options (shown.child x.1) x.2 := by
  induction entries with
  | nil => rw [scriptsIn, List.flatMap_nil]
  | cons x rest ih => rw [scriptsIn, List.flatMap_cons, ih]

/-- A directory that can be listed yields what its content yields. -/
theorem files_listed (path : Path) (refusal : Option FileFault) (content : Found) :
    (listed path refusal content).files = if refusal.isSome then [] else content.files := by
  unfold listed
  split
  · rfl
  · rfl
  · rfl

/-- A directory that is neither ignored nor refused yields what its content yields. -/
theorem files_considerDirectory (path : Path) (refusal : Option FileFault) (content : Found) :
    (considerDirectory options path refusal content).files =
      if path.isIgnored options.ignored || refusal.isSome then [] else content.files := by
  unfold considerDirectory
  by_cases hignored : path.isIgnored options.ignored = true
  · rw [if_pos hignored, hignored, Bool.true_or, if_pos rfl]
    rfl
  · rw [if_neg hignored, files_listed, Bool.eq_false_iff.mpr hignored, Bool.false_or]

/-- Neither the place nor the links that are left matter where no link is followed. -/
theorem files_collect (tree : FileTree) (h : options.followLinks = false) (links : Nat)
    (place : List String) (shown : Path) (entries : List (String × Entry)) :
    (tree.collect options links place shown entries).files = scriptsIn options shown entries := by
  have happend (a b : Found) : (a.append b).files = a.files ++ b.files := rfl
  induction links, place, shown, entries using collect.induct tree options with
  | case1 links place shown =>
    rw [collect.eq_def, scriptsIn]
  | case2 links place shown name refusal bytes rest ih =>
    rw [collect.eq_def, scriptsIn, scriptsAt, happend, ih]
  | case3 links place shown name refusal inner rest ihInner ihRest =>
    rw [collect.eq_def, scriptsIn, scriptsAt, happend, files_considerDirectory, ihInner, ihRest]
  | case4 links place shown name rest ih =>
    rw [collect.eq_def, scriptsIn, scriptsAt, List.nil_append, ih]
  | case5 links place shown name target rest ihLink ihRest =>
    rw [collect.eq_def, scriptsIn, scriptsAt, happend, ihRest, h]
    rfl

/-! ## Exactness -/

/-- A file is kept if and only if it is asked for. -/
theorem files_considerFile (path : Path) [Decidable (options.Accepts path)] :
    (considerFile options path).files = if options.Accepts path then [path] else [] := by
  simp only [DiscoverOptions.accepts_iff_tests, considerFile]
  by_cases hscript : path.isScript = true
  · by_cases hminified : (path.isMinified && !options.keepMinified) = true
    · simp [hscript, hminified, Found.note]
    · by_cases hfilter : (options.filter.any fun keep => !keep path) = true
      · simp [hscript, hminified, hfilter, Found.note]
      · simp [hscript, hminified, hfilter]
  · simp [hscript]

/-- A file that is considered yields itself if it is asked for. -/
theorem mem_files_considerFile {path p : Path} :
    p ∈ (considerFile options path).files ↔ p = path ∧ options.Accepts path := by
  classical
  rw [files_considerFile]
  split
  · rename_i haccepts
    simp [haccepts]
  · rename_i haccepts
    simp [haccepts]

/-- A directory that is not ignored and can be listed yields what its entries yield, any other one
nothing. -/
theorem mem_scriptsAt_directory {shown p : Path} {name : String} {refusal : Option FileFault}
    {inner : List (String × Entry)} :
    p ∈ scriptsAt options (shown.child name) (.directory refusal inner) ↔
      name ∉ options.ignored ∧ refusal = none ∧
        p ∈ scriptsIn options (shown.child name) inner := by
  rw [scriptsAt, Path.isIgnored, Path.name_child]
  split
  · rename_i hrefused
    refine iff_of_false List.not_mem_nil ?_
    rintro ⟨hallowed, rfl, -⟩
    simp [hallowed] at hrefused
  · rename_i hlisted
    rw [Bool.or_eq_true, not_or, List.contains_iff_mem, Option.not_isSome_iff_eq_none] at hlisted
    simp only [hlisted, not_false_eq_true, true_and]

/-- The search yields exactly the files that are asked for and can be reached. -/
theorem mem_scriptsIn {entries : List (String × Entry)} (h : Entry.DistinctIn entries)
    (shown p : Path) :
    p ∈ scriptsIn options shown entries ↔
      ∃ names, p = shown.below names ∧ options.Reaches entries names ∧ options.Accepts p := by
  induction entries using Entry.induction_inner generalizing shown with
  | step entries ih =>
    obtain ⟨hnodup, hinner⟩ := (Entry.distinctIn_iff entries).mp h
    rw [scriptsIn_eq_flatMap, List.mem_flatMap]
    constructor
    · rintro ⟨⟨name, entry⟩, hmem, hp⟩
      cases entry with
      | file refusal bytes =>
        obtain ⟨rfl, haccepts⟩ := mem_files_considerFile.mp hp
        exact ⟨[name], rfl, (DiscoverOptions.reaches_singleton_iff hnodup).mpr ⟨_, _, hmem⟩,
          haccepts⟩
      | directory refusal inner =>
        obtain ⟨hallowed, rfl, hp⟩ := mem_scriptsAt_directory.mp hp
        obtain ⟨names, rfl, hreaches, haccepts⟩ :=
          (ih name none inner hmem (hinner _ hmem) (shown.child name)).mp hp
        refine ⟨name :: names, Path.below_child shown name names, ?_, haccepts⟩
        exact (DiscoverOptions.reaches_cons_iff hnodup hreaches.ne_nil).mpr
          ⟨hallowed, inner, hmem, hreaches⟩
      | link target => cases hp
      | special => cases hp
    · rintro ⟨names, rfl, hreaches, haccepts⟩
      cases names with
      | nil => exact absurd rfl hreaches.ne_nil
      | cons name names =>
        by_cases hlast : names = []
        · subst hlast
          obtain ⟨refusal, bytes, hmem⟩ :=
            (DiscoverOptions.reaches_singleton_iff hnodup).mp hreaches
          exact ⟨_, hmem, mem_files_considerFile.mpr ⟨rfl, haccepts⟩⟩
        · obtain ⟨hallowed, inner, hmem, hreaches⟩ :=
            (DiscoverOptions.reaches_cons_iff hnodup hlast).mp hreaches
          refine ⟨_, hmem, mem_scriptsAt_directory.mpr ⟨hallowed, rfl, ?_⟩⟩
          rw [ih name none inner hmem (hinner _ hmem) (shown.child name)]
          exact ⟨names, (Path.below_child shown name names).symm, hreaches, haccepts⟩

/-- What an entry yields lies at its path or below it. -/
theorem exists_below_of_mem_scriptsAt {path p : Path} {entry : Entry} (h : entry.Distinct)
    (hp : p ∈ scriptsAt options path entry) : ∃ names, p = path.below names := by
  cases entry with
  | file refusal bytes =>
    obtain ⟨rfl, -⟩ := mem_files_considerFile.mp hp
    exact ⟨[], by simp [Path.below]⟩
  | directory refusal inner =>
    rw [scriptsAt] at hp
    split at hp
    · cases hp
    · obtain ⟨names, hnames, -⟩ := (mem_scriptsIn h path p).mp hp
      exact ⟨names, hnames⟩
  | link target => cases hp
  | special => cases hp

/-- No file is found twice. -/
theorem nodup_scriptsIn {entries : List (String × Entry)} (h : Entry.DistinctIn entries)
    (shown : Path) : (scriptsIn options shown entries).Nodup := by
  induction entries using Entry.induction_inner generalizing shown with
  | step entries ih =>
    obtain ⟨hnodup, hinner⟩ := (Entry.distinctIn_iff entries).mp h
    rw [scriptsIn_eq_flatMap, List.nodup_flatMap]
    constructor
    · rintro ⟨name, entry⟩ hmem
      cases entry with
      | file refusal bytes =>
        classical
        simp only [scriptsAt, files_considerFile]
        split <;> simp
      | directory refusal inner =>
        simp only [scriptsAt]
        split
        · exact List.nodup_nil
        · exact ih name refusal inner hmem (hinner _ hmem) _
      | link target => exact List.nodup_nil
      | special => exact List.nodup_nil
    · -- the segment behind the shown path tells which entry a file was found in
      refine List.Pairwise.imp_of_mem ?_ (List.pairwise_map.mp hnodup)
      rintro ⟨name, entry⟩ ⟨name', entry'⟩ hmem hmem' hne p hp hp'
      obtain ⟨names, hnames⟩ := exists_below_of_mem_scriptsAt (hinner _ hmem) hp
      obtain ⟨names', hnames'⟩ := exists_below_of_mem_scriptsAt (hinner _ hmem') hp'
      rw [hnames, Path.below_child, Path.below_child] at hnames'
      have hsegments := List.append_cancel_left (congrArg Path.segments hnames')
      exact hne (List.cons.inj hsegments).1

/-! ## Order -/

/-- Another order of the listings changes nothing but the order of what is found. -/
theorem scriptsIn_perm {as bs : List (String × Entry)} (h : Entry.Reordered as bs) (shown : Path) :
    (scriptsIn options shown as).Perm (scriptsIn options shown bs) := by
  induction h generalizing shown with
  | nil => exact .refl _
  | cons x _ ih =>
    rw [scriptsIn, scriptsIn]
    exact (ih shown).append_left _
  | inside name refusal rest _ ih =>
    rw [scriptsIn, scriptsIn]
    apply List.Perm.append_right
    rw [scriptsAt, scriptsAt]
    split
    · exact .refl _
    · exact ih (shown.child name)
  | swap x y rest =>
    simp only [scriptsIn]
    exact List.perm_append_comm_assoc _ _ _
  | trans _ _ ih ih' => exact (ih shown).trans (ih' shown)

/-- Absolute paths that are all different are sorted into strictly increasing segments. -/
theorem pairwise_mergeSort_le {paths : List Path} (hroot : ∀ p ∈ paths, p.root = .slash)
    (h : paths.Nodup) :
    (paths.mergeSort Path.le).Pairwise fun p q => List.Lex Text.Before p.segments q.segments := by
  have hsorted : (paths.mergeSort Path.le).Pairwise fun p q => p.le q = true :=
    @List.pairwise_mergeSort _ Path.le (fun _ _ _ => Path.le_trans) Path.le_total paths
  have hnodup : (paths.mergeSort Path.le).Nodup := (List.mergeSort_perm paths _).nodup_iff.mpr h
  refine List.Pairwise.imp_of_mem ?_ (hsorted.and hnodup)
  intro p q hp hq hle
  have hp' := hroot p (List.mem_mergeSort.mp hp)
  have hq' := hroot q (List.mem_mergeSort.mp hq)
  exact (Path.eq_or_lex_of_le hp' hq' hle.1).resolve_left hle.2

/-- The order of the paths is lost in sorting. -/
theorem mergeSort_le_eq_of_perm {paths others : List Path} (hroot : ∀ p ∈ paths, p.root = .slash)
    (h : paths.Nodup) (hperm : paths.Perm others) :
    paths.mergeSort Path.le = others.mergeSort Path.le := by
  have hroot' : ∀ p ∈ others, p.root = .slash := by
    intro p hp
    exact hroot p (hperm.mem_iff.mpr hp)
  have hsame : (paths.mergeSort Path.le).Perm (others.mergeSort Path.le) :=
    (List.mergeSort_perm paths _).trans (hperm.trans (List.mergeSort_perm others _).symm)
  refine List.Perm.eq_of_pairwise ?_ (pairwise_mergeSort_le hroot h)
    (pairwise_mergeSort_le hroot' (hperm.nodup_iff.mp h)) hsame
  intro p q _ _ hpq hqp
  exact absurd hqp (Std.Asymm.asymm _ _ hpq)

/-- What the root yields: its own name is not tested. -/
def scriptsBelow (options : DiscoverOptions) (root : Path) (refusal : Option FileFault)
    (entries : List (String × Entry)) : List Path :=
  if refusal.isSome then [] else scriptsIn options root entries

/-- Another order of the listings changes no more than the order of what the root yields. -/
theorem scriptsBelow_perm {as bs : List (String × Entry)} (h : Entry.Reordered as bs) (root : Path)
    (refusal : Option FileFault) :
    (scriptsBelow options root refusal as).Perm (scriptsBelow options root refusal bs) := by
  unfold scriptsBelow
  split
  · exact .refl _
  · exact scriptsIn_perm h root

/-- A discovery that follows no links sorts what the root yields. -/
theorem discover_of_directory {tree : FileTree} {path : Path} {refusal : Option FileFault}
    {entries : List (String × Entry)} (hlinks : options.followLinks = false)
    (hentry : tree.entry (tree.canonical path) = .ok (.directory refusal entries)) :
    (tree.discover options path).1 =
      .ok ((scriptsBelow options (tree.canonical path) refusal entries).mergeSort Path.le) := by
  unfold discover
  simp only [hentry, files_listed, files_collect tree hlinks]
  rfl

/-- **A search is exact, sorted and independent of the order of listings.** Where names occur once
in every directory and no link is followed, it finds the files that are asked for and that can be
reached from its root: all of them, nothing else, none twice, in the order of their segments, and
the same ones in whatever order directories list their entries. -/
theorem discover_finds_scripts (tree : FileTree) (options : DiscoverOptions) (path : Path)
    {refusal : Option FileFault} {entries : List (String × Entry)}
    (hdistinct : Entry.DistinctIn tree.entries) (hlinks : options.followLinks = false)
    (hentry : tree.entry (tree.canonical path) = .ok (.directory refusal entries)) :
    ∃ files, (tree.discover options path).1 = .ok files ∧ files.Nodup ∧
      files.Pairwise (fun p q => List.Lex Text.Before p.segments q.segments) ∧
      (∀ p, p ∈ files ↔ refusal = none ∧ ∃ names, p = (tree.canonical path).below names ∧
        options.Reaches entries names ∧ options.Accepts p) ∧
      ∀ others, Entry.Reordered tree.entries others →
        ((tree.relisted others).discover options path).1 = .ok files := by
  have hinner : Entry.DistinctIn entries := distinctIn_of_entry hdistinct hentry
  have hmem (p : Path) : p ∈ scriptsBelow options (tree.canonical path) refusal entries ↔
      refusal = none ∧ ∃ names, p = (tree.canonical path).below names ∧
        options.Reaches entries names ∧ options.Accepts p := by
    cases refusal with
    | none => simp [scriptsBelow, mem_scriptsIn hinner]
    | some fault => simp [scriptsBelow]
  have hroot : ∀ p ∈ scriptsBelow options (tree.canonical path) refusal entries,
      p.root = .slash := by
    intro p hp
    obtain ⟨-, names, rfl, -⟩ := (hmem p).mp hp
    rfl
  have hnodup : (scriptsBelow options (tree.canonical path) refusal entries).Nodup := by
    unfold scriptsBelow
    split
    · exact List.nodup_nil
    · exact nodup_scriptsIn hinner _
  refine ⟨_, discover_of_directory hlinks hentry, ?_, pairwise_mergeSort_le hroot hnodup, ?_, ?_⟩
  · exact (List.mergeSort_perm _ _).nodup_iff.mpr hnodup
  · intro p
    rw [List.mem_mergeSort, hmem]
  · intro others hothers
    have hcanonical := canonical_relisted hothers hdistinct path
    obtain ⟨other, hother, hreordered⟩ := exists_entry_relisted hothers hdistinct hentry
    rw [← hcanonical] at hother
    rw [discover_of_directory hlinks hother, hcanonical,
      mergeSort_le_eq_of_perm hroot hnodup (scriptsBelow_perm hreordered _ _)]

/-- A library with a script whose suffix is in capitals, beside a name without a suffix. -/
def library : List (String × Entry) := [("b.JS", .file none []), (".js", .file none [])]

/-- A project with a library, a directory that is ignored, one that is locked, and a link. -/
def mixedProject : FileTree where
  entries :=
    [("lib", .directory none library),
      ("vendor", .directory none [("v.js", .file none [])]),
      ("locked", .directory (some .permission) [("l.js", .file none [])]),
      ("again.js", .link (.ofString "lib/b.JS"))]
  workingDirectory := pathOf []

/-- The script of the library is found, in whatever order the library is listed; the locked one is
not. -/
theorem discover_finds_scripts_mixedProject :
    Entry.DistinctIn mixedProject.entries ∧
      ∃ files, (mixedProject.discover {} (pathOf [])).1 = .ok files ∧
        pathOf ["lib", "b.JS"] ∈ files ∧ pathOf ["locked", "l.js"] ∉ files ∧
        ((mixedProject.relisted (("lib", .directory none library.reverse) ::
          mixedProject.entries.tail)).discover {} (pathOf [])).1 = .ok files := by
  have hdistinct : Entry.DistinctIn mixedProject.entries := by
    simp [mixedProject, library, Entry.DistinctIn, Entry.Distinct]
  have hentry : mixedProject.entry (mixedProject.canonical (pathOf [])) =
      .ok (.directory none mixedProject.entries) := by
    rw [canonical_root, entry_root]
  have hreaches : DiscoverOptions.Reaches {} mixedProject.entries ["lib", "b.JS"] := by
    have hnames : (library.map Prod.fst).Nodup := by decide
    have hinner : DiscoverOptions.Reaches {} library ["b.JS"] :=
      (DiscoverOptions.reaches_singleton_iff hnames).mpr ⟨none, [], List.mem_cons_self⟩
    rw [DiscoverOptions.reaches_cons_iff (by decide) (by decide)]
    exact ⟨by decide, library, List.mem_cons_self, hinner⟩
  have haccepts : DiscoverOptions.Accepts {} (pathOf ["lib", "b.JS"]) :=
    (DiscoverOptions.accepts_iff_tests _).mpr (by decide)
  obtain ⟨files, hfiles, -, -, hmem, horder⟩ :=
    discover_finds_scripts mixedProject {} (pathOf []) hdistinct rfl hentry
  refine ⟨hdistinct, files, hfiles, ?_, ?_, ?_⟩
  · rw [hmem, canonical_root]
    exact ⟨rfl, ["lib", "b.JS"], rfl, hreaches, haccepts⟩
  · rw [hmem, canonical_root]
    rintro ⟨-, names, hnames, hlocked, -⟩
    have hsegments := congrArg Path.segments hnames
    rw [show names = ["locked", "l.js"] from hsegments.symm] at hlocked
    obtain ⟨-, inner, hinner⟩ := hlocked.entered [] "locked" ["l.js"] rfl (by decide)
    cases hinner
  · apply horder
    exact .inside "lib" none _ (.swap _ _ [])

end FileTree

end ScriptAudit
