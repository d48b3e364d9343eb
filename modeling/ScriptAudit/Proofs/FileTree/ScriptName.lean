import Mathlib.Data.List.TakeWhile
import ScriptAudit.Path

/-!
# Names of scripts

The suffix of a name is computed from behind, and then put in lower case and compared. Here the
names are described from the front: a script is named by a stem that is not empty, a dot and one of
three extensions, and a minified script by anything that ends in `.min.js`, the letters being of
either case.
-/

set_option autoImplicit false

namespace ScriptAudit.Path

/-- A name that ends in the extension of a script. A name that starts with its only dot has no
extension. -/
def IsScriptName (name : String) : Prop :=
  ∃ stem extension : List Char, name.toList = stem ++ '.' :: extension ∧ stem ≠ [] ∧
    String.ofList (extension.map Char.toLower) ∈ ["js", "mjs", "cjs"]

/-- A name that ends in `.min.js`. -/
def IsMinifiedName (name : String) : Prop :=
  ∃ stem ending : List Char, name.toList = stem ++ ending ∧
    String.ofList (ending.map Char.toLower) = ".min.js"

/-- A name without a dot has no suffix. -/
theorem suffixOf_of_no_dot {name : String} (h : '.' ∉ name.toList) : suffixOf name = "" := by
  have hall : name.toList.reverse.takeWhile (· ≠ '.') = name.toList.reverse := by
    apply List.takeWhile_eq_self_iff.mpr
    intro c hc
    have hne : c ≠ '.' := by
      rintro rfl
      exact h (List.mem_reverse.mp hc)
    simpa using hne
  have hlength : name.length = name.toList.length := String.length_toList.symm
  rw [suffixOf, hall, List.reverse_reverse, if_neg]
  omega

/-- The suffix of a name with an extension is a dot and the extension, unless one of the parts is
empty. -/
theorem suffixOf_of_dot {name : String} {stem extension : List Char}
    (h : name.toList = stem ++ '.' :: extension) (hdot : '.' ∉ extension) :
    suffixOf name =
      if extension ≠ [] ∧ stem ≠ [] then String.ofList ('.' :: extension) else "" := by
  have hreverse : name.toList.reverse = extension.reverse ++ '.' :: stem.reverse := by
    rw [h]
    simp
  have htail : name.toList.reverse.takeWhile (· ≠ '.') = extension.reverse := by
    rw [hreverse, List.takeWhile_append_of_pos]
    · simp
    · intro c hc
      have hne : c ≠ '.' := by
        rintro rfl
        exact hdot (List.mem_reverse.mp hc)
      simpa using hne
  have hlength : name.length = stem.length + 1 + extension.length := by
    rw [← String.length_toList, h, List.length_append, List.length_cons]
    omega
  have hstem : 2 ≤ name.length - extension.length ↔ stem ≠ [] := by
    rw [hlength, ← List.length_pos_iff]
    omega
  rw [suffixOf, htail, List.reverse_reverse]
  simp only [hstem]

/-- Every text with a dot has a last one. -/
theorem exists_last_dot {cs : List Char} (h : '.' ∈ cs) :
    ∃ stem extension, cs = stem ++ '.' :: extension ∧ '.' ∉ extension := by
  obtain ⟨before, behind, hsplit, hfirst⟩ :=
    List.eq_append_cons_of_mem (List.mem_reverse.mpr h)
  refine ⟨behind.reverse, before.reverse, ?_, ?_⟩
  · rw [← List.reverse_reverse cs, hsplit]
    simp
  · intro hmem
    exact hfirst (List.mem_reverse.mp hmem)

/-- The suffixes of scripts are three, in letters of either case. -/
theorem mem_scriptSuffixes_iff (cs : List Char) :
    lowerCase (String.ofList ('.' :: cs)) ∈ scriptSuffixes ↔
      String.ofList (cs.map Char.toLower) ∈ ["js", "mjs", "cjs"] := by
  have hcons (extension : List Char) :
      lowerCase (String.ofList ('.' :: cs)) = String.ofList ('.' :: extension) ↔
        String.ofList (cs.map Char.toLower) = String.ofList extension := by
    rw [lowerCase, String.toList_ofList, List.map_cons, String.ofList_inj, String.ofList_inj,
      List.cons.injEq]
    exact and_iff_right rfl
  have hjs := hcons ['j', 's']
  have hmjs := hcons ['m', 'j', 's']
  have hcjs := hcons ['c', 'j', 's']
  simp only [scriptSuffixes, List.mem_cons, List.not_mem_nil, or_false]
  exact or_congr hjs (or_congr hmjs hcjs)

/-- The test for scripts is that of the name. -/
theorem isScript_iff (p : Path) : p.isScript = true ↔ IsScriptName p.name := by
  rw [isScript, suffix, List.contains_iff_mem]
  constructor
  · intro h
    by_cases hdot : '.' ∈ p.name.toList
    · obtain ⟨stem, extension, hname, hlast⟩ := exists_last_dot hdot
      rw [suffixOf_of_dot hname hlast] at h
      split at h
      · rename_i hparts
        exact ⟨stem, extension, hname, hparts.2, (mem_scriptSuffixes_iff extension).mp h⟩
      · exact absurd h (by decide)
    · rw [suffixOf_of_no_dot hdot] at h
      exact absurd h (by decide)
  · rintro ⟨stem, extension, hname, hstem, hextension⟩
    -- no extension of a script has a dot, so the dot before it is the last one
    have hlist : extension.map Char.toLower ∈ [['j', 's'], ['m', 'j', 's'], ['c', 'j', 's']] := by
      have hmapped := List.mem_map_of_mem (f := String.toList) hextension
      rw [String.toList_ofList] at hmapped
      exact hmapped
    have hdot : '.' ∉ extension := by
      intro hmem
      have hlower : '.' ∈ extension.map Char.toLower := List.mem_map.mpr ⟨'.', hmem, rfl⟩
      revert hlower
      generalize extension.map Char.toLower = cs at hlist
      revert cs
      decide
    have hne : extension ≠ [] := by
      rintro rfl
      exact absurd hlist (by decide)
    rw [suffixOf_of_dot hname hdot, if_pos ⟨hne, hstem⟩]
    exact (mem_scriptSuffixes_iff extension).mpr hextension

/-- The test for minified scripts is that of the name. -/
theorem isMinified_iff (p : Path) : p.isMinified = true ↔ IsMinifiedName p.name := by
  have hlower : (lowerCase p.name).toList = p.name.toList.map Char.toLower := by
    rw [lowerCase, String.toList_ofList]
  rw [isMinified, List.isSuffixOf_iff_suffix, hlower]
  constructor
  · rintro ⟨before, hbefore⟩
    obtain ⟨stem, ending, hname, -, hending⟩ := List.map_eq_append_iff.mp hbefore.symm
    refine ⟨stem, ending, hname, ?_⟩
    rw [hending, String.ofList_toList]
  · rintro ⟨stem, ending, hname, hending⟩
    refine ⟨stem.map Char.toLower, ?_⟩
    have hletters := congrArg String.toList hending
    rw [String.toList_ofList] at hletters
    rw [hname, List.map_append, hletters]

end ScriptAudit.Path
