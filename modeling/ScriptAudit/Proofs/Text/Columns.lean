import ScriptAudit.Text.Columns
import ScriptAudit.Total

/-!
# Columns add up

A joiner and a selector of pictured forms act on their neighbours, so a text that holds one may be
wider or narrower than its parts together. All other characters leave their neighbours alone: the
columns of such a text are the sum of those of its characters, and what is shown as one is a
character with the marks behind it that take no column.
-/

set_option autoImplicit false

namespace ScriptAudit.Text

/-- A character that leaves its neighbours alone. -/
def IsInert (c : Char) : Prop := c ≠ joiner ∧ c ≠ pictureSelector

instance (c : Char) : Decidable (IsInert c) := inferInstanceAs (Decidable (_ ∧ _))

/-- No character takes more than two columns. -/
theorem columnsOf_le_two (c : Char) : columnsOf c ≤ 2 := by
  unfold columnsOf
  split
  · exact Nat.le_refl 2
  · split <;> omega

/-- Whatever stands before them, inert characters take the columns they take one by one. -/
theorem columnsBehind_of_inert {cs : List Char} (h : ∀ c ∈ cs, IsInert c) (last : Option Char) :
    columnsBehind false last cs = total (cs.map columnsOf) := by
  induction cs generalizing last with
  | nil => rfl
  | cons c cs ih =>
    obtain ⟨⟨hjoiner, hselector⟩, hcs⟩ := List.forall_mem_cons.mp h
    rw [columnsBehind, if_neg Bool.false_ne_true, if_neg hjoiner, if_neg hselector, List.map_cons,
      total_cons]
    split
    · rename_i hzero
      rw [ih hcs, hzero, Nat.zero_add]
    · rw [ih hcs]

/-- Inert characters take the columns they take one by one. -/
theorem columns_of_inert {cs : List Char} (h : ∀ c ∈ cs, IsInert c) :
    columns cs = total (cs.map columnsOf) :=
  columnsBehind_of_inert h none

variable {α : Type} {char : α → Char}

/-- A cluster of one thing with marks behind it that take no column. -/
def Cluster.IsMarked (char : α → Char) (cluster : Cluster α) : Prop :=
  ∃ a marks, cluster.members = a :: marks ∧ (∀ mark ∈ marks, columnsOf (char mark) = 0) ∧
    cluster.width = columnsOf (char a)

/-- One more mark makes no other cluster of a marked thing. -/
theorem Cluster.IsMarked.add {cluster : Cluster α} (h : cluster.IsMarked char) {mark : α}
    (hmark : columnsOf (char mark) = 0) : (cluster.add mark 0).IsMarked char := by
  obtain ⟨a, marks, hmembers, hmarks, hwidth⟩ := h
  refine ⟨a, marks ++ [mark], by simp [Cluster.add, hmembers], ?_, by simp [Cluster.add, hwidth]⟩
  intro b hb
  rcases List.mem_append.mp hb with hb | hb
  · exact hmarks b hb
  · rw [List.mem_singleton.mp hb, hmark]

/-- A thing alone has no marks. -/
theorem Cluster.isMarked_single (char : α → Char) (a : α) :
    (Cluster.single char a).IsMarked char :=
  ⟨a, [], rfl, List.forall_mem_nil _, rfl⟩

/-- Behind a cluster of a marked thing inert characters make only such clusters. -/
theorem isMarked_of_mem_clustersBehind {as : List α} (h : ∀ a ∈ as, IsInert (char a))
    (last : Option Char) {begun : Cluster α} (hbegun : begun.IsMarked char) {cluster : Cluster α}
    (hcluster : cluster ∈ clustersBehind char false last begun as) : cluster.IsMarked char := by
  induction as generalizing last begun with
  | nil =>
    rw [clustersBehind, List.mem_singleton] at hcluster
    rwa [hcluster]
  | cons a as ih =>
    obtain ⟨⟨hjoiner, hselector⟩, has⟩ := List.forall_mem_cons.mp h
    rw [clustersBehind, if_neg Bool.false_ne_true, if_neg hjoiner, if_neg hselector] at hcluster
    split at hcluster
    · rename_i hzero
      exact ih has last (hbegun.add hzero) hcluster
    · rcases List.mem_cons.mp hcluster with rfl | hcluster
      · exact hbegun
      · exact ih has _ (Cluster.isMarked_single char a) hcluster

/-- Inert characters make clusters of marked things. -/
theorem isMarked_of_mem_clusters {as : List α} (h : ∀ a ∈ as, IsInert (char a))
    {cluster : Cluster α} (hcluster : cluster ∈ clusters char as) : cluster.IsMarked char := by
  cases as with
  | nil => cases hcluster
  | cons a as =>
    exact isMarked_of_mem_clustersBehind (List.forall_mem_cons.mp h).2 _
      (Cluster.isMarked_single char a) hcluster

/-- A cluster of a marked thing takes the columns of its members. -/
theorem Cluster.IsMarked.total_columnsOf {cluster : Cluster α} (h : cluster.IsMarked char) :
    total (cluster.members.map fun a => columnsOf (char a)) = cluster.width := by
  obtain ⟨a, marks, hmembers, hmarks, hwidth⟩ := h
  have hzero : total (marks.map fun mark => columnsOf (char mark)) = 0 := by
    apply total_of_forall_eq_zero
    intro n hn
    obtain ⟨mark, hmark, rfl⟩ := List.mem_map.mp hn
    exact hmarks mark hmark
  rw [hmembers, hwidth, List.map_cons, total_cons, hzero, Nat.add_zero]

end ScriptAudit.Text
