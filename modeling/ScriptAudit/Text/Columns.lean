import ScriptAudit.Text.Widths

/-!
# Columns of text on a terminal

Most characters take one column. East Asian wide characters and emoji take two; control characters
and marks that combine with the character before them take none. Two characters act on their
neighbours: a joiner merges the character behind it into the one before it, and a selector widens
the character before it, if that has a pictured form.

`columns` is the width of a text. `clusters` splits a text into what is shown as one, so that it can
be cut without tearing anything apart; by `flatMap_members_clusters` nothing gets lost.
-/

set_option autoImplicit false

namespace ScriptAudit.Text

/-- The character that merges its neighbours into one. -/
def joiner : Char := '\u200d'

/-- The character that asks for the pictured form of the one before it. -/
def pictureSelector : Char := '\ufe0f'

/-- The number of columns one character takes on its own. -/
def columnsOf (c : Char) : Nat :=
  if wideCharacters.has c then 2 else if zeroWidthCharacters.has c then 0 else 1

/-- The columns a selector adds to the character that was measured last. -/
def pictureBonus : Option Char → Nat
  | some c => if picturableCharacters.has c then 1 else 0
  | none => 0

/-- The number of columns a text takes behind other text: whether it is merged by a joiner, and the
last character that was measured. -/
def columnsBehind (joined : Bool) (last : Option Char) : List Char → Nat
  | [] => 0
  | c :: rest =>
    if joined then columnsBehind false last rest
    else if c = joiner then columnsBehind true last rest
    else if c = pictureSelector then pictureBonus last + columnsBehind false none rest
    else if columnsOf c = 0 then columnsBehind false last rest
    else columnsOf c + columnsBehind false (some c) rest

/-- The number of columns a text takes. -/
def columns (cs : List Char) : Nat := columnsBehind false none cs

/-- Things that are shown as one, and the number of columns they take together. -/
structure Cluster (α : Type) where
  members : List α
  width : Nat
  deriving DecidableEq, Repr

namespace Cluster

/-- One more thing in a cluster, and so many columns more. -/
def add {α : Type} (cluster : Cluster α) (a : α) (extra : Nat) : Cluster α :=
  { members := cluster.members ++ [a], width := cluster.width + extra }

/-- A cluster of one thing. -/
def single {α : Type} (char : α → Char) (a : α) : Cluster α :=
  { members := [a], width := columnsOf (char a) }

end Cluster

/-- A character that can be widened: one that takes columns. -/
def measured? (c : Char) : Option Char := if columnsOf c = 0 then none else some c

/-- The clusters of a list behind a cluster that is begun. -/
def clustersBehind {α : Type} (char : α → Char) (joined : Bool) (last : Option Char)
    (cluster : Cluster α) : List α → List (Cluster α)
  | [] => [cluster]
  | a :: rest =>
    if joined then clustersBehind char false last (cluster.add a 0) rest
    else if char a = joiner then clustersBehind char true last (cluster.add a 0) rest
    else if char a = pictureSelector then
      clustersBehind char false (if pictureBonus last = 0 then last else none)
        (cluster.add a (pictureBonus last)) rest
    else if columnsOf (char a) = 0 then clustersBehind char false last (cluster.add a 0) rest
    else cluster :: clustersBehind char false (some (char a)) (Cluster.single char a) rest

/-- The clusters of a list of things that show a character each. -/
def clusters {α : Type} (char : α → Char) : List α → List (Cluster α)
  | [] => []
  | a :: rest => clustersBehind char false (measured? (char a)) (Cluster.single char a) rest

/-- Clusters behind a cluster that is begun hold its members and all others, in order. -/
theorem flatMap_members_clustersBehind {α : Type} (char : α → Char) (joined : Bool)
    (last : Option Char) (cluster : Cluster α) (as : List α) :
    (clustersBehind char joined last cluster as).flatMap Cluster.members =
      cluster.members ++ as := by
  induction as generalizing joined last cluster with
  | nil => simp [clustersBehind]
  | cons a rest ih =>
    rw [clustersBehind]
    split
    · simp [ih, Cluster.add]
    · split
      · simp [ih, Cluster.add]
      · split
        · simp [ih, Cluster.add]
        · split
          · simp [ih, Cluster.add]
          · simp [ih, Cluster.single]

/-- Clusters hold all things of a list, in order. -/
theorem flatMap_members_clusters {α : Type} (char : α → Char) (as : List α) :
    (clusters char as).flatMap Cluster.members = as := by
  cases as with
  | nil => rfl
  | cons a rest => simp [clusters, flatMap_members_clustersBehind, Cluster.single]

end ScriptAudit.Text
