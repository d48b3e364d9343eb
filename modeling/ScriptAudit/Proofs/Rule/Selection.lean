import ScriptAudit.Rule.Registry

/-!
# The rules a registry gives for a kind

A registry is built by adding each rule to the group of each of its kinds. What it answers for a
kind can be read off the list of rules: those that look at the kind, in the order of the list and as
often as they stand there.

Every registration adds its rule at the end of one group and touches no other. So the answer for a
kind grows, rule by rule, by as many copies as the rule names the kind, and no rule names a kind
twice.
-/

set_option autoImplicit false

namespace ScriptAudit.Registry

/-- The rules of a kind in a list of groups. -/
def rulesIn (groups : List (String × List Rule)) (kind : String) : List Rule :=
  (groups.lookup kind).getD []

/-- The rules of a kind are those of its group. -/
theorem rulesIn_cons (k kind : String) (rules : List Rule) (groups : List (String × List Rule)) :
    rulesIn ((k, rules) :: groups) kind = if kind = k then rules else rulesIn groups kind := by
  unfold rulesIn
  rw [List.lookup_cons]
  by_cases h : kind = k
  · simp [h]
  · simp [h, beq_false_of_ne h]

/-- A registration adds one rule to one kind. -/
theorem rulesIn_register (rule : Rule) (k kind : String) (groups : List (String × List Rule)) :
    rulesIn (register rule k groups) kind =
      rulesIn groups kind ++ if kind = k then [rule] else [] := by
  induction groups with
  | nil =>
    rw [register, rulesIn_cons]
    rfl
  | cons group rest ih =>
    obtain ⟨k', rules⟩ := group
    rw [register]
    by_cases hk : k' = k
    · subst hk
      rw [if_pos rfl, rulesIn_cons, rulesIn_cons]
      by_cases h : kind = k' <;> simp [h]
    · rw [if_neg hk, rulesIn_cons, rulesIn_cons, ih]
      by_cases h : kind = k'
      · simp [h, hk]
      · simp [h]

/-- A rule is added to a kind as often as it names the kind. -/
theorem rulesIn_foldl_register (rule : Rule) (kind : String) (kinds : List String)
    (groups : List (String × List Rule)) :
    rulesIn (kinds.foldl (fun groups k => register rule k groups) groups) kind =
      rulesIn groups kind ++ List.replicate (kinds.count kind) rule := by
  induction kinds generalizing groups with
  | nil => simp
  | cons k kinds ih =>
    rw [List.foldl_cons, ih, rulesIn_register, List.append_assoc, List.count_cons]
    by_cases h : kind = k
    · simp [h, List.replicate_succ]
    · simp [h, Ne.symm h]

/-- The rules of a list are added in its order. -/
theorem rulesIn_foldl_rules (kind : String) (rules : List Rule)
    (groups : List (String × List Rule)) :
    rulesIn (rules.foldl (fun groups rule =>
        rule.kinds.foldl (fun groups k => register rule k groups) groups) groups) kind =
      rulesIn groups kind ++
        rules.flatMap fun rule => List.replicate (rule.kinds.count kind) rule := by
  induction rules generalizing groups with
  | nil => simp
  | cons rule rules ih =>
    rw [List.foldl_cons, ih, rulesIn_foldl_register, List.flatMap_cons, List.append_assoc]

/-- A rule names every kind once. -/
theorem nodup_kinds (rule : Rule) : rule.kinds.Nodup := by
  cases rule <;> decide

/-- A rule is added to each of its kinds once. -/
theorem replicate_count_kinds (rule : Rule) (kind : String) :
    List.replicate (rule.kinds.count kind) rule =
      if rule.kinds.contains kind then [rule] else [] := by
  by_cases h : kind ∈ rule.kinds
  · have hone : rule.kinds.count kind = 1 :=
      Nat.le_antisymm (List.nodup_iff_count.mp (nodup_kinds rule) kind) (List.count_pos_iff.mpr h)
    simp [h, hone]
  · simp [h, List.count_eq_zero_of_not_mem h]

/-- A registry answers with the rules that look at the kind, each as often as it was given, in the
order in which they were given. -/
theorem rulesFor_ofRules (rules : List Rule) (kind : String) :
    (ofRules rules).rulesFor kind = rules.filter fun rule => rule.kinds.contains kind := by
  calc
    (ofRules rules).rulesFor kind
      = rulesIn [] kind ++ rules.flatMap fun rule => List.replicate (rule.kinds.count kind) rule :=
        rulesIn_foldl_rules kind rules []
    _ = rules.flatMap fun rule => if rule.kinds.contains kind then [rule] else [] := by
        simp only [replicate_count_kinds]
        rfl
    _ = (rules.flatMap fun rule => [rule]).filter fun rule => rule.kinds.contains kind := by
        simp only [List.filter_flatMap, List.filter_cons, List.filter_nil]
    _ = rules.filter fun rule => rule.kinds.contains kind := by
        rw [List.flatMap_singleton']

end ScriptAudit.Registry
