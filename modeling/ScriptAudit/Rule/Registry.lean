import ScriptAudit.Rule.Basic

/-!
# Rules by kind of node

A registry groups rules by the kinds they look at. Kinds stand in the order in which they were first
registered, and so do the rules of a kind; a rule that is registered twice runs twice.
-/

set_option autoImplicit false

namespace ScriptAudit

/-- Rules grouped by kind. -/
structure Registry where
  groups : List (String × List Rule)
  deriving DecidableEq, Repr

namespace Registry

/-- Adds a rule to the group of a kind, at its end. -/
def register (rule : Rule) (kind : String) : List (String × List Rule) → List (String × List Rule)
  | [] => [(kind, [rule])]
  | (k, rules) :: rest =>
    if k = kind then (k, rules ++ [rule]) :: rest else (k, rules) :: register rule kind rest

/-- Registers rules in order, each for all its kinds. -/
def ofRules (rules : List Rule) : Registry :=
  { groups := rules.foldl
      (fun groups rule => rule.kinds.foldl (fun groups kind => register rule kind groups) groups)
      [] }

/-- The rules registered for a kind. -/
def rulesFor (registry : Registry) (kind : String) : List Rule :=
  (registry.groups.lookup kind).getD []

/-- The registered kinds. -/
def kinds (registry : Registry) : List String := registry.groups.map (·.1)

end Registry

end ScriptAudit
