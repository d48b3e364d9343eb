import ScriptAudit.Proofs.Concrete.Conversion

/-!
# The outline of a concrete tree

The outline lists the trees that ought to become nodes. It knows nothing of fields: it goes through
the named trees in pre-order, enters no identifier, literal or comment, and then drops comments,
parentheses, argument lists, and the marks of optional chaining in an access, a call or a binary
expression.

For a tree that has the shape the grammar gives it, the walk over its abstract tree is the outline,
node by node. The abstract tree finds its children through fields and parts, and the outline finds
them by their order, so what has to be shown is that the branches of a tree have the outlines of its
constituents.
-/

set_option autoImplicit false

namespace ScriptAudit.Concrete

/-! ## Sites and outlines -/

/-- Nothing below the label counts: it belongs to an identifier, a literal or a comment. -/
def Label.isClosed (label : Label) : Bool :=
  Kind.identifiers.contains label.kind || Kind.literals.contains label.kind || label.isComment

/-- The closed labels are those of identifiers, literals and comments. -/
theorem Label.isClosed_iff (label : Label) :
    label.isClosed = true ↔
      label.shape = .identifier ∨ label.shape = .literal ∨ label.isComment = true := by
  rw [label.shape_eq_iff (by decide), label.shape_eq_iff (by decide)]
  simp [isClosed, Shape.kinds, or_assoc]

/-- The fields of the two operands of an access, a call or a binary expression. -/
def Label.operandFields? (label : Label) : Option (String × String) :=
  match label.shape with
  | .member computed => some ("object", Tree.propertyField computed)
  | .call => some ("function", "arguments")
  | .binary => some ("left", "right")
  | _ => none

/-- A label with operands is none of an identifier or a literal, and the first operand is not in the
field for arguments. -/
theorem Label.of_operandFields? {label : Label} {first second : String}
    (h : label.operandFields? = some (first, second)) :
    first ≠ "arguments" ∧ label.shape ≠ .other ∧ label.shape ≠ .identifier ∧
      label.shape ≠ .literal := by
  unfold operandFields? at h
  cases hshape : label.shape <;> simp [hshape] at h
  all_goals simp [← h.1]

/-- The two operands are in different fields. -/
theorem Label.ne_of_operandFields? {label : Label} {first second : String}
    (h : label.operandFields? = some (first, second)) : first ≠ second := by
  unfold operandFields? at h
  cases hshape : label.shape with
  | member computed =>
    simp only [hshape, Option.some.injEq, Prod.mk.injEq] at h
    rw [← h.1, ← h.2]
    cases computed <;> decide
  | call | binary =>
    simp only [hshape, Option.some.injEq, Prod.mk.injEq] at h
    rw [← h.1, ← h.2]
    decide
  | _ => simp [hshape] at h

/-- A tree, with the label of its parent unless it is a root. -/
structure Site where
  parent : Option Label
  tree : Tree

namespace Tree

mutual
/-- The sites of a tree in pre-order: the tree itself and, unless it is closed, the sites of its
named children. -/
def sites (parent : Option Label) : Tree → List Site
  | node label children =>
    ⟨parent, node label children⟩ :: if label.isClosed then [] else sitesOfAll label children

/-- The sites of the named trees of a list of children. -/
def sitesOfAll (parent : Label) : List Tree → List Site
  | [] => []
  | c :: rest => (if c.label.named then c.sites (some parent) else []) ++ sitesOfAll parent rest
end

/-- The mark of optional chaining. -/
def isChainMark (t : Tree) : Bool := t.label.kind = "optional_chain" && t.children.isEmpty

end Tree

/-- The tree at the site is to become a node. -/
def Site.isKept (site : Site) : Bool :=
  !site.tree.label.isComment && site.tree.label.kind ≠ "parenthesized_expression" &&
    site.tree.label.kind ≠ "arguments" &&
    !(site.tree.isChainMark && site.parent.any (·.operandFields?.isSome))

namespace Tree

/-- The trees that are to become nodes, of a tree below a given parent. -/
def kept (parent : Option Label) (t : Tree) : List Tree :=
  ((t.sites parent).filter Site.isKept).map Site.tree

/-- The trees that are reached from a tree through named trees, without passing through an
identifier, a literal or a comment, in pre-order. -/
def reached (t : Tree) : List Tree := (t.sites none).map Site.tree

/-- The trees that are to become nodes, in pre-order. -/
def outline (t : Tree) : List Tree := t.kept none

/-- The sites of a list of children are those of its named trees. -/
theorem sitesOfAll_eq_flatMap (parent : Label) (cs : List Tree) :
    sitesOfAll parent cs = (cs.filter (·.label.named)).flatMap (sites (some parent)) := by
  induction cs with
  | nil => rfl
  | cons c rest ih =>
    rw [sitesOfAll, ih, List.filter_cons]
    cases c.label.named <;> rfl

/-- The sites of a tree are its own and those of its named children. -/
theorem sites_eq (parent : Option Label) (t : Tree) :
    t.sites parent =
      ⟨parent, t⟩ :: if t.label.isClosed then []
        else (t.children.filter (·.label.named)).flatMap (sites (some t.label)) := by
  obtain ⟨label, children⟩ := t
  rw [sites, sitesOfAll_eq_flatMap]
  rfl

/-- Nothing of a comment is kept. -/
theorem kept_of_isComment {t : Tree} (parent : Option Label) (h : t.label.isComment = true) :
    t.kept parent = [] := by
  simp [kept, sites_eq, Label.isClosed, Site.isKept, h]

/-- Where comments stand for nothing, the constituents stand for all named children. -/
theorem flatMap_constituents_of_nil {β : Type} {f : Tree → List β} (t : Tree)
    (h : ∀ c : Tree, c.label.isComment = true → f c = []) :
    t.constituents.flatMap f = (t.children.filter (·.label.named)).flatMap f := by
  have hsplit : t.constituents =
      (t.children.filter (·.label.named)).filter (!·.label.isComment) := by
    rw [List.filter_filter, constituents]
    congr 1
    funext c
    exact Bool.and_comm _ _
  rw [hsplit]
  apply flatMap_filter_of_nil
  intro c _ hc
  exact h c (by simpa using hc)

/-- Of a tree that is not closed its constituents are kept, behind the tree itself if that is. -/
theorem kept_eq (parent : Option Label) (t : Tree) :
    t.kept parent =
      (if Site.isKept ⟨parent, t⟩ then [t] else []) ++
        if t.label.isClosed then [] else t.constituents.flatMap (kept (some t.label)) := by
  have hconstituents := t.flatMap_constituents_of_nil fun c hc =>
    kept_of_isComment (some t.label) hc
  have hchildren : (t.children.filter (·.label.named)).flatMap (kept (some t.label)) =
      (((t.children.filter (·.label.named)).flatMap (sites (some t.label))).filter
        Site.isKept).map Site.tree := by
    rw [List.filter_flatMap, List.map_flatMap]
    rfl
  rw [hconstituents, hchildren, kept, sites_eq, List.filter_cons]
  cases t.label.isClosed <;> cases Site.isKept ⟨parent, t⟩ <;> simp

/-- Below a given parent a tree is kept as it is alone, unless it is a mark of optional chaining
beside operands. -/
theorem kept_eq_outline {parent : Label} {t : Tree}
    (h : t.isChainMark = false ∨ parent.operandFields? = none) :
    t.kept (some parent) = t.outline := by
  have hkept : Site.isKept ⟨some parent, t⟩ = Site.isKept ⟨none, t⟩ := by
    rcases h with h | h <;> simp [Site.isKept, h]
  rw [outline, kept_eq, kept_eq none, hkept]

/-- A mark of optional chaining is not kept beside operands. -/
theorem kept_of_isChainMark {parent : Label} {t : Tree} (hmark : t.isChainMark = true)
    (hparent : parent.operandFields?.isSome = true) : t.kept (some parent) = [] := by
  have hempty : t.children = [] := by
    unfold isChainMark at hmark
    simp_all
  rw [kept_eq]
  simp [Site.isKept, hmark, hparent, constituents, hempty]

/-- No constituent is a comment. -/
theorem isComment_of_mem_constituents {c t : Tree} (h : c ∈ t.constituents) :
    c.label.isComment = false := by
  have hkept := (List.mem_filter.mp h).2
  simp only [Bool.and_eq_true, Bool.not_eq_true'] at hkept
  exact hkept.2

/-- Beside operands all constituents but the marks of optional chaining are kept as they are
alone. -/
theorem flatMap_kept_of_operandFields {t : Tree} (h : t.label.operandFields?.isSome = true) :
    t.constituents.flatMap (kept (some t.label)) =
      (t.constituents.filter (!·.isChainMark)).flatMap outline := by
  have hmarks : ∀ c ∈ t.constituents, (!c.isChainMark) = false →
      c.kept (some t.label) = [] := by
    intro c _ hc
    exact kept_of_isChainMark (by simpa using hc) h
  rw [← flatMap_filter_of_nil hmarks]
  apply List.flatMap_congr
  intro c hc
  have hmark := (List.mem_filter.mp hc).2
  exact kept_eq_outline (Or.inl (by simpa using hmark))

/-- Without operands all constituents are kept as they are alone. -/
theorem flatMap_kept_of_no_operandFields {t : Tree} (h : t.label.operandFields? = none) :
    t.constituents.flatMap (kept (some t.label)) = t.constituents.flatMap outline := by
  apply List.flatMap_congr
  intro c _
  exact kept_eq_outline (Or.inr h)

/-- What a constituent stands for is neither a comment nor an argument list. -/
theorem of_mem_spread {p c : Tree} (hcomment : c.label.isComment = false) (h : p ∈ c.spread) :
    p.label.isComment = false ∧ p.label.kind ≠ "arguments" := by
  induction c using induction_descendants with
  | step c ih =>
    by_cases hkind : c.label.kind = "arguments"
    · rw [spread_of_arguments hkind, parts_eq, List.mem_flatMap] at h
      obtain ⟨d, hd, hp⟩ := h
      have hdesc := mem_descendants_of_mem_children (mem_children_of_mem_constituents hd)
      exact ih d hdesc (isComment_of_mem_constituents hd) hp
    · rw [spread_of_ne hkind, List.mem_singleton] at h
      subst h
      exact ⟨hcomment, hkind⟩

/-- A part is neither a comment nor an argument list. -/
theorem of_mem_parts {p t : Tree} (h : p ∈ t.parts) :
    p.label.isComment = false ∧ p.label.kind ≠ "arguments" := by
  rw [parts_eq, List.mem_flatMap] at h
  obtain ⟨c, hc, hp⟩ := h
  exact of_mem_spread (isComment_of_mem_constituents hc) hp

/-- The outline of an argument list is that of its constituents. -/
theorem outline_of_arguments {t : Tree} (h : t.label.kind = "arguments") :
    t.outline = t.constituents.flatMap outline := by
  have hshape : t.label.shape = .other := by
    simp [Label.shape, h, Kind.identifiers, Kind.literals]
  have hclosed : t.label.isClosed = false := by
    simp [Label.isClosed, Label.isComment, h, Kind.identifiers, Kind.literals, Kind.comments]
  have hfields : t.label.operandFields? = none := by rw [Label.operandFields?, hshape]
  rw [outline, kept_eq, hclosed, flatMap_kept_of_no_operandFields hfields]
  simp [Site.isKept, h]

/-- An argument list has the outlines of its parts, and any other tree has its own. -/
theorem flatMap_outline_spread (c : Tree) : c.spread.flatMap outline = c.outline := by
  induction c using induction_descendants with
  | step c ih =>
    by_cases hkind : c.label.kind = "arguments"
    · rw [spread_of_arguments hkind, parts_eq, List.flatMap_assoc, outline_of_arguments hkind]
      apply List.flatMap_congr
      intro d hd
      exact ih d (mem_descendants_of_mem_children (mem_children_of_mem_constituents hd))
    · rw [spread_of_ne hkind, List.flatMap_singleton]

/-- The parts have the same outlines as the constituents. -/
theorem flatMap_outline_parts (t : Tree) :
    t.parts.flatMap outline = t.constituents.flatMap outline := by
  simp only [parts_eq, List.flatMap_assoc, flatMap_outline_spread]

/-! ## Trees as the grammar shapes them -/

/-- A tree whose children are those the grammar gives it. -/
structure RegularAt (t : Tree) : Prop where
  /-- Parentheses enclose one tree. -/
  parentheses : t.label.kind = "parenthesized_expression" → ∃ c, t.constituents = [c]
  /-- But for marks of optional chaining, an access, a call or a binary expression consists of the
  two trees in its fields, in this order. -/
  operands : ∀ first second, t.label.operandFields? = some (first, second) →
    ∃ a b, t.inField? first = some a ∧ t.inField? second = some b ∧
      t.constituents.filter (!·.isChainMark) = [a, b]
  /-- An argument list stands in its field of a call or below a tree of no special shape. -/
  arguments : ∀ c ∈ t.children, c.label.kind = "arguments" →
    t.label.kind = "call_expression" ∧ c.label.field = some "arguments" ∨ t.label.shape = .other

/-- A tree that is regular all through, and whose root is neither a comment nor an argument list. -/
structure GrammarShaped (root : Tree) : Prop where
  regular : ∀ t ∈ root.subtrees, t.RegularAt
  not_comment : root.label.isComment = false
  not_arguments : root.label.kind ≠ "arguments"

mutual
/-- Trees are compared label by label. -/
def decEq : (s t : Tree) → Decidable (s = t)
  | node l cs, node m ds =>
    match instDecidableEqLabel l m, decEqAll cs ds with
    | isTrue hl, isTrue hcs => isTrue (hl ▸ hcs ▸ rfl)
    | isFalse hl, _ => isFalse fun h => hl (node.inj h).1
    | _, isFalse hcs => isFalse fun h => hcs (node.inj h).2

/-- Lists of trees are compared tree by tree. -/
def decEqAll : (ss ts : List Tree) → Decidable (ss = ts)
  | [], [] => isTrue rfl
  | [], _ :: _ => isFalse fun h => nomatch h
  | _ :: _, [] => isFalse fun h => nomatch h
  | s :: ss, t :: ts =>
    match s.decEq t, decEqAll ss ts with
    | isTrue hs, isTrue hss => isTrue (hs ▸ hss ▸ rfl)
    | isFalse hs, _ => isFalse fun h => hs (List.cons.inj h).1
    | _, isFalse hss => isFalse fun h => hss (List.cons.inj h).2
end

instance : DecidableEq Tree := decEq

/-- Checks whether a tree is regular at its root. -/
def isRegularAt (t : Tree) : Bool :=
  (t.label.kind ≠ "parenthesized_expression" || t.constituents.length = 1) &&
    (match t.label.operandFields? with
      | none => true
      | some (first, second) =>
        match t.inField? first, t.inField? second with
        | some a, some b => t.constituents.filter (!·.isChainMark) = [a, b]
        | _, _ => false) &&
    t.children.all fun c => c.label.kind ≠ "arguments" ||
      t.label.kind = "call_expression" && c.label.field = some "arguments" ||
      t.label.shape = .other

/-- The check finds out whether a tree is regular at its root. -/
theorem isRegularAt_iff (t : Tree) : t.isRegularAt = true ↔ t.RegularAt := by
  have hoperands : (match t.label.operandFields? with
      | none => true
      | some (first, second) =>
        match t.inField? first, t.inField? second with
        | some a, some b => decide (t.constituents.filter (!·.isChainMark) = [a, b])
        | _, _ => false) = true ↔
      ∀ first second, t.label.operandFields? = some (first, second) →
        ∃ a b, t.inField? first = some a ∧ t.inField? second = some b ∧
          t.constituents.filter (!·.isChainMark) = [a, b] := by
    cases t.label.operandFields? with
    | none => simp
    | some fields =>
      obtain ⟨first, second⟩ := fields
      cases ha : t.inField? first <;> cases hb : t.inField? second <;> simp [ha, hb]
  unfold isRegularAt
  rw [Bool.and_eq_true, Bool.and_eq_true, hoperands]
  constructor
  · rintro ⟨⟨hparentheses, hoperands⟩, harguments⟩
    refine ⟨?_, hoperands, ?_⟩
    · intro hkind
      simpa [hkind, List.length_eq_one_iff] using hparentheses
    · intro c hc hkind
      simpa [hkind] using List.all_eq_true.mp harguments c hc
  · intro h
    refine ⟨⟨?_, h.operands⟩, ?_⟩
    · by_cases hkind : t.label.kind = "parenthesized_expression"
      · simpa [hkind, List.length_eq_one_iff] using h.parentheses hkind
      · simp [hkind]
    · apply List.all_eq_true.mpr
      intro c hc
      by_cases hkind : c.label.kind = "arguments"
      · simpa [hkind] using h.arguments c hc hkind
      · simp [hkind]

instance (root : Tree) : Decidable root.GrammarShaped :=
  decidable_of_iff
    ((∀ t ∈ root.subtrees, t.isRegularAt = true) ∧ root.label.isComment = false ∧
      root.label.kind ≠ "arguments")
    ⟨fun h => ⟨fun t ht => t.isRegularAt_iff.mp (h.1 t ht), h.2.1, h.2.2⟩,
      fun h => ⟨fun t ht => t.isRegularAt_iff.mpr (h.regular t ht), h.not_comment,
        h.not_arguments⟩⟩

/-- A tree that lacks nothing of what the grammar gives it, but may have more children: parentheses
enclose something, the two operands are there, and argument lists stand where they belong. -/
structure IntactAt (t : Tree) : Prop where
  parentheses : t.label.kind = "parenthesized_expression" → t.constituents ≠ []
  operands : ∀ first second, t.label.operandFields? = some (first, second) →
    ∃ a b, t.inField? first = some a ∧ t.inField? second = some b ∧
      a ∈ t.constituents ∧ b ∈ t.constituents
  arguments : ∀ c ∈ t.children, c.label.kind = "arguments" →
    t.label.kind = "call_expression" ∧ c.label.field = some "arguments" ∨ t.label.shape = .other

/-- A regular tree lacks nothing. -/
theorem RegularAt.intactAt {t : Tree} (h : t.RegularAt) : t.IntactAt := by
  refine ⟨?_, ?_, h.arguments⟩
  · intro hkind
    obtain ⟨c, hc⟩ := h.parentheses hkind
    simp [hc]
  · intro first second hfields
    obtain ⟨a, b, ha, hb, hab⟩ := h.operands first second hfields
    have hmem {c : Tree} (hc : c ∈ [a, b]) : c ∈ t.constituents := by
      rw [← hab] at hc
      exact (List.mem_filter.mp hc).1
    exact ⟨a, b, ha, hb, hmem (by simp), hmem (by simp)⟩

/-- Only the field for arguments holds an argument list. -/
theorem IntactAt.kind_ne_arguments {c t : Tree} {field : String} (h : t.IntactAt)
    (hc : t.inField? field = some c) (hfield : field ≠ "arguments")
    (hshape : t.label.shape ≠ .other) : c.label.kind ≠ "arguments" := by
  intro hkind
  rcases h.arguments c (mem_children_of_inField? hc) hkind with ⟨-, hlist⟩ | hother
  · have hfound := List.find?_some hc
    simp only [decide_eq_true_eq] at hfound
    rw [hlist, Option.some.injEq] at hfound
    exact hfield hfound.symm
  · exact hshape hother

/-- Parentheses do not hold an argument list directly. -/
theorem IntactAt.kind_ne_arguments_of_parentheses {c t : Tree} (h : t.IntactAt)
    (hkind : t.label.kind = "parenthesized_expression") (hc : c ∈ t.constituents) :
    c.label.kind ≠ "arguments" := by
  have hshape : t.label.shape = .parentheses := Label.shape_of_kind rfl hkind
  intro hlist
  rcases h.arguments c (mem_children_of_mem_constituents hc) hlist with ⟨hcall, -⟩ | hother
  · rw [hkind] at hcall
    exact absurd hcall (by decide)
  · rw [hshape] at hother
    cases hother

/-- The branches of an intact tree with operands are the first operand and what the second one
stands for. -/
theorem IntactAt.branches_eq {t a b : Tree} {first second : String} (h : t.IntactAt)
    (hfields : t.label.operandFields? = some (first, second)) (ha : t.inField? first = some a)
    (hb : t.inField? second = some b) : t.branches = a :: b.spread := by
  unfold Label.operandFields? at hfields
  cases hshape : t.label.shape with
  | member computed =>
    simp only [hshape, Option.some.injEq, Prod.mk.injEq] at hfields
    obtain ⟨rfl, rfl⟩ := hfields
    have hkind : b.label.kind ≠ "arguments" :=
      h.kind_ne_arguments hb (by cases computed <;> decide) (by simp [hshape])
    simp [branches, hshape, ha, hb, spread_of_ne hkind]
  | call =>
    simp only [hshape, Option.some.injEq, Prod.mk.injEq] at hfields
    obtain ⟨rfl, rfl⟩ := hfields
    simp [branches, hshape, ha, Tree.arguments, hb]
  | binary =>
    simp only [hshape, Option.some.injEq, Prod.mk.injEq] at hfields
    obtain ⟨rfl, rfl⟩ := hfields
    have hkind : b.label.kind ≠ "arguments" :=
      h.kind_ne_arguments hb (by decide) (by simp [hshape])
    simp [branches, hshape, ha, hb, spread_of_ne hkind]
  | _ => simp [hshape] at hfields

/-- The branches of a tree without operands are its parts, unless it is closed. -/
theorem branches_of_no_operandFields {t : Tree} (hfields : t.label.operandFields? = none)
    (hcomment : t.label.isComment = false) :
    t.branches = if t.label.isClosed then [] else t.parts := by
  have hclosed := t.label.isClosed_iff
  unfold Label.operandFields? at hfields
  cases hshape : t.label.shape <;> simp_all [branches]

/-- A branch of an intact tree is neither a comment nor an argument list. -/
theorem IntactAt.of_mem_branches {b t : Tree} (h : t.IntactAt)
    (hcomment : t.label.isComment = false) (hb : b ∈ t.branches) :
    b.label.isComment = false ∧ b.label.kind ≠ "arguments" := by
  cases hfields : t.label.operandFields? with
  | none =>
    rw [branches_of_no_operandFields hfields hcomment] at hb
    split at hb
    · cases hb
    · exact of_mem_parts hb
  | some fields =>
    obtain ⟨first, second⟩ := fields
    obtain ⟨a, c, ha, hc, hmema, hmemc⟩ := h.operands _ _ hfields
    rw [h.branches_eq hfields ha hc, List.mem_cons] at hb
    rcases hb with rfl | hb
    · obtain ⟨hfirst, hother, -⟩ := Label.of_operandFields? hfields
      exact ⟨isComment_of_mem_constituents hmema, h.kind_ne_arguments ha hfirst hother⟩
    · exact of_mem_spread (isComment_of_mem_constituents hmemc) hb

/-- The outline of a regular tree without parentheses is the tree itself and then the outlines of
its branches. -/
theorem RegularAt.outline_eq {t : Tree} (h : t.RegularAt)
    (hkind : t.label.kind ≠ "parenthesized_expression") (hcomment : t.label.isComment = false)
    (harguments : t.label.kind ≠ "arguments") :
    t.outline = t :: t.branches.flatMap outline := by
  have hkept : Site.isKept ⟨none, t⟩ = true := by
    simp [Site.isKept, hkind, hcomment, harguments]
  have hbelow : (if t.label.isClosed then [] else t.constituents.flatMap (kept (some t.label))) =
      t.branches.flatMap outline := by
    cases hfields : t.label.operandFields? with
    | none =>
      rw [branches_of_no_operandFields hfields hcomment]
      split
      · rfl
      · rw [flatMap_outline_parts, flatMap_kept_of_no_operandFields hfields]
    | some fields =>
      obtain ⟨first, second⟩ := fields
      obtain ⟨a, b, ha, hb, hab⟩ := h.operands _ _ hfields
      obtain ⟨-, -, hidentifier, hliteral⟩ := Label.of_operandFields? hfields
      have hopen : ¬ t.label.isClosed = true := by
        simp [Label.isClosed_iff, hcomment, hidentifier, hliteral]
      rw [if_neg hopen, flatMap_kept_of_operandFields (by rw [hfields]; rfl), hab,
        h.intactAt.branches_eq hfields ha hb]
      simp [flatMap_outline_spread]
  rw [outline, kept_eq, if_pos hkept, hbelow, List.singleton_append]

/-- Regular parentheses have the outline of the one tree that they hold. -/
theorem RegularAt.outline_parentheses {t c : Tree} (h : t.RegularAt)
    (hkind : t.label.kind = "parenthesized_expression") (hc : t.constituents = [c]) :
    t.parts = [c] ∧ t.outline = c.outline := by
  have hshape : t.label.shape = .parentheses := Label.shape_of_kind rfl hkind
  have hfields : t.label.operandFields? = none := by rw [Label.operandFields?, hshape]
  have hclosed : t.label.isClosed = false := by
    simp [Label.isClosed, Label.isComment, hkind, Kind.identifiers, Kind.literals, Kind.comments]
  have hckind : c.label.kind ≠ "arguments" :=
    h.intactAt.kind_ne_arguments_of_parentheses hkind (by simp [hc])
  constructor
  · rw [parts_eq, hc, List.flatMap_singleton, spread_of_ne hckind]
  · rw [outline, kept_eq, hclosed, flatMap_kept_of_no_operandFields hfields, hc]
    simp [Site.isKept, hkind]

/-! ## The walk is the outline -/

/-- The trees of an outline are bare. -/
theorem isBare_of_mem_outline {s t : Tree} (h : s ∈ t.outline) : s.IsBare := by
  obtain ⟨site, hsite, rfl⟩ := List.mem_map.mp h
  have hkept := (List.mem_filter.mp hsite).2
  apply isBare_of_kind_ne
  intro hkind
  simp [Site.isKept, hkind] at hkept

variable (source : Source)

/-- The pre-order of the node of a regular tree is the outline of the tree. -/
theorem preorder_toNode_eq_map_outline {t : Tree} (hregular : ∀ s ∈ t.subtrees, s.RegularAt)
    (hcomment : t.label.isComment = false) (harguments : t.label.kind ≠ "arguments") :
    (t.toNode source).preorder = t.outline.map (toNode source) := by
  induction t using induction_descendants with
  | step t ih =>
    have hself := hregular t t.self_mem_subtrees
    have hbelow {s : Tree} (hs : s ∈ t.descendants) (hscomment : s.label.isComment = false)
        (hskind : s.label.kind ≠ "arguments") :
        (s.toNode source).preorder = s.outline.map (toNode source) := by
      apply ih s hs _ hscomment hskind
      intro r hr
      exact hregular r (mem_subtrees_trans (mem_subtrees_of_mem_descendants hs) hr)
    by_cases hkind : t.label.kind = "parenthesized_expression"
    · obtain ⟨c, hc⟩ := hself.parentheses hkind
      obtain ⟨hparts, houtline⟩ := hself.outline_parentheses hkind hc
      have hmem : c ∈ t.parts := by simp [hparts]
      have hnode : t.toNode source = c.toNode source := by
        rw [← toNode_unwrap source t, unwrap_of_parts hkind hparts, toNode_unwrap]
      rw [hnode, houtline]
      exact hbelow (mem_descendants_of_mem_parts hmem) (of_mem_parts hmem).1 (of_mem_parts hmem).2
    · rw [preorder_toNode source (isBare_of_kind_ne hkind),
        hself.outline_eq hkind hcomment harguments, List.map_cons, List.map_flatMap]
      congr 1
      apply List.flatMap_congr
      intro b hb
      obtain ⟨hbcomment, hbkind⟩ := hself.intactAt.of_mem_branches hcomment hb
      exact hbelow (mem_descendants_of_mem_branches hb) hbcomment hbkind

/-- On a tree that has the shape of the grammar nothing is lost, repeated or moved: the walk over
the abstract tree goes through the nodes of the outline, one by one and in order, and each has the
span, the line, the column and the kind of its tree. -/
theorem walk_eq_map_outline (t : Tree) (h : t.GrammarShaped) :
    (t.toNode source).walk = t.outline.map (toNode source) ∧
      (t.toNode source).walk.map Node.head = t.outline.map fun s =>
        { kind := s.nodeKind source, start := s.label.start, stop := s.label.stop,
          line := (s.label.row : Int) + 1,
          column := source.characterColumn s.label.start s.label.column } := by
  have hwalk : (t.toNode source).walk = t.outline.map (toNode source) := by
    rw [Node.walk_eq_preorder]
    exact preorder_toNode_eq_map_outline source h.regular h.not_comment h.not_arguments
  refine ⟨hwalk, ?_⟩
  rw [hwalk, List.map_map]
  apply List.map_congr_left
  intro s hs
  exact head_toNode source (isBare_of_mem_outline hs)

/-- The tree of `(a?.b)(c)` behind a comment and a line feed, the source being `//\n(a?.b)(c)`. -/
def chainScript : Tree :=
  node ⟨"program", 0, 12, 0, 0, none, true⟩
    [node ⟨"comment", 0, 2, 0, 0, none, true⟩ [],
      node ⟨"call_expression", 3, 12, 1, 0, none, true⟩
        [node ⟨"parenthesized_expression", 3, 9, 1, 0, some "function", true⟩
            [node ⟨"(", 3, 4, 1, 0, none, false⟩ [],
              node ⟨"member_expression", 4, 8, 1, 1, none, true⟩
                [node ⟨"identifier", 4, 5, 1, 1, some "object", true⟩ [],
                  node ⟨"optional_chain", 5, 7, 1, 2, none, true⟩ [],
                  node ⟨"property_identifier", 7, 8, 1, 4, some "property", true⟩ []],
              node ⟨")", 8, 9, 1, 5, none, false⟩ []],
          node ⟨"arguments", 9, 12, 1, 6, some "arguments", true⟩
            [node ⟨"identifier", 10, 11, 1, 7, none, true⟩ []]]]

/-- The bytes of `//\n(a?.b)(c)`. -/
def chainSource : Source := [47, 47, 10, 40, 97, 63, 46, 98, 41, 40, 99, 41]

/-- Neither the comment, the parentheses, the mark of optional chaining nor the argument list has
become a node. -/
theorem walk_eq_map_outline_chainScript :
    chainScript.GrammarShaped ∧
      (chainScript.toNode chainSource).walk.map Node.head =
        [⟨"Program", 0, 12, 1, 1⟩, ⟨"CallExpression", 3, 12, 2, 1⟩,
          ⟨"MemberExpression", 4, 8, 2, 2⟩, ⟨"Identifier", 4, 5, 2, 2⟩,
          ⟨"Identifier", 7, 8, 2, 5⟩, ⟨"Identifier", 10, 11, 2, 8⟩] := by
  have hshaped : chainScript.GrammarShaped := by decide
  refine ⟨hshaped, ?_⟩
  rw [(walk_eq_map_outline chainSource chainScript hshaped).2]
  decide

/-- A named identifier of one byte. -/
def stray (start : Nat) : Tree :=
  node ⟨"identifier", start, start + 1, 0, start, none, true⟩ []

/-- A program with an identifier below a punctuation mark and one below a comment. -/
def strayScript : Tree :=
  node ⟨"program", 0, 2, 0, 0, none, true⟩
    [node ⟨";", 0, 1, 0, 0, none, false⟩ [stray 0],
      node ⟨"comment", 1, 2, 0, 1, none, true⟩ [stray 1]]

/-- The outline cannot list every named tree. These two identifiers are named and lie below no
identifier, literal, parentheses or argument list, and yet neither has a node in the walk. -/
theorem walk_without_strays :
    strayScript.GrammarShaped ∧
      (∀ s ∈ [stray 0, stray 1], s ∈ strayScript.subtrees ∧ s.label.named = true ∧
        s.label.kind = "identifier" ∧
        ∀ a ∈ strayScript.subtrees, s ∈ a.descendants →
          a.label.shape = .other ∧ a.label.kind ≠ "arguments") ∧
      ∀ s ∈ [stray 0, stray 1], ∀ n ∈ (strayScript.toNode [97, 98]).walk,
        n.head ≠ s.nodeHead [97, 98] := by
  have hshaped : strayScript.GrammarShaped := by decide
  have hwalk : (strayScript.toNode [97, 98]).walk = [strayScript.toNode [97, 98]] := by
    rw [Node.walk_eq_preorder, preorder_toNode_eq_map_outline _ hshaped.regular
      hshaped.not_comment hshaped.not_arguments]
    rfl
  refine ⟨hshaped, by decide, ?_⟩
  rw [hwalk]
  decide

end Tree

end ScriptAudit.Concrete
