import ScriptAudit.Concrete
import ScriptAudit.Literal.Number
import ScriptAudit.Literal.Text
import ScriptAudit.Node.Basic
import ScriptAudit.Node.Kind
import ScriptAudit.Source

/-!
# From concrete to abstract trees

The abstract tree leaves out punctuation, comments, parentheses and the brackets of argument lists.
It is built from the leaves up. What a parent needs to know of a child is collected in `Adapted`:
the child's label, the node it becomes, and the nodes its own children become, which stand in for
the child itself when it is an argument list.

A numeric literal that cannot be read gets no value; its text is kept on the side.
-/

set_option autoImplicit false

namespace ScriptAudit.Concrete

/-- A node, and the numeric literals below it that could not be read, in source order. -/
structure Built where
  node : Node
  unreadable : List String := []

/-- What a parent needs to know of a child. -/
structure Adapted where
  label : Label
  built : Built
  parts : List Built

/-- The nodes a child contributes to its parent: none if it is punctuation or a comment, its own
parts if it is an argument list, and else the node it becomes. -/
def Adapted.contribution (child : Adapted) : List Built :=
  if !child.label.named then []
  else if Kind.comments.contains child.label.kind then []
  else if child.label.kind = "arguments" then child.parts
  else [child.built]

/-- The first child in the given field. -/
def childIn? (field : String) (children : List Adapted) : Option Adapted :=
  children.find? (·.label.field = some field)

/-- The text a label covers. -/
def Label.text (source : Source) (label : Label) : String := source.text label.start label.stop

/-- The head of the node for a label. -/
def Label.head (source : Source) (label : Label) (kind : String) : Head :=
  { kind, start := label.start, stop := label.stop, line := (label.row : Int) + 1,
    column := source.characterColumn label.start label.column }

/-- The value of a literal of a kind of the grammar, unless it is a number that cannot be read. -/
def literalValue? (kind raw : String) : Option Value :=
  if kind = "string" then some (.text (Literal.textValue raw))
  else if kind = "number" then Literal.numberValue? raw
  else if kind = "true" then some (.bool true)
  else if kind = "false" then some (.bool false)
  else some .null

/-- The node of a literal. -/
def buildLiteral (source : Source) (label : Label) : Built :=
  let raw := label.text source
  let value := literalValue? label.kind raw
  { node := .literal (label.head source "Literal") (value.getD .null) (some raw),
    unreadable := if value.isNone then [raw] else [] }

/-- The node in an optional part. -/
def node? (part : Option Built) : Option Node := part.map (·.node)

/-- The unreadable numbers in optional parts. -/
def unreadableIn (parts : List (Option Built)) : List String :=
  parts.flatMap fun part => part.elim [] (·.unreadable)

/-- The node of a member access, whose property stands in the given field. -/
def buildMember (source : Source) (label : Label) (children : List Adapted) (computed : Bool) :
    Built :=
  let object := (childIn? "object" children).map (·.built)
  let property := (childIn? (if computed then "index" else "property") children).map (·.built)
  { node := .member (label.head source "MemberExpression") (node? object) (node? property) computed,
    unreadable := unreadableIn [object, property] }

/-- The arguments of a call: the parts of its argument list, or the single template it is applied
to. -/
def callArguments (children : List Adapted) : List Built :=
  match childIn? "arguments" children with
  | none => []
  | some child => if child.label.kind = "arguments" then child.parts else [child.built]

/-- The node of a call. -/
def buildCall (source : Source) (label : Label) (children : List Adapted) : Built :=
  let callee := (childIn? "function" children).map (·.built)
  let arguments := callArguments children
  { node := .call (label.head source "CallExpression") (node? callee) (arguments.map (·.node)),
    unreadable := unreadableIn [callee] ++ arguments.flatMap (·.unreadable) }

/-- The node of a binary expression, which is a logical one for the logical operators. -/
def buildBinary (source : Source) (label : Label) (children : List Adapted) : Built :=
  let operator := (childIn? "operator" children).map (·.label.text source)
  let left := (childIn? "left" children).map (·.built)
  let right := (childIn? "right" children).map (·.built)
  let kind :=
    if operator.any (Kind.logicalOperators.contains ·) then "LogicalExpression"
    else "BinaryExpression"
  { node := .binary (label.head source kind) operator (node? left) (node? right),
    unreadable := unreadableIn [left, right] }

/-- The node of any other tree. -/
def buildGeneric (source : Source) (label : Label) (parts : List Built) : Built :=
  { node := .generic (label.head source (Kind.ofGrammar label.kind)) (parts.map (·.node)),
    unreadable := parts.flatMap (·.unreadable) }

/-- The node of a tree, from its label, its children and the parts they contribute. Parentheses are
the first part between them. -/
def build (source : Source) (label : Label) (children : List Adapted) (parts : List Built) :
    Built :=
  if label.kind = "parenthesized_expression" then
    match parts with
    | inner :: _ => inner
    | [] => buildGeneric source label parts
  else if Kind.identifiers.contains label.kind then
    { node := .identifier (label.head source "Identifier") (some (label.text source)) }
  else if Kind.literals.contains label.kind then buildLiteral source label
  else if label.kind = "member_expression" then buildMember source label children false
  else if label.kind = "subscript_expression" then buildMember source label children true
  else if label.kind = "call_expression" then buildCall source label children
  else if label.kind = "binary_expression" then buildBinary source label children
  else buildGeneric source label parts

/-- Puts a tree together from its label and its adapted children. -/
def assemble (source : Source) (label : Label) (children : List Adapted) : Adapted :=
  let parts := children.flatMap Adapted.contribution
  { label, parts, built := build source label children parts }

mutual
/-- Adapts a tree. -/
def Tree.adapt (source : Source) : Tree → Adapted
  | .node label children => assemble source label (adaptAll source children)

/-- Adapts the trees of a list. -/
def Tree.adaptAll (source : Source) : List Tree → List Adapted
  | [] => []
  | t :: rest => t.adapt source :: adaptAll source rest
end

/-- The abstract tree of a concrete tree. -/
def Tree.toNode (source : Source) (t : Tree) : Node := (t.adapt source).built.node

/-- The numeric literals of a concrete tree that could not be read. -/
def Tree.unreadable (source : Source) (t : Tree) : List String := (t.adapt source).built.unreadable

/-- Adapting a list adapts each of its trees. -/
theorem Tree.adaptAll_eq_map (source : Source) (ts : List Tree) :
    adaptAll source ts = ts.map (·.adapt source) := by
  induction ts with
  | nil => rw [adaptAll, List.map_nil]
  | cons t rest ih => rw [adaptAll, ih, List.map_cons]

end ScriptAudit.Concrete
