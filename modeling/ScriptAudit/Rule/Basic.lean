import ScriptAudit.Diagnostic.Basic
import ScriptAudit.Log
import ScriptAudit.Node.Walk
import ScriptAudit.Secret.Search

/-!
# Rules

Each rule looks at one node and says what it finds there as a list of remarks. Rules keep no state
and never fail; a rule that does not find the parts it looks for has nothing to remark. One rule
also looks at the tree as a whole.
-/

set_option autoImplicit false

namespace ScriptAudit

/-- The rules. -/
inductive Rule where
  | consoleLog
  | inputFieldAccess
  | evalCall
  | typeConversion
  | truncation
  | hardcodedSecret
  deriving DecidableEq, Repr

/-- A finding before it is known to stand at a proper place. -/
structure Remark where
  place : Head
  severity : Severity
  message : String
  deriving DecidableEq, Repr

namespace Rule

/-- Every rule, in the order in which they run on a node. -/
def all : List Rule :=
  [consoleLog, inputFieldAccess, evalCall, typeConversion, truncation, hardcodedSecret]

/-- The identifier of a rule. -/
def id : Rule → String
  | consoleLog => "console-log"
  | inputFieldAccess => "input-field-access"
  | evalCall => "eval-call"
  | typeConversion => "unsafe-type-conversion"
  | truncation => "bitwise-truncation"
  | hardcodedSecret => "hardcoded-secret"

/-- The rule of an identifier. -/
def ofId? (s : String) : Option Rule := all.find? (·.id = s)

/-- The title of a rule. -/
def title : Rule → String
  | consoleLog => "Console logging"
  | inputFieldAccess => "Direct input field access"
  | evalCall => "Dangerous eval() call"
  | typeConversion => "Unsafe type conversion"
  | truncation => "Truncation via bitwise OR"
  | hardcodedSecret => "Hardcoded secret"

/-- The kinds of nodes a rule looks at. -/
def kinds : Rule → List String
  | consoleLog => ["MemberExpression"]
  | inputFieldAccess => ["MemberExpression"]
  | evalCall => ["CallExpression"]
  | typeConversion => ["BinaryExpression"]
  | truncation => ["BinaryExpression"]
  | hardcodedSecret => ["Literal"]

/-- Whether a rule looks at the tree as a whole. -/
def needsTree : Rule → Bool
  | inputFieldAccess => true
  | _ => false

/-- The name of an optional node. -/
def nameIn? (n : Option Node) : Option String := n.bind Node.name?

/-- The names of the methods that write to the console while debugging. -/
def loggingMethods : List String := ["log", "debug"]

/-- A member access that names one of the logging methods of the console. -/
def isConsoleLog (n : Node) : Bool :=
  nameIn? n.object? = some "console" && (nameIn? n.property?).any (loggingMethods.contains ·)

/-- A member access that looks up an element of the page. -/
def isElementLookup (n : Node) : Bool :=
  n.kind = "MemberExpression" && nameIn? n.property? = some "getElementById"

/-- A member access that reads the value of an input field. -/
def isValueRead (n : Node) : Bool := nameIn? n.property? = some "value"

/-- A call of the bare function that runs text as code. -/
def isEvalCall (n : Node) : Bool := nameIn? n.callee? = some "eval"

/-- The message for an operator that converts its operands, if it does. Adding operands of one kind
is taken to be safe. -/
def conversionMessage? (n : Node) : Option String :=
  match n.operator? with
  | some "+" =>
    match n.operands with
    | (some left, some right) =>
      if left.kind = right.kind then none
      else some "possible unsafe type conversion with + operator"
    | _ => none
  | some "==" => some "possible unsafe type conversion with ==, use === instead"
  | some "!=" => some "possible unsafe type conversion with !=, use !== instead"
  | _ => none

/-- A literal that is spelled as a single zero. -/
def isZeroLiteral (n : Option Node) : Bool := n.bind Node.raw? = some "0"

/-- A bitwise OR with a zero on either side. -/
def isTruncation (n : Node) : Bool :=
  n.operator? = some "|" && (isZeroLiteral n.operands.1 || isZeroLiteral n.operands.2)

/-- The secrets in the value of a text literal. -/
def secrets (n : Node) : List Secret.Match :=
  match n.value with
  | .text s => Secret.search Secret.Pattern.all s
  | _ => []

/-- One remark at a node if a condition holds there. -/
def remarkIf (condition : Bool) (n : Node) (severity : Severity) (message : String) :
    List Remark :=
  if condition then [{ place := n.head, severity, message }] else []

/-- The neighbourhood of a read: the first node of the tree that does not start before it. -/
def neighbourhood? (tree : Option Node) (n : Node) : Option Node :=
  tree.bind (·.firstAfter? n.head.start)

/-- What a rule has to say about a node. -/
def remarks (rule : Rule) (tree : Option Node) (n : Node) : List Remark :=
  match rule with
  | consoleLog => remarkIf (isConsoleLog n) n .info "information being logged to console"
  | inputFieldAccess =>
    if isValueRead n then
      match neighbourhood? tree n with
      | some anchor =>
        (anchor.walk.filter isElementLookup).map fun inner =>
          { place := inner.head, severity := .info,
            message := "direct input field access, sanitization required" }
      | none => []
    else []
  | evalCall => remarkIf (isEvalCall n) n .warning "dangerous use of eval() method"
  | typeConversion =>
    (conversionMessage? n).toList.map fun message =>
      { place := n.head, severity := .info, message }
  | truncation =>
    remarkIf (isTruncation n) n .info "possible truncation detected using bitwise OR"
  | hardcodedSecret =>
    (secrets n).map fun m =>
      { place := n.head, severity := .warning,
        message := "found hardcoded secret - " ++ m.preview }

/-- What there is to log while a rule looks at a node: a read without a neighbourhood. -/
def notes (rule : Rule) (tree : Option Node) (n : Node) : Log :=
  if rule = inputFieldAccess ∧ isValueRead n ∧ tree.isSome ∧ (neighbourhood? tree n).isNone then
    [{ level := .debug, channel := .fieldAccess,
       text := "No node after offset " ++ toString n.head.start ++ "; skipping .value at line " ++
         toString n.head.line }]
  else []

end Rule

/-- The diagnostic of a remark of a rule, if it stands at a proper place. -/
def Remark.diagnostic (remark : Remark) (rule : Rule) : Except Diagnostic.Faults Diagnostic :=
  Diagnostic.at? rule.id remark.severity remark.message remark.place.line remark.place.column

/-- The diagnostics of a rule for a node. -/
def Rule.check (rule : Rule) (tree : Option Node) (n : Node) :
    Except Diagnostic.Faults (List Diagnostic) :=
  (rule.remarks tree n).mapM (·.diagnostic rule)

end ScriptAudit
