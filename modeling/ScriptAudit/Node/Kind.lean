/-!
# Kinds of nodes

The grammar's kinds are written in lower case with underscores; the kinds of abstract nodes are
written in camel case. A table gives the kinds whose name is not just the camel-case form.
-/

set_option autoImplicit false

namespace ScriptAudit.Kind

/-- The camel-case form of a name: the letter at the start and after each underscore is a capital,
every other letter is small, and the underscores go. Letters are those of ASCII, which grammars
use. -/
def camelCase : Bool → List Char → List Char
  | _, [] => []
  | first, c :: cs =>
    if c = '_' then camelCase true cs
    else (if first then c.toUpper else c.toLower) :: camelCase false cs

/-- Kinds that have a name of their own. -/
def table : List (String × String) :=
  [("program", "Program"),
    ("expression_statement", "ExpressionStatement"),
    ("lexical_declaration", "VariableDeclaration"),
    ("variable_declaration", "VariableDeclaration"),
    ("variable_declarator", "VariableDeclarator"),
    ("function_declaration", "FunctionDeclaration"),
    ("generator_function_declaration", "FunctionDeclaration"),
    ("function", "FunctionExpression"),
    ("function_expression", "FunctionExpression"),
    ("generator_function", "FunctionExpression"),
    ("arrow_function", "ArrowFunctionExpression"),
    ("class_declaration", "ClassDeclaration"),
    ("class", "ClassExpression"),
    ("class_body", "ClassBody"),
    ("method_definition", "MethodDefinition"),
    ("statement_block", "BlockStatement"),
    ("if_statement", "IfStatement"),
    ("else_clause", "ElseClause"),
    ("for_statement", "ForStatement"),
    ("for_in_statement", "ForInStatement"),
    ("while_statement", "WhileStatement"),
    ("do_statement", "DoWhileStatement"),
    ("return_statement", "ReturnStatement"),
    ("throw_statement", "ThrowStatement"),
    ("try_statement", "TryStatement"),
    ("catch_clause", "CatchClause"),
    ("switch_statement", "SwitchStatement"),
    ("switch_case", "SwitchCase"),
    ("object", "ObjectExpression"),
    ("array", "ArrayExpression"),
    ("pair", "Property"),
    ("assignment_expression", "AssignmentExpression"),
    ("augmented_assignment_expression", "AssignmentExpression"),
    ("unary_expression", "UnaryExpression"),
    ("update_expression", "UpdateExpression"),
    ("ternary_expression", "ConditionalExpression"),
    ("new_expression", "NewExpression"),
    ("await_expression", "AwaitExpression"),
    ("yield_expression", "YieldExpression"),
    ("sequence_expression", "SequenceExpression"),
    ("spread_element", "SpreadElement"),
    ("template_string", "TemplateLiteral"),
    ("this", "ThisExpression"),
    ("super", "Super"),
    ("import_statement", "ImportDeclaration"),
    ("export_statement", "ExportNamedDeclaration")]

/-- The kind of the abstract node for a kind of the grammar. -/
def ofGrammar (kind : String) : String :=
  (table.lookup kind).getD (String.ofList (camelCase true kind.toList))

/-- Kinds of the grammar that are identifiers. -/
def identifiers : List String :=
  ["identifier", "property_identifier", "private_property_identifier",
    "shorthand_property_identifier", "shorthand_property_identifier_pattern",
    "statement_identifier", "undefined"]

/-- Kinds of the grammar that are literals. -/
def literals : List String := ["string", "number", "true", "false", "null", "regex"]

/-- Kinds of the grammar that are comments. -/
def comments : List String := ["comment", "html_comment"]

/-- The operators of logical expressions. -/
def logicalOperators : List String := ["&&", "||", "??"]

end ScriptAudit.Kind
