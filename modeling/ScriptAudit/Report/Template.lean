import ScriptAudit.Diagnostic.Basic
import ScriptAudit.Report.Form
import ScriptAudit.Report.Markup
import ScriptAudit.Text.Quoted

/-!
# Templates

A template is text with fields between braces; a brace that is written twice stands for itself. A
field names an argument and may go on from it to attributes and items. Behind an exclamation mark it
may ask for a conversion to text, and behind a colon for a form. A form may have fields of its own,
but these have no further ones.

A template is filled from left to right, and the first fault counts. So it is first read as far as
it can be, `Template.read`, and its fields are then evaluated in order; what stopped the reading
counts only if none of them has a fault.

Arguments are numbers and texts. What else can be reached from them are objects of a host, and what
these are is known to the host alone.
-/

set_option autoImplicit false

namespace ScriptAudit.Report

open ScriptAudit.Text

/-- The kinds of faults. -/
inductive FaultKind where
  | value
  | key
  | index
  | member
  | type
  | range
  | other
  deriving DecidableEq, Repr

/-- What can be wrong with a template, or with what it asks for. -/
inductive TemplateFault where
  | openAtEnd
  | strayClose
  | unclosed
  | openInName
  | noConversion
  | strayConversion
  | unmatchedOpen
  | tooDeep
  | longIndex
  | strayAccess
  | unclosedItem
  | emptyAccess
  | unknownConversion (conversion : Char)
  | form (fault : FormFault)
  | unknownName (name : String)
  | noArgument (index : Nat)
  | noAttribute (type name : String)
  | noItems (type : String)
  | noItem
  | itemByName
  | host (kind : FaultKind) (message : String)
  deriving DecidableEq, Repr

namespace TemplateFault

/-- The fault in words. -/
def message : TemplateFault → String
  | openAtEnd => "Single '\x7b' encountered in format string"
  | strayClose => "Single '\x7d' encountered in format string"
  | unclosed => "expected '\x7d' before end of string"
  | openInName => "unexpected '\x7b' in field name"
  | noConversion => "end of string while looking for conversion specifier"
  | strayConversion => "expected ':' after conversion specifier"
  | unmatchedOpen => "unmatched '\x7b' in format spec"
  | tooDeep => "Max string recursion exceeded"
  | longIndex => "Too many decimal digits in format string"
  | strayAccess => "Only '.' or '[' may follow ']' in format field specifier"
  | unclosedItem => "Missing ']' in format string"
  | emptyAccess => "Empty attribute in format string"
  | unknownConversion conversion =>
    "Unknown conversion specifier " ++ shownInMessage 127 conversion
  | form fault => fault.message
  | unknownName name => quoted name
  | noArgument index =>
    "Replacement index " ++ toString index ++ " out of range for positional args tuple"
  | noAttribute type name => "'" ++ type ++ "' object has no attribute '" ++ name ++ "'"
  | noItems type => "'" ++ type ++ "' object is not subscriptable"
  | noItem => "string index out of range"
  | itemByName => "string indices must be integers, not 'str'"
  | host _ message => message

/-- The kind of a fault. Whatever is wrong with the template itself, or with a form that its value
cannot be given, is a fault of value. -/
def kind : TemplateFault → FaultKind
  | form fault => if fault.isOutOfRange then .range else .value
  | unknownName _ => .key
  | noArgument _ => .index
  | noAttribute _ _ => .member
  | noItems _ => .type
  | noItem => .index
  | itemByName => .type
  | host kind _ => kind
  | _ => .value

/-- A reporter cannot go on with a template that has a fault of value. -/
def isFatal (fault : TemplateFault) : Bool := fault.kind = .value

end TemplateFault

namespace Template

/-! ## Reading a template -/

/-- A field: the argument it names with all that is reached from it, the conversion and the form. -/
structure Field where
  name : List Char
  conversion : Option Char := none
  form : List Char := []
  deriving DecidableEq, Repr

/-- The form has fields of its own. -/
def Field.isNested (field : Field) : Bool := field.form.contains '\x7b'

/-- A character that stands for itself, or a field. -/
inductive Item where
  | literal (c : Char)
  | field (field : Field)
  deriving DecidableEq, Repr

/-- Where in a template a character stands: in its text, behind a closing brace, in the name of a
field and there between brackets or not, behind an exclamation mark, behind a conversion, or in a
form with so many open braces. -/
inductive Place where
  | text
  | closing
  | name (name : List Char) (bracketed : Bool)
  | conversion (name : List Char)
  | converted (name : List Char) (conversion : Char)
  | form (field : Field) (depth : Nat)
  deriving DecidableEq, Repr

namespace Place

/-- What is read with a character: where the next one stands, and an item if one ends here. -/
def step : Place → Char → Except TemplateFault (Place × Option Item)
  | text, '\x7b' => .ok (name [] false, none)
  | text, '\x7d' => .ok (closing, none)
  | text, c => .ok (text, some (.literal c))
  | closing, '\x7d' => .ok (text, some (.literal '\x7d'))
  | closing, _ => .error .strayClose
  | name cs true, c => .ok (name (cs ++ [c]) (c ≠ ']'), none)
  | name [] false, '\x7b' => .ok (text, some (.literal '\x7b'))
  | name _ false, '\x7b' => .error .openInName
  | name cs false, '\x7d' => .ok (text, some (.field { name := cs }))
  | name cs false, ':' => .ok (form { name := cs } 0, none)
  | name cs false, '!' => .ok (conversion cs, none)
  | name cs false, c => .ok (name (cs ++ [c]) (c = '['), none)
  | conversion cs, c => .ok (converted cs c, none)
  | converted cs c, '\x7d' => .ok (text, some (.field { name := cs, conversion := some c }))
  | converted cs c, ':' => .ok (form { name := cs, conversion := some c } 0, none)
  | converted _ _, _ => .error .strayConversion
  | form field 0, '\x7d' => .ok (text, some (.field field))
  | form field depth, c =>
    let depth := if c = '\x7b' then depth + 1 else if c = '\x7d' then depth - 1 else depth
    .ok (form { field with form := field.form ++ [c] } depth, none)

/-- What is wrong with a template that ends here. -/
def fault? : Place → Option TemplateFault
  | text => none
  | closing => some .strayClose
  | name [] false => some .openAtEnd
  | name _ _ => some .unclosed
  | conversion _ => some .noConversion
  | converted _ _ => some .unmatchedOpen
  | form _ _ => some .unmatchedOpen

end Place

/-- The items of a template from a place on, and what stopped the reading before its end. -/
def read (place : Place) : List Char → List Item × Option TemplateFault
  | [] => ([], place.fault?)
  | c :: cs =>
    match place.step c with
    | .error fault => ([], some fault)
    | .ok (next, item) =>
      let (items, fault) := read next cs
      (item.toList ++ items, fault)

/-! ## What a field reaches -/

/-- The number a text spells if it has digits only. -/
def index? (cs : List Char) : Except TemplateFault (Option Nat) :=
  match leadingNumber 0 cs with
  | .error _ => .error .longIndex
  | .ok (n, rest) => .ok (if cs ≠ [] ∧ rest = [] then some n else none)

/-- A step from a value to what belongs to it. -/
inductive Access where
  | member (name : List Char)
  | item (key : List Char)
  deriving DecidableEq, Repr

namespace Access

/-- The text of a step. -/
def text : Access → List Char
  | member name => name
  | item key => key

/-- A step with one more character. -/
def push : Access → Char → Access
  | member name, c => member (name ++ [c])
  | item key, c => item (key ++ [c])

/-- The step that a character begins. -/
def opened? : Char → Option Access
  | '.' => some (member [])
  | '[' => some (item [])
  | _ => none

/-- The steps of a text behind a step that is begun or behind none, and what stopped the reading
before its end. An attribute reaches to the beginning of the next step, an item to its bracket. -/
def read (begun : Option Access) : List Char → List Access × Option TemplateFault
  | [] =>
    match begun with
    | none => ([], none)
    | some (member []) => ([], some .emptyAccess)
    | some (member name) => ([member name], none)
    | some (item _) => ([], some .unclosedItem)
  | c :: cs =>
    match begun with
    | none =>
      match opened? c with
      | some next => read (some next) cs
      | none => ([], some .strayAccess)
    | some (member name) =>
      match opened? c with
      | some next =>
        if name = [] then ([], some .emptyAccess)
        else
          let (steps, fault) := read (some next) cs
          (member name :: steps, fault)
      | none => read (some (member (name ++ [c]))) cs
    | some (item key) =>
      if c = ']' then
        if key = [] then ([], some .emptyAccess)
        else
          let (steps, fault) := read none cs
          (item key :: steps, fault)
      else read (some (item (key ++ [c]))) cs

end Access

/-- A value of a field. An object is known by a name. -/
inductive Value where
  | number (n : Nat)
  | text (cs : List Char)
  | object (id : String)
  deriving DecidableEq, Repr

/-- The conversions to text: to be read, as a literal, and as a literal in ASCII. -/
inductive Conversion where
  | plain
  | literal
  | ascii
  deriving DecidableEq, Repr

/-- The conversion of a letter. -/
def Conversion.ofChar? : Char → Option Conversion
  | 's' => some plain
  | 'r' => some literal
  | 'a' => some ascii
  | _ => none

/-- What a host tells of its objects: which of them are attributes of a value, what their items are,
and how they are written, converted or in a form. -/
structure Host where
  member : Value → String → Option Value := fun _ _ => none
  memberOf : String → String → Except TemplateFault Value :=
    fun object name => .error (.noAttribute object name)
  item : String → String → Except TemplateFault Value := fun object _ => .error (.noItems object)
  converted : String → Conversion → Except TemplateFault String := fun object _ => .ok object
  formed : String → String → Except TemplateFault String := fun object _ => .ok object

namespace Value

/-- The attributes of a number that are numbers. -/
def numberMember? (n : Nat) (name : String) : Option Value :=
  if name = "real" ∨ name = "numerator" then some (number n)
  else if name = "imag" then some (number 0)
  else if name = "denominator" then some (number 1)
  else none

/-- The attribute of a value. -/
def member (host : Host) (name : String) : Value → Except TemplateFault Value
  | number n =>
    match (numberMember? n name).or (host.member (number n) name) with
    | some value => .ok value
    | none => .error (.noAttribute Kind.number.name name)
  | text cs =>
    match host.member (text cs) name with
    | some value => .ok value
    | none => .error (.noAttribute Kind.text.name name)
  | object id => host.memberOf id name

/-- The item of a value. A text has characters by number. -/
def item (host : Host) (key : List Char) (value : Value) : Except TemplateFault Value := do
  let index ← index? key
  match value, index with
  | number _, _ => .error (.noItems Kind.number.name)
  | text cs, some i =>
    match cs[i]? with
    | some c => .ok (text [c])
    | none => .error .noItem
  | text _, none => .error .itemByName
  | object id, _ => host.item id (String.ofList key)

/-- What a step reaches. -/
def access (host : Host) (value : Value) : Access → Except TemplateFault Value
  | .member name => value.member host (String.ofList name)
  | .item key => value.item host key

/-- A value as a text. Numbers are written in the same way by all conversions. -/
def shown (host : Host) (conversion : Conversion) : Value → Except TemplateFault (List Char)
  | number n => .ok (Nat.toDigits 10 n)
  | text cs =>
    match conversion with
    | .plain => .ok cs
    | .literal => .ok (quoted (String.ofList cs)).toList
    | .ascii => .ok (quotedAscii (String.ofList cs)).toList
  | object id => (host.converted id conversion).map String.toList

/-- A value with the conversion that a field asks for. A field with a zero character there asks for
none. -/
def convert (host : Host) (value : Value) : Option Char → Except TemplateFault Value
  | none => .ok value
  | some '\x00' => .ok value
  | some c =>
    match Conversion.ofChar? c with
    | some conversion => (value.shown host conversion).map text
    | none => .error (.unknownConversion c)

/-- A value in a form. -/
def formed (host : Host) (form : List Char) : Value → Except TemplateFault (List Char)
  | number n => ((Form.read .number form).bind (·.numeral n)).mapError .form
  | text cs => ((Form.read .text form).bind (·.text cs)).mapError .form
  | object id => (host.formed id (String.ofList form)).map String.toList

end Value

/-! ## Filling a template -/

/-- The values that a template is filled with, by name. There are none by position. -/
abbrev Arguments := List (String × Value)

/-- The argument of a name. A name of digits only, and an empty name, stand for a position. -/
def Arguments.find (arguments : Arguments) (name : List Char) : Except TemplateFault Value := do
  match ← index? name with
  | some index => .error (.noArgument index)
  | none =>
    if name = [] then .error (.noArgument 0)
    else
      match arguments.lookup (String.ofList name) with
      | some value => .ok value
      | none => .error (.unknownName (String.ofList name))

/-- The value that a field reaches. -/
def Field.value (host : Host) (arguments : Arguments) (field : Field) :
    Except TemplateFault Value := do
  let name := field.name.takeWhile fun c => (Access.opened? c).isNone
  let (steps, fault) := Access.read none (field.name.drop name.length)
  let value ← steps.foldlM (Value.access host) (← arguments.find name)
  match fault with
  | some fault => .error fault
  | none => .ok value

/-- The text of an item. The form of a field is filled first if it has fields of its own. -/
def Item.text (host : Host) (arguments : Arguments)
    (fill : List Char → Except TemplateFault (List Char)) :
    Item → Except TemplateFault (List Char)
  | .literal c => .ok [c]
  | .field f => do
    let value ← f.value host arguments
    let value ← value.convert host f.conversion
    let form ← if f.isNested then fill f.form else .ok f.form
    value.formed host form

/-- Fills a template. A template at depth zero is too deep in others. -/
def fill (host : Host) (arguments : Arguments) : Nat → List Char → Except TemplateFault (List Char)
  | 0, _ => .error .tooDeep
  | depth + 1, cs => do
    let (items, fault) := read .text cs
    let texts ← items.mapM (Item.text host arguments (fill host arguments depth))
    match fault with
    | some fault => .error fault
    | none => .ok texts.flatten

/-- How deep templates may stand in each other. -/
def maxDepth : Nat := 2

end Template

/-- The templates of the two severities. -/
structure Templates where
  info : String := "[yellow]line \x7bline\x7d[/yellow]: \x7bmessage\x7d"
  warning : String := "[red]line \x7bline\x7d[/red]: \x7bmessage\x7d"
  deriving DecidableEq, Repr

/-- The template of a severity. -/
def Templates.for (templates : Templates) : Severity → String
  | .info => templates.info
  | .warning => templates.warning

namespace Templates

/-- What the template of a diagnostic is filled with. The message is escaped, so that it cannot hold
tags. -/
def arguments (d : Diagnostic) : Template.Arguments :=
  [("line", .number d.line), ("message", .text (Markup.escape d.message).toList)]

/-- The markup of a diagnostic. -/
def render (templates : Templates) (d : Diagnostic) (host : Template.Host := {}) :
    Except TemplateFault String :=
  (Template.fill host (arguments d) Template.maxDepth (templates.for d.severity).toList).map
    String.ofList

end Templates

end ScriptAudit.Report
