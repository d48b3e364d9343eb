import ScriptAudit.Json.Basic
import ScriptAudit.Text.Quoted

/-!
# Writing JSON

Values are written without any blank. In a string only the double quote, the backslash and the
control characters below U+0020 are escaped, so a written value never holds a line end.
-/

set_option autoImplicit false

namespace ScriptAudit.Json

open ScriptAudit.Text

/-- The letter of a control character that has a short escape. -/
def shortEscape? (c : Char) : Option Char :=
  if c = '\x08' then some 'b'
  else if c = '\t' then some 't'
  else if c = '\n' then some 'n'
  else if c = '\x0c' then some 'f'
  else if c = '\r' then some 'r'
  else none

/-- One character of a string. -/
def escapedChar (c : Char) : List Char :=
  if c = '"' ∨ c = '\\' then ['\\', c]
  else
    match shortEscape? c with
    | some letter => ['\\', letter]
    | none =>
      if c.toNat < 0x20 then '\\' :: 'u' :: (hexPadded 4 c.toNat).toList else [c]

/-- A string with its quotes. -/
def renderString (s : String) : String :=
  String.ofList ('"' :: s.toList.flatMap escapedChar ++ ['"'])

/-- Puts commas between texts and a bracket on either side. -/
def bracketed (opening closing : String) (parts : List String) : String :=
  opening ++ ",".intercalate parts ++ closing

mutual
/-- The compact text of a value. -/
def render : Json → String
  | null => "null"
  | bool true => "true"
  | bool false => "false"
  | integer i => toString i
  | decimal mantissa exponent => toString mantissa ++ "e" ++ toString exponent
  | string s => renderString s
  | array elements => bracketed "[" "]" (renderElements elements)
  | object members => bracketed "\x7b" "\x7d" (renderMembers members)

/-- The texts of the elements of an array. -/
def renderElements : List Json → List String
  | [] => []
  | v :: rest => render v :: renderElements rest

/-- The texts of the members of an object. -/
def renderMembers : List (String × Json) → List String
  | [] => []
  | (name, v) :: rest => (renderString name ++ ":" ++ render v) :: renderMembers rest
end

end ScriptAudit.Json
