import ScriptAudit.Text.Unprintable

/-!
# Quoted text in messages

A message that shows a text it was given puts it between quotes and writes what is not printed as
an escape. Single quotes are used, unless the text holds a single quote and no double quote.
-/

set_option autoImplicit false

namespace ScriptAudit.Text

/-- The hexadecimal digits of a number, lower case, at least `width` of them. -/
def hexPadded (width n : Nat) : String :=
  let digits := Nat.toDigits 16 n
  String.ofList (List.replicate (width - digits.length) '0' ++ digits)

/-- A character written by number. -/
def numbered (c : Char) : String :=
  if c.toNat < 0x100 then "\\x" ++ hexPadded 2 c.toNat
  else if c.toNat < 0x10000 then "\\u" ++ hexPadded 4 c.toNat
  else "\\U" ++ hexPadded 8 c.toNat

/-- A character of a text between the given quotes: the quote and the backslash take a backslash,
tab and line ends have a name, what is not printed is written by number, and everything else stands
for itself. -/
def quotedChar (quote c : Char) : String :=
  if c = quote ∨ c = '\\' then String.ofList ['\\', c]
  else if c = '\t' then "\\t"
  else if c = '\n' then "\\n"
  else if c = '\r' then "\\r"
  else if isPrintable c then String.singleton c
  else numbered c

/-- The text between quotes. -/
def quoted (s : String) : String :=
  let quote := if s.toList.contains '\'' && !s.toList.contains '"' then '"' else '\''
  String.singleton quote ++ String.join (s.toList.map (quotedChar quote)) ++ String.singleton quote

/-- The text between quotes, with every character outside ASCII written by number. -/
def quotedAscii (s : String) : String :=
  String.join ((quoted s).toList.map fun c =>
    if c.toNat < 0x80 then String.singleton c else numbered c)

end ScriptAudit.Text
