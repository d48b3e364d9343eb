import ScriptAudit.Text.Blank

/-!
# Secret patterns

Each pattern describes the shape of one kind of credential. `Pattern.matchLength?` measures the
match of a pattern at the start of a text: each repetition takes the whole run of its class, because
the character that has to follow is never in the class.
-/

set_option autoImplicit false

namespace ScriptAudit.Secret

open ScriptAudit.Text

/-- The kinds of secrets that are looked for. -/
inductive Pattern where
  | apiKey
  | base64
  | jwt
  | credential
  | url
  | mongodb
  deriving DecidableEq, Repr

namespace Pattern

/-- Every pattern, in the order in which they are tried at one position. -/
def all : List Pattern := [apiKey, base64, jwt, credential, url, mongodb]

/-- The name a pattern is known by. -/
def name : Pattern → String
  | apiKey => "api_key"
  | base64 => "base64"
  | jwt => "jwt"
  | credential => "credential"
  | url => "url"
  | mongodb => "mongodb"

/-- The pattern of a name. -/
def ofName? (s : String) : Option Pattern := all.find? (·.name = s)

end Pattern

/-- ASCII letters and digits. -/
def isAlnum (c : Char) : Bool := c.isAlphanum

/-- Characters of base64 text. -/
def isBase64 (c : Char) : Bool := isAlnum c || c = '+' || c = '/'

/-- Characters of the parts of a web token. -/
def isTokenChar (c : Char) : Bool := isAlnum c || c = '_' || c = '-'

/-- Characters of a host name. -/
def isHostChar (c : Char) : Bool := isAlnum c || c = '.' || c = '-'

/-- Either quote. -/
def isQuote (c : Char) : Bool := c = '\'' || c = '"'

/-- The text after a fixed word. -/
def afterWord? (word : String) (cs : List Char) : Option (List Char) :=
  if word.toList.isPrefixOf cs then some (cs.drop word.length) else none

/-- The text after one character of a class. -/
def afterOne? (p : Char → Bool) : List Char → Option (List Char)
  | c :: rest => if p c then some rest else none
  | [] => none

/-- The text after the whole run of a class, which needs at least `least` members. -/
def afterRun? (least : Nat) (p : Char → Bool) (cs : List Char) : Option (List Char) :=
  if least ≤ (cs.takeWhile p).length then some (cs.dropWhile p) else none

/-- The text after at most `most` copies of a character. -/
def afterAtMost (most : Nat) (c : Char) (cs : List Char) : List Char :=
  cs.drop ((cs.takeWhile (· = c)).take most).length

/-- The text after a match of a pattern at the start of a text. -/
def Pattern.rest? : Pattern → List Char → Option (List Char)
  | apiKey, cs => afterRun? 32 isAlnum cs
  | base64, cs => (afterRun? 20 isBase64 cs).map (afterAtMost 3 '=')
  | jwt, cs => do
    let cs ← afterWord? "eyJ" cs
    let cs ← afterRun? 1 isTokenChar cs
    let cs ← afterOne? (· = '.') cs
    let cs ← afterRun? 1 isTokenChar cs
    let cs ← afterOne? (· = '.') cs
    afterRun? 1 isTokenChar cs
  | credential, cs => do
    let cs ← afterWord? "secret" cs <|> afterWord? "password" cs <|> afterWord? "token" cs
    let cs ← afterOne? (fun c => c = ':' || c = '=') (cs.dropWhile isBlank)
    let cs ← afterOne? isQuote (cs.dropWhile isBlank)
    let cs ← afterRun? 1 (!isQuote ·) cs
    afterOne? isQuote cs
  | url, cs => do
    let cs ← afterWord? "https://" cs <|> afterWord? "http://" cs
    afterRun? 1 isHostChar cs
  | mongodb, cs => do
    let cs ← afterWord? "mongodb+srv://" cs <|> afterWord? "mongodb://" cs
    let cs ← afterRun? 1 (· ≠ ':') cs
    let cs ← afterOne? (· = ':') cs
    let cs ← afterRun? 1 (· ≠ '@') cs
    let cs ← afterOne? (· = '@') cs
    afterRun? 1 (· ≠ '/') cs

/-- The length of the match of a pattern at the start of a text. -/
def Pattern.matchLength? (pattern : Pattern) (cs : List Char) : Option Nat :=
  (pattern.rest? cs).map fun rest => cs.length - rest.length

end ScriptAudit.Secret
