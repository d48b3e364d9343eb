/-!
# Reading UTF-8 with replacement

Bytes are read one at a time. Between two characters nothing is pending; inside a sequence the
state holds the bits read so far, how many bytes are still missing, and the range the next byte has
to lie in. The range carries every restriction of the encoding: overlong forms, surrogates and code
points above the last one are all cut off at the second byte. A byte outside the range ends the
sequence, which then counts as one replacement character, and the byte is read afresh. So each
maximal well-formed beginning of a sequence that does not complete gives exactly one U+FFFD.
-/

set_option autoImplicit false

namespace ScriptAudit.Text.Utf8

/-- The replacement character. -/
def replacement : Char := '\uFFFD'

/-- A sequence that has begun: its bits so far, the number of bytes still to come (at least one),
and the range of the next byte. -/
structure Pending where
  bits : Nat
  missing : Nat
  low : Nat := 0x80
  high : Nat := 0xBF
  deriving DecidableEq, Repr

/-- What the first byte of a character says. -/
inductive Lead where
  | scalar (c : Char)
  | opens (pending : Pending)
  | invalid
  deriving DecidableEq, Repr

/-- Classifies a byte at which a character begins. -/
def lead (b : UInt8) : Lead :=
  let n := b.toNat
  if n < 0x80 then .scalar (Char.ofNat n)
  else if n < 0xC2 then .invalid
  else if n < 0xE0 then .opens { bits := n - 0xC0, missing := 1 }
  else if n = 0xE0 then .opens { bits := 0, missing := 2, low := 0xA0 }
  else if n = 0xED then .opens { bits := n - 0xE0, missing := 2, high := 0x9F }
  else if n < 0xF0 then .opens { bits := n - 0xE0, missing := 2 }
  else if n = 0xF0 then .opens { bits := 0, missing := 3, low := 0x90 }
  else if n < 0xF4 then .opens { bits := n - 0xF0, missing := 3 }
  else if n = 0xF4 then .opens { bits := n - 0xF0, missing := 3, high := 0x8F }
  else .invalid

/-- Reads a byte with nothing pending. -/
def start (b : UInt8) : List Char × Option Pending :=
  match lead b with
  | .scalar c => ([c], none)
  | .opens p => ([], some p)
  | .invalid => ([replacement], none)

/-- Reads one byte: the characters it completes and the state after it. -/
def step (state : Option Pending) (b : UInt8) : List Char × Option Pending :=
  match state with
  | none => start b
  | some p =>
    if p.low ≤ b.toNat ∧ b.toNat ≤ p.high then
      let bits := p.bits * 64 + (b.toNat - 0x80)
      if p.missing ≤ 1 then ([Char.ofNat bits], none)
      else ([], some { bits, missing := p.missing - 1 })
    else
      let (out, next) := start b
      (replacement :: out, next)

/-- Reads bytes from a state; a sequence cut off by the end gives one replacement character. -/
def decodeFrom (state : Option Pending) : List UInt8 → List Char
  | [] => if state.isSome then [replacement] else []
  | b :: bytes =>
    let (out, next) := step state b
    out ++ decodeFrom next bytes

/-- The text of a list of bytes. -/
def decode (bytes : List UInt8) : List Char := decodeFrom none bytes

/-- The bytes of a text. -/
def encode (cs : List Char) : List UInt8 := cs.flatMap String.utf8EncodeChar

end ScriptAudit.Text.Utf8
