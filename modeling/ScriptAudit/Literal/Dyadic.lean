/-!
# Doubles as exact numbers

A finite double is a whole number times a power of two. `Dyadic.ofFloat?` takes it apart and
`Dyadic.whole?` gives its value when that is a whole number, without any rounding.
-/

set_option autoImplicit false

namespace ScriptAudit.Literal

/-- The number `mantissa · 2 ^ exponent`. -/
structure Dyadic where
  mantissa : Int
  exponent : Int
  deriving DecidableEq, Repr

namespace Dyadic

/-- The exact value of a double; nothing for an infinity and for what is no number. The leading bit
of the mantissa is implied unless the exponent field is zero. -/
def ofFloat? (x : Float) : Option Dyadic :=
  let bits := x.toBits.toNat
  let field := bits / Nat.pow 2 52 % Nat.pow 2 11
  let fraction := bits % Nat.pow 2 52
  if field + 1 = Nat.pow 2 11 then none
  else
    let magnitude : Int := if field = 0 then fraction else Nat.pow 2 52 + fraction
    some
      { mantissa := if Nat.pow 2 63 ≤ bits then -magnitude else magnitude,
        exponent := (max field 1 : Nat) - 1075 }

/-- The value, if it is a whole number. -/
def whole? (d : Dyadic) : Option Int :=
  let power : Int := Nat.pow 2 d.exponent.natAbs
  if 0 ≤ d.exponent then some (d.mantissa * power)
  else if d.mantissa % power = 0 then some (d.mantissa / power)
  else none

/-- A power of two that is not below one divides nothing away. -/
theorem whole?_of_nonneg {d : Dyadic} (h : 0 ≤ d.exponent) :
    d.whole? = some (d.mantissa * (Nat.pow 2 d.exponent.natAbs : Nat)) := by
  simp [whole?, h]

end Dyadic

end ScriptAudit.Literal
