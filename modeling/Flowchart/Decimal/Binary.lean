/-!
# Floats as integers times powers of two

`Parts.ofFloat` takes a float apart. Exact arithmetic on floats starts from here: a finite float is
`mantissa * 2 ^ exponent` up to its sign.
-/

namespace Flowchart.Decimal

/-- The magnitude `mantissa * 2 ^ exponent` of a finite float. -/
structure Binary where
  mantissa : Nat
  exponent : Int
  /-- the next float toward zero is half as far away as the next one away from zero -/
  narrowBelow : Bool
  deriving DecidableEq, Repr

/-- What a float is. -/
inductive Parts where
  | nan
  | infinite (negative : Bool)
  | finite (negative : Bool) (magnitude : Binary)
  deriving DecidableEq, Repr

/-- The parts encoded by 64 bits: a sign, eleven bits of exponent and 52 of fraction. -/
def Parts.ofBits (bits : Nat) : Parts :=
  let negative := bits / Nat.pow 2 63 % 2 == 1
  let exponent : Nat := bits / Nat.pow 2 52 % Nat.pow 2 11
  let fraction : Nat := bits % Nat.pow 2 52
  if exponent == Nat.pow 2 11 - 1 then
    if fraction == 0 then .infinite negative else .nan
  else if exponent == 0 then .finite negative ⟨fraction, -1074, false⟩
  else .finite negative ⟨Nat.pow 2 52 + fraction, (exponent : Int) - 1075, fraction == 0 && exponent > 1⟩

/-- The parts of a float. -/
def Parts.ofFloat (x : Float) : Parts := .ofBits x.toBits.toNat

/-- The integer that a float is equal to, if there is one. -/
def integerValue? (x : Float) : Option Int :=
  match Parts.ofFloat x with
  | .finite negative b =>
    let divisor := Nat.pow 2 (-b.exponent).toNat
    if b.mantissa % divisor == 0 then
      let n : Int := b.mantissa / divisor * Nat.pow 2 b.exponent.toNat
      some (if negative then -n else n)
    else none
  | _ => none

end Flowchart.Decimal
