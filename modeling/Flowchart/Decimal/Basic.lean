/-!
# Decimals

A `Decimal` is a natural number times a power of ten. `Decimal.toFloat` is the nearest float.
-/

namespace Flowchart

/-- The number `coefficient * 10 ^ exponent`. -/
structure Decimal where
  coefficient : Nat
  exponent : Int
  deriving DecidableEq, Repr

namespace Decimal

/-- The decimal digits of a number, most significant first. -/
def digits (n : Nat) : List Char := Nat.toDigits 10 n

/-- The decimal digits of an integer behind a minus sign if it is negative. -/
def signedDigits (n : Int) : List Char := if n < 0 then '-' :: digits n.natAbs else digits n.natAbs

/-- The number that a row of decimal digits denotes. -/
def ofDigits (ds : List Char) : Nat := Nat.ofDigitChars 10 ds 0

/-- Positive infinity. -/
def infinity : Float := 1.0 / 0.0

/-- The float nearest to a decimal. Decimals beyond the range of floats are infinite or zero, which is
settled by their size before any power of ten is computed. -/
def toFloat (d : Decimal) : Float :=
  if d.coefficient = 0 then 0.0
  else
    let size := d.exponent + (digits d.coefficient).length
    if size > 310 then infinity
    else if size < -330 then 0.0
    else Float.ofScientific d.coefficient (d.exponent < 0) d.exponent.natAbs

/-- The float nearest to an integer, unless that is infinite. -/
def floatOfInt? (n : Int) : Option Float :=
  let x := toFloat ⟨n.natAbs, 0⟩
  if x.isInf then none else some (if n < 0 then -x else x)

end Decimal

end Flowchart
