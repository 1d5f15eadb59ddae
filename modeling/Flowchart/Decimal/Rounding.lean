import Flowchart.Decimal.Basic
import Flowchart.Decimal.Binary

/-!
# Rounding to decimal places

`roundPlaces` rounds the exact value of a float to a number of decimal places, halves to the even
neighbour, and returns the float nearest to the result.
-/

namespace Flowchart.Decimal

/-- `num / den` rounded to a whole number, a half to the even neighbour. -/
def roundDiv (num den : Nat) : Nat :=
  let q := num / den
  match compare (2 * (num % den)) den with
  | .lt => q
  | .gt => q + 1
  | .eq => if q % 2 == 0 then q else q + 1

/-- A float rounded to `places` decimal places. -/
def roundPlaces (places : Nat) (x : Float) : Float :=
  match Parts.ofFloat x with
  | .finite negative b =>
    let steps := roundDiv (b.mantissa * Nat.pow 2 b.exponent.toNat * Nat.pow 10 places)
      (Nat.pow 2 (-b.exponent).toNat)
    let rounded := (Decimal.mk steps (-places)).toFloat
    if negative then -rounded else rounded
  | _ => x

end Flowchart.Decimal
