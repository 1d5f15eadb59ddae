import Flowchart.Decimal.Basic
import Flowchart.Decimal.Binary

/-!
# The shortest decimal that reads back

Every decimal in a certain interval around a float is read as that float. `shortest` is a decimal of the
interval with the fewest digits, and the nearest to the float among those; of two equally near ones it
has the even last digit.
-/

namespace Flowchart.Decimal

/-- Compares `a * 10 ^ i` with `b * 2 ^ j`. -/
def compareScaled (a : Nat) (i : Int) (b : Nat) (j : Int) : Ordering :=
  compare (a * Nat.pow 10 i.toNat * Nat.pow 2 (-j).toNat) (b * Nat.pow 2 j.toNat * Nat.pow 10 (-i).toNat)

/-- Whether `d` lies between the midpoints to the two neighbours of `x`. A midpoint itself is read as the
neighbour with the even mantissa. -/
def readsBack (x : Binary) (d : Decimal) : Bool :=
  let low := if x.narrowBelow then 4 * x.mantissa - 1 else 4 * x.mantissa - 2
  let high := 4 * x.mantissa + 2
  let atLow := compareScaled d.coefficient d.exponent low (x.exponent - 2)
  let atHigh := compareScaled d.coefficient d.exponent high (x.exponent - 2)
  let even := x.mantissa % 2 == 0
  (atLow == .gt || (even && atLow == .eq)) && (atHigh == .lt || (even && atHigh == .eq))

/-- The greatest number of steps of size `10 ^ k` that does not exceed `x`. -/
def stepsBelow (x : Binary) (k : Int) : Nat :=
  x.mantissa * Nat.pow 2 x.exponent.toNat * Nat.pow 10 (-k).toNat /
    (Nat.pow 2 (-x.exponent).toNat * Nat.pow 10 k.toNat)

/-- The nearest multiple of `10 ^ k` that reads back as `x`. Only the two multiples next to `x` come into
question. -/
def onGrid? (x : Binary) (k : Int) : Option Decimal :=
  let steps := stepsBelow x k
  let below : Decimal := ⟨steps, k⟩
  let above : Decimal := ⟨steps + 1, k⟩
  match steps != 0 && readsBack x below, readsBack x above with
  | true, true =>
    match compareScaled (2 * steps + 1) k (2 * x.mantissa) x.exponent with
    | .gt => some below
    | .lt => some above
    | .eq => some (if steps % 2 == 0 then below else above)
  | true, false => some below
  | false, true => some above
  | false, false => none

/-- All digits of `x`. -/
def exact (x : Binary) : Decimal :=
  if x.exponent < 0 then ⟨x.mantissa * Nat.pow 5 x.exponent.natAbs, x.exponent⟩
  else ⟨x.mantissa * Nat.pow 2 x.exponent.natAbs, 0⟩

/-- The shortest decimal that reads back as `x`. The coarsest grid is at least one decade above `x`, and
seventeen digits always suffice. -/
def shortest (x : Binary) : Decimal :=
  if x.mantissa = 0 then ⟨0, 0⟩
  else
    let top := ((x.mantissa.log2 + x.exponent) * 30103).fdiv 100000 + 2
    ((List.range 24).findSome? fun (i : Nat) => onGrid? x (top - i)).getD (exact x)

end Flowchart.Decimal
