import Flowchart.Value.Reading

/-!
# Numbers

Sizes are integers or floats. The product of two integers is exact; as soon as a float takes part an
integer is turned into a float, which fails beyond the range of floats.
-/

namespace Flowchart.Position

/-- An integer or a float. -/
inductive Number where
  | int (n : Int)
  | float (x : Float)

namespace Number

/-- The number that a value is; true is one and false is zero. -/
def ofValue? : Value → Option Number
  | .bool b => some (.int (if b then 1 else 0))
  | .int n => some (.int n)
  | .float x => some (.float x)
  | _ => none

/-- A number as a float. -/
def toFloat : Number → Except Value.Fault Float
  | .int n => (Value.int n).toFloat
  | .float x => .ok x

/-- Whether a number is less than zero. -/
def isNegative : Number → Bool
  | .int n => n < 0
  | .float x => x < 0.0

/-- Whether a number is less than or equal to zero. -/
def isNotPositive : Number → Bool
  | .int n => n ≤ 0
  | .float x => x ≤ 0.0

/-- Whether a number is zero. -/
def isZero : Number → Bool
  | .int n => n == 0
  | .float x => x == 0.0

/-- The product of two numbers. -/
def mul : Number → Number → Except Value.Fault Number
  | .int m, .int n => .ok (.int (m * n))
  | a, b => return .float ((← a.toFloat) * (← b.toFloat))

/-- The number with the opposite sign. -/
def neg : Number → Number
  | .int n => .int (-n)
  | .float x => .float (-x)

/-- Twice a number. -/
def double : Number → Number
  | .int n => .int (n + n)
  | .float x => .float (x + x)

end Number

end Flowchart.Position
