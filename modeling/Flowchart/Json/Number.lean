import Flowchart.Decimal.Basic
import Flowchart.Value.Basic

/-!
# JSON numbers

A number is an integer unless it has a fraction or an exponent, which make it a float. A point or a letter
that no digits follow is not part of the number.
-/

namespace Flowchart.Json

/-- The text of a number taken apart. -/
structure NumberText where
  negative : Bool
  whole : List Char
  /-- the digits behind the point; none if there is no point -/
  fraction : List Char
  /-- the sign and the digits of the exponent, `true` being minus -/
  exponent : Option (Bool × List Char)

/-- The whole part at the start of `s` and what follows it. A zero stands alone. -/
def wholePart (s : List Char) : List Char × List Char :=
  match s with
  | '0' :: rest => (['0'], rest)
  | _ => (s.takeWhile Char.isDigit, s.dropWhile Char.isDigit)

/-- The digits of a fraction at the start of `s` and what follows them. -/
def fractionPart (s : List Char) : List Char × List Char :=
  match s with
  | '.' :: rest =>
    if (rest.head?.any Char.isDigit) then (rest.takeWhile Char.isDigit, rest.dropWhile Char.isDigit)
    else ([], s)
  | _ => ([], s)

/-- A sign, `true` being minus, and what follows it. -/
def signPart (s : List Char) : Bool × List Char :=
  match s with
  | '-' :: rest => (true, rest)
  | '+' :: rest => (false, rest)
  | _ => (false, s)

/-- An exponent at the start of `s` and what follows it. -/
def exponentPart (s : List Char) : Option (Bool × List Char) × List Char :=
  match s with
  | [] => (none, [])
  | e :: rest =>
    let (negative, ds) := signPart rest
    if (e == 'e' || e == 'E') && ds.head?.any Char.isDigit then
      (some (negative, ds.takeWhile Char.isDigit), ds.dropWhile Char.isDigit)
    else (none, s)

/-- The number at the start of `s` and what follows it. -/
def numberPart? (s : List Char) : Option (NumberText × List Char) :=
  let (negative, s) :=
    match s with
    | '-' :: rest => (true, rest)
    | _ => (false, s)
  let (whole, s) := wholePart s
  if whole.isEmpty then none
  else
    let (fraction, s) := fractionPart s
    let (exponent, s) := exponentPart s
    some (⟨negative, whole, fraction, exponent⟩, s)

/-- The greatest number of digits of an integer. -/
def maxIntegerDigits : Nat := 4300

namespace NumberText

/-- Whether a number is an integer. -/
def isInteger (t : NumberText) : Bool := t.fraction.isEmpty && t.exponent.isNone

/-- The integer that the whole part denotes. -/
def toInt (t : NumberText) : Int :=
  if t.negative then -(Decimal.ofDigits t.whole : Int) else Decimal.ofDigits t.whole

/-- The exponent, zero if there is none. -/
def exponentValue (t : NumberText) : Int :=
  match t.exponent with
  | none => 0
  | some (negative, ds) => if negative then -(Decimal.ofDigits ds : Int) else Decimal.ofDigits ds

/-- The float nearest to a number. -/
def toFloat (t : NumberText) : Float :=
  let d : Decimal := ⟨Decimal.ofDigits (t.whole ++ t.fraction), t.exponentValue - t.fraction.length⟩
  if t.negative then -d.toFloat else d.toFloat

/-- The value of a number, or the number of digits of an integer that has too many. -/
def toValue (t : NumberText) : Except Nat Value :=
  if t.isInteger then
    if t.whole.length ≤ maxIntegerDigits then .ok (.int t.toInt) else .error t.whole.length
  else .ok (.float t.toFloat)

end NumberText

end Flowchart.Json
