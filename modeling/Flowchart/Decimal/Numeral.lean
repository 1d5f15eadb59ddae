import Flowchart.Decimal.Basic
import Flowchart.Text.Blank
import Flowchart.Text.DecimalDigit

/-!
# Reading a float

`readFloat?` reads the text of a float: a sign, digits with an optional point and an optional exponent, or
a word for infinity or for no number. Digits of every script count, a low line may stand between two
digits, and blanks may stand around the whole.
-/

namespace Flowchart.Decimal

/-- The blanks that may stand around a number: those of `Text.isBlank` but the information separators. -/
def isMargin (c : Char) : Bool := Text.isBlank c && ! (0x1C ≤ c.toNat && c.toNat ≤ 0x1F)

/-- `s` without the blanks around it. -/
def trim (s : List Char) : List Char := Text.dropTrailing isMargin (s.dropWhile isMargin)

/-- Digits of all scripts written with those from `0` to `9`. -/
def plainDigit (c : Char) : Char :=
  match Text.digitValue? c with
  | some d => Nat.digitChar d
  | none => c

/-- `s` without the low lines in it. Each must stand between two digits; `afterDigit` says whether a digit
comes before `s`. -/
def dropGroups? : Bool → List Char → Option (List Char)
  | _, [] => some []
  | afterDigit, c :: rest =>
    if c == '_' then
      if afterDigit && (rest.head?.any Char.isDigit) then dropGroups? false rest else none
    else (dropGroups? c.isDigit rest).map (c :: ·)

/-- A sign, if there is one, and what follows it; `true` is minus. -/
def splitSign : List Char → Bool × List Char
  | '-' :: rest => (true, rest)
  | '+' :: rest => (false, rest)
  | s => (false, s)

/-- The exponent at the end of a number, zero if `s` is empty. -/
def readExponent? : List Char → Option Int
  | [] => some 0
  | e :: rest =>
    let (negative, ds) := splitSign rest
    if (e == 'e' || e == 'E') && ! ds.isEmpty && ds.all Char.isDigit then
      some (if negative then -(ofDigits ds : Int) else ofDigits ds)
    else none

/-- An unsigned number: digits with an optional point, at least one digit in all, and an optional
exponent. -/
def readDecimal? (s : List Char) : Option Decimal :=
  let whole := s.takeWhile Char.isDigit
  let (places, rest) :=
    match s.dropWhile Char.isDigit with
    | '.' :: rest => (rest.takeWhile Char.isDigit, rest.dropWhile Char.isDigit)
    | rest => ([], rest)
  if whole.isEmpty && places.isEmpty then none
  else
    (readExponent? rest).map fun exponent =>
      ⟨ofDigits (whole ++ places), exponent - places.length⟩

/-- An unsigned float: a number or one of the words, in any case. -/
def readMagnitude? (s : List Char) : Option Float :=
  let word := s.map Char.toLower
  if word == "inf".toList || word == "infinity".toList then some infinity
  else if word == "nan".toList then some (0.0 / 0.0)
  else (readDecimal? s).map toFloat

/-- The float that a text denotes. -/
def readFloat? (s : List Char) : Option Float := do
  let plain ← dropGroups? false ((trim s).map plainDigit)
  let (negative, rest) := splitSign plain
  let x ← readMagnitude? rest
  return if negative then -x else x

end Flowchart.Decimal
