import Flowchart.Decimal.Shortest

/-!
# The text of a float

A `Style` fixes what two formats may decide differently; `Style.render` writes the shortest decimal that
reads back in that style.
-/

namespace Flowchart.Decimal

/-- How floats are written. -/
structure Style where
  /-- the least power of ten of the first digit that is written without an exponent -/
  leastPositional : Int := -4
  /-- the greatest power of ten of the first digit that is written without an exponent -/
  mostPositional : Int := 15
  /-- the least number of digits of an exponent -/
  exponentDigits : Nat := 2
  nan : String
  infinity : String

/-- Digits whose first one counts `10 ^ lead`, with a point and at least one digit on each side of it. -/
def positional (ds : List Char) (lead : Int) : List Char :=
  if lead < 0 then '0' :: '.' :: List.replicate (lead.natAbs - 1) '0' ++ ds
  else
    let whole := lead.toNat + 1
    if ds.length ≤ whole then ds ++ List.replicate (whole - ds.length) '0' ++ ['.', '0']
    else ds.take whole ++ '.' :: ds.drop whole

/-- Digits whose first one counts `10 ^ lead`, with a point behind the first if more follow, and a signed
exponent. -/
def scientific (exponentDigits : Nat) (ds : List Char) (lead : Int) : List Char :=
  let mantissa :=
    match ds with
    | first :: second :: rest => first :: '.' :: second :: rest
    | _ => ds
  let exponent := digits lead.natAbs
  mantissa ++ 'e' :: (if lead < 0 then '-' else '+') ::
    List.replicate (exponentDigits - exponent.length) '0' ++ exponent

/-- A magnitude in a style. -/
def Style.magnitude (style : Style) (x : Binary) : List Char :=
  let d := shortest x
  let ds := digits d.coefficient
  let lead := d.exponent + ds.length - 1
  if style.leastPositional ≤ lead ∧ lead ≤ style.mostPositional then positional ds lead
  else scientific style.exponentDigits ds lead

/-- A float in a style. -/
def Style.render (style : Style) (x : Float) : List Char :=
  let signed (negative : Bool) (s : List Char) := if negative then '-' :: s else s
  match Parts.ofFloat x with
  | .nan => style.nan.toList
  | .infinite negative => signed negative style.infinity.toList
  | .finite negative b => signed negative (style.magnitude b)

end Flowchart.Decimal
