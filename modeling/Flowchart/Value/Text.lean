import Flowchart.Decimal.Style
import Flowchart.Text.Quoted
import Flowchart.Value.Basic

/-!
# The text of a value

`Value.toText` is the value as it appears in names and labels. A text stands for itself; inside a list,
tuple or table it is quoted. Integers with any number of digits have a text here, and lists may be nested to any
depth; limits that a program sets to either are left out.
-/

namespace Flowchart.Value

/-- Floats are written positionally from `0.0001` to below `10 ^ 16`, otherwise with a signed exponent of
two digits or more. -/
def floatStyle : Decimal.Style := { nan := "nan", infinity := "inf" }

/-- `parts` one after the other with a comma and a space between them. -/
def commaSeparated (parts : List Text) : Text := Text.intercalate ", " parts

mutual

/-- The written form of a value. -/
def literal : Value → Text
  | .null => "None"
  | .bool b => if b then "True" else "False"
  | .int n => Text.ofChars (Decimal.signedDigits n)
  | .float x => Text.ofChars (floatStyle.render x)
  | .text s => Text.quoted s
  | .list items => "[" ++ commaSeparated (literals items) ++ "]"
  | .tuple items =>
    match literals items with
    | [only] => "(" ++ only ++ ",)"
    | parts => "(" ++ commaSeparated parts ++ ")"
  | .table entries => "\x7b" ++ commaSeparated (entryLiterals entries) ++ "\x7d"

/-- The written forms of some values. -/
def literals : List Value → List Text
  | [] => []
  | x :: xs => literal x :: literals xs

/-- The written forms of some entries. -/
def entryLiterals : List (Value × Value) → List Text
  | [] => []
  | (key, value) :: entries => (literal key ++ ": " ++ literal value) :: entryLiterals entries

end

/-- A value as text. -/
def toText : Value → Text
  | .text s => s
  | v => literal v

@[simp] theorem toText_text (s : Text) : toText (.text s) = s := rfl

/-- The text of a value that is present, otherwise the empty text. -/
def presentText (v : Value) : Text := if v.isPresent then v.toText else ""

end Flowchart.Value
