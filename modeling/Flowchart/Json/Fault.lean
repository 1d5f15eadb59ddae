import Flowchart.Json.Number

/-!
# Faults of JSON texts

A fault tells what was expected and where. While a text is read, a place in it is the number of characters
from there to the end; `Fault.message` names the line and the column.
-/

namespace Flowchart.Json

/-- What is wrong with a text. -/
inductive Cause where
  | byteOrderMark
  | value
  | propertyName
  | colon
  | comma
  | extraData
  | unterminatedText
  | controlCharacter
  | escape
  | unitEscape
  deriving DecidableEq, Repr

/-- The wording of a cause. -/
def Cause.text : Cause → String
  | .byteOrderMark => "Unexpected UTF-8 BOM (decode using utf-8-sig)"
  | .value => "Expecting value"
  | .propertyName => "Expecting property name enclosed in double quotes"
  | .colon => "Expecting ':' delimiter"
  | .comma => "Expecting ',' delimiter"
  | .extraData => "Extra data"
  | .unterminatedText => "Unterminated string starting at"
  | .controlCharacter => "Invalid control character at"
  | .escape => "Invalid \\escape"
  | .unitEscape => "Invalid \\uXXXX escape"

/-- A fault at a place, given by the number of characters from there on. -/
inductive LocalFault where
  | at (cause : Cause) (remaining : Nat)
  /-- an integer has this many digits, which are too many -/
  | tooManyDigits (count : Nat)
  deriving DecidableEq, Repr

/-- A fault in a text. -/
inductive Fault where
  /-- a cause, and what precedes its place -/
  | at (cause : Cause) (before : List Char)
  | tooManyDigits (count : Nat)
  deriving DecidableEq, Repr

/-- A fault with the text in which it was found. -/
def LocalFault.within (s : List Char) : LocalFault → Fault
  | .at cause remaining => .at cause (s.take (s.length - remaining))
  | .tooManyDigits count => .tooManyDigits count

/-- The wording of a fault. Lines and columns are counted from one, characters from zero. -/
def Fault.message : Fault → String
  | .at cause before =>
    let line := before.count '\n' + 1
    let column := (before.reverse.takeWhile (· != '\n')).length + 1
    cause.text ++ ": line " ++ toString line ++ " column " ++ toString column ++ " (char " ++
      toString before.length ++ ")"
  | .tooManyDigits count =>
    "Exceeds the limit (" ++ toString maxIntegerDigits ++
      " digits) for integer string conversion: value has " ++ toString count ++
      " digits; use sys.set_int_max_str_digits() to increase the limit"

end Flowchart.Json
