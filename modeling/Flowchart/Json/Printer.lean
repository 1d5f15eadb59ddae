import Flowchart.Decimal.Style
import Flowchart.Json.Number
import Flowchart.Text.Halves
import Flowchart.Text.Hex
import Flowchart.Value.Basic

/-!
# Writing JSON

`Json.print` writes a value as an indented JSON text of ASCII characters. Every item and every entry stands
on a line of its own, two blanks deeper than what holds it.

Some values have no JSON text: `Json.unprintable?` finds the first part of a value that keeps it from being
written. How deep a value is nested does not matter; a writer whose stack is limited gives up on some values that
are written here.
-/

namespace Flowchart.Json

/-- Floats are written as in text, but for the words of what is no number or infinite. -/
def floatStyle : Decimal.Style := { nan := "NaN", infinity := "Infinity" }

/-- The escape of a code unit of 16 bits. -/
def unitEscape (n : Nat) : List Char := '\\' :: 'u' :: Text.hex 4 n

/-- How a unit of 16 bits is written between quotation marks. -/
def escapedUnit (u : CodePoint) : List Char :=
  match u.char? with
  | some '\x22' => ['\\', '\x22']
  | some '\\' => ['\\', '\\']
  | some '\n' => ['\\', 'n']
  | some '\r' => ['\\', 'r']
  | some '\t' => ['\\', 't']
  | some '\x0c' => ['\\', 'f']
  | some '\x08' => ['\\', 'b']
  | some c => if 0x20 ≤ c.toNat ∧ c.toNat < 0x7F then [c] else unitEscape u.toNat
  | none => unitEscape u.toNat

/-- A text between quotation marks. A character beyond `U+FFFF` is written as its two halves. -/
def printText (s : Text) : List Char :=
  '\x22' :: (s.toList.flatMap CodePoint.units).flatMap escapedUnit ++ ['\x22']

/-- The text of a key, which is a text in JSON. -/
def keyText : Value → Text
  | .text s => s
  | .null => "null"
  | .bool b => if b then "true" else "false"
  | .int n => Text.ofChars (Decimal.signedDigits n)
  | .float x => Text.ofChars (floatStyle.render x)
  | _ => ""

/-- A new line with the indentation of a depth. -/
def newLine (depth : Nat) : List Char := '\n' :: List.replicate (2 * depth) ' '

/-- Parts between brackets, on lines of their own; the brackets stand at `depth`. -/
def enclose (opening closing : Char) (depth : Nat) (parts : List (List Char)) : List Char :=
  if parts.isEmpty then [opening, closing]
  else
    opening :: newLine (depth + 1) ++ (',' :: newLine (depth + 1)).intercalate parts ++
      newLine depth ++ [closing]

mutual

/-- A value at a depth. -/
def printAt (depth : Nat) : Value → List Char
  | .null => "null".toList
  | .bool b => if b then "true".toList else "false".toList
  | .int n => Decimal.signedDigits n
  | .float x => floatStyle.render x
  | .text s => printText s
  | .list items | .tuple items => enclose '[' ']' depth (printItems (depth + 1) items)
  | .table entries => enclose '\x7b' '\x7d' depth (printEntries (depth + 1) entries)

/-- Some values at a depth. -/
def printItems (depth : Nat) : List Value → List (List Char)
  | [] => []
  | x :: xs => printAt depth x :: printItems depth xs

/-- Some entries at a depth. -/
def printEntries (depth : Nat) : List (Value × Value) → List (List Char)
  | [] => []
  | (key, value) :: entries =>
    (printText (keyText key) ++ ':' :: ' ' :: printAt depth value) :: printEntries depth entries

end

/-- A value as a JSON text. -/
def print (v : Value) : List Char := printAt 0 v

/-! ## Values without a text -/

/-- Why a value cannot be written. -/
inductive Unprintable where
  /-- only a text, a number, a truth value or null can be a key -/
  | key (kind : Value.Kind)
  /-- an integer has too many digits -/
  | tooManyDigits
  deriving DecidableEq, Repr

/-- The wording of a reason. -/
def Unprintable.message : Unprintable → Text
  | .key kind => "keys must be str, int, float, bool or None, not " ++ kind.name
  | .tooManyDigits =>
    "Exceeds the limit (" ++ toString maxIntegerDigits ++
      " digits) for integer string conversion; use sys.set_int_max_str_digits() to increase the limit"

/-- Whether an integer has too many digits to be written. -/
def unprintableInteger? (n : Int) : Option Unprintable :=
  if (Decimal.digits n.natAbs).length ≤ maxIntegerDigits then none else some .tooManyDigits

/-- What keeps a key from being written. -/
def unprintableKey? : Value → Option Unprintable
  | .int n => unprintableInteger? n
  | .list _ => some (.key .list)
  | .tuple _ => some (.key .tuple)
  | .table _ => some (.key .table)
  | _ => none

mutual

/-- The first part that keeps a value from being written. -/
def unprintable? : Value → Option Unprintable
  | .int n => unprintableInteger? n
  | .list items | .tuple items => unprintableOfItems? items
  | .table entries => unprintableOfEntries? entries
  | _ => none

/-- The first part that keeps some values from being written. -/
def unprintableOfItems? : List Value → Option Unprintable
  | [] => none
  | x :: xs => (unprintable? x).or (unprintableOfItems? xs)

/-- The first part that keeps some entries from being written. -/
def unprintableOfEntries? : List (Value × Value) → Option Unprintable
  | [] => none
  | (key, value) :: entries =>
    (unprintableKey? key).or ((unprintable? value).or (unprintableOfEntries? entries))

end

end Flowchart.Json
