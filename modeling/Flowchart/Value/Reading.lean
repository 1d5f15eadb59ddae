import Flowchart.Decimal.Numeral
import Flowchart.Text.Quoted
import Flowchart.Value.Table

/-!
# Reading values

What may be asked of a value depends on its form. Each question here has an answer or a `Value.Fault`
that says why there is none.
-/

namespace Flowchart.Value

/-- Why a value cannot be read as asked. -/
inductive Fault where
  /-- a table has no such entry -/
  | missing (key : Text)
  /-- only tables have named entries that may be absent -/
  | noEntries (kind : Kind)
  /-- only tables have named entries -/
  | noItems (kind : Kind)
  /-- the items of a list have numbers, not names -/
  | listItemByName
  /-- the characters of a text have numbers, not names -/
  | textItemByName
  | notIterable (kind : Kind)
  /-- a list or table cannot be a key -/
  | unfitKey (kind : Kind)
  /-- an item that should be a key with its value has no items -/
  | entryWithoutItems (index : Nat)
  /-- an item that should be a key with its value does not have two items -/
  | entryLength (index length : Nat)
  | notNumeric (kind : Kind)
  | notANumeral (s : Text)
  /-- an integer lies beyond the range of floats -/
  | tooLarge
  deriving DecidableEq, Repr

/-- The wording of a fault. -/
def Fault.message : Fault → Text
  | .missing key => Text.quoted key
  | .noEntries kind => "'" ++ kind.name ++ "' object has no attribute 'get'"
  | .noItems kind => "'" ++ kind.name ++ "' object is not subscriptable"
  | .listItemByName => "list indices must be integers or slices, not str"
  | .textItemByName => "string indices must be integers, not 'str'"
  | .notIterable kind => "'" ++ kind.name ++ "' object is not iterable"
  | .unfitKey kind => "unhashable type: '" ++ kind.name ++ "'"
  | .entryWithoutItems index =>
    "cannot convert dictionary update sequence element #" ++ toString index ++ " to a sequence"
  | .entryLength index length =>
    "dictionary update sequence element #" ++ toString index ++ " has length " ++ toString length ++
      "; 2 is required"
  | .notNumeric kind =>
    "float() argument must be a string or a real number, not '" ++ kind.name ++ "'"
  | .notANumeral s => "could not convert string to float: " ++ Text.quoted s
  | .tooLarge => "int too large to convert to float"

/-- The entry of a table under a name, or a default if there is none. -/
def lookup (v : Value) (name : Text) (default : Value) : Except Fault Value :=
  match v with
  | .table entries => .ok ((Table.get? entries name).getD default)
  | v => .error (.noEntries v.kind)

/-- The entry of a table under a name, which must be there. -/
def entry (v : Value) (name : Text) : Except Fault Value :=
  match v with
  | .table entries =>
    match Table.get? entries name with
    | some v => .ok v
    | none => .error (.missing name)
  | .list _ | .tuple _ => .error .listItemByName
  | .text _ => .error .textItemByName
  | v => .error (.noItems v.kind)

/-- The parts of a value one after the other: the items of a list, the characters of a text, the keys of
a table. -/
def items : Value → Except Fault (List Value)
  | .list items | .tuple items => .ok items
  | .text s => .ok (s.toList.map fun c => .text (Text.singleton c))
  | .table entries => .ok (entries.map Prod.fst)
  | v => .error (.notIterable v.kind)

/-- A key and its value, from item number `index` of a list of entries. -/
def entryOfItem (index : Nat) (v : Value) : Except Fault (Value × Value) :=
  match v.items with
  | .ok [key, value] => .ok (key, value)
  | .ok parts => .error (.entryLength index parts.length)
  | .error _ => .error (.entryWithoutItems index)

/-- Adds to `t` the entries that `values` hold, the first of them being item number `index`. -/
def addEntries (same : KeyRule) (t : Table) (index : Nat) : List Value → Except Fault Table
  | [] => .ok t
  | v :: values => do
    let (key, value) ← entryOfItem index v
    match unfitKey? key with
    | some kind => throw (.unfitKey kind)
    | none => addEntries same (t.insertBy same key value) (index + 1) values

/-- A value as a table: a table is itself, anything else is read as a row of entries. -/
def toTable (same : KeyRule) : Value → Except Fault Table
  | .table entries => .ok entries
  | v => do addEntries same [] 0 (← v.items)

/-- A value as a float. -/
def toFloat : Value → Except Fault Float
  | .bool b => .ok (if b then 1.0 else 0.0)
  | .int n => (Decimal.floatOfInt? n).elim (.error .tooLarge) .ok
  | .float x => .ok x
  | .text s => (s.chars? >>= Decimal.readFloat?).elim (.error (.notANumeral s)) .ok
  | v => .error (.notNumeric v.kind)

end Flowchart.Value
