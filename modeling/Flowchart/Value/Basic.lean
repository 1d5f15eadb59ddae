import Flowchart.Decimal.Binary
import Flowchart.Text.Basic

/-!
# Values

A `Value` is a piece of data whose form is known only when it is looked at: a stored document, a
setting, the data of a trace. Tables keep their entries in order, and their keys are values too; two
numbers are the same key when they are equal, whatever their form.
-/

namespace Flowchart

/-- Data of any form. -/
inductive Value where
  | null
  | bool (b : Bool)
  | int (n : Int)
  | float (x : Float)
  | text (s : Text)
  | list (items : List Value)
  | tuple (items : List Value)
  | table (entries : List (Value × Value))
  deriving Inhabited

namespace Value

/-- The form of a value. -/
inductive Kind where
  | null
  | bool
  | int
  | float
  | text
  | list
  | tuple
  | table
  deriving DecidableEq, Repr

/-- The name of a form in messages. -/
def Kind.name : Kind → Text
  | .null => "NoneType"
  | .bool => "bool"
  | .int => "int"
  | .float => "float"
  | .text => "str"
  | .list => "list"
  | .tuple => "tuple"
  | .table => "dict"

/-- The form of a value. -/
def kind : Value → Kind
  | .null => .null
  | .bool _ => .bool
  | .int _ => .int
  | .float _ => .float
  | .text _ => .text
  | .list _ => .list
  | .tuple _ => .tuple
  | .table _ => .table

/-- Whether a value counts as present: it is neither null, false, a zero, nor empty. -/
def isPresent : Value → Bool
  | .null => false
  | .bool b => b
  | .int n => n != 0
  | .float x => x != 0.0
  | .text s => s != ""
  | .list items => ! items.isEmpty
  | .tuple items => ! items.isEmpty
  | .table entries => ! entries.isEmpty

/-- The integer that a value is equal to, if there is one; true is one and false is zero. -/
def integer? : Value → Option Int
  | .bool b => some (if b then 1 else 0)
  | .int n => some n
  | .float x => Decimal.integerValue? x
  | _ => none

mutual

/-- Whether two values are the same key. -/
def sameKey : Value → Value → Bool
  | .null, .null => true
  | .text s, .text t => s == t
  | .tuple xs, .tuple ys => sameKeys xs ys
  | a, b =>
    match integer? a, integer? b with
    | some m, some n => m == n
    | none, none =>
      match a, b with
      | .float x, .float y => x == y
      | _, _ => false
    | _, _ => false

/-- Whether two rows of values are the same keys. -/
def sameKeys : List Value → List Value → Bool
  | [], [] => true
  | x :: xs, y :: ys => sameKey x y && sameKeys xs ys
  | _, _ => false

end

/-- A rule that says whether two values are the same key. -/
abbrev KeyRule := Value → Value → Bool

/-- Whether a value has the form of a float but is no number. -/
def isNan : Value → Bool
  | .float x => x.isNaN
  | _ => false

/-- Whether two values of one document are the same key. By itself no NaN is the same key as another, but a
document has only one. -/
def sameDocumentKey : KeyRule := fun a b => sameKey a b || (a.isNan && b.isNan)

mutual

/-- The form of the part that keeps a value from being a key. -/
def unfitKey? : Value → Option Kind
  | .list _ => some .list
  | .table _ => some .table
  | .tuple items => unfitKeys? items
  | _ => none

/-- The form of the first part that keeps one of some values from being a key. -/
def unfitKeys? : List Value → Option Kind
  | [] => none
  | x :: xs => (unfitKey? x).or (unfitKeys? xs)

end

end Value

end Flowchart
