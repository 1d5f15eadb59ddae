import Flowchart.Value.Text

/-!
# Shapes

The shape of a node decides which brackets stand around its label.
-/

namespace Flowchart

/-- The shape of a node. -/
inductive Shape where
  | state
  | action
  | choice
  deriving DecidableEq, Repr, Inhabited

namespace Shape

/-- All shapes, in the order in which their brackets are looked for. -/
def all : List Shape := [.state, .action, .choice]

theorem mem_all (s : Shape) : s ∈ all := by cases s <;> decide

/-- The name of a shape. -/
def name : Shape → Text
  | .state => "state"
  | .action => "action"
  | .choice => "choice"

theorem name_inj {s t : Shape} (h : s.name = t.name) : s = t := by
  revert h
  cases s <;> cases t <;> decide

/-- What stands before a label. -/
def opener : Shape → List CodePoint
  | .state => ['(', '(']
  | .action => ['[']
  | .choice => ['\x7b']

/-- What stands behind a label. -/
def closer : Shape → List CodePoint
  | .state => [')', ')']
  | .action => [']']
  | .choice => ['\x7d']

/-- The shape with the given name in any case; any other text names the state. -/
def ofText (s : Text) : Shape :=
  (all.find? fun shape => shape.name.toList == s.toList.map CodePoint.toLower).getD .state

/-- The shape that a value names. -/
def ofValue (v : Value) : Shape := ofText v.toText

@[simp] theorem ofText_name (s : Shape) : ofText s.name = s := by cases s <;> rfl

@[simp] theorem ofValue_name (s : Shape) : ofValue (.text s.name) = s := ofText_name s

end Shape

end Flowchart
