import Flowchart.Entries
import Flowchart.Index
import Flowchart.Text.Quoted

/-!
# Faults of layouts
-/

namespace Flowchart.Layout

/-- Why nodes cannot be laid out. -/
inductive Fault where
  /-- a node has no depth -/
  | noDepth (id : Text)
  /-- a depth is so far below zero that it denotes no band -/
  | index (f : Index.Fault)
  /-- a cycle keeps some nodes from coming behind their predecessors -/
  | cycle
  deriving DecidableEq, Repr

/-- The wording of a fault. -/
def Fault.message : Fault → Text
  | .noDepth id => Text.quoted id
  | .index f => f.message
  | .cycle => "Graph contains a cycle or graph changed during iteration"

/-- The depth of a node. -/
def depthOf {α : Type} (depths : Entries α) (id : Text) : Except Fault α :=
  (depths.get? id).elim (.error (.noDepth id)) .ok

end Flowchart.Layout
