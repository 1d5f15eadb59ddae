import Flowchart.Mention
import Flowchart.Value.Reading

/-!
# Nodes

A node is a mention with a position. `Node.toValue` gives it as a table, and `Node.ofValue` reads one.
-/

namespace Flowchart

/-- A labelled node at a position. -/
structure Node where
  id : Text
  shape : Shape := .state
  label : Text := ""
  x : Float := 0.0
  y : Float := 0.0

namespace Node

/-- The node that a mention and a position make. A node without a label is labelled with its id. -/
def ofMention (m : Mention) (x y : Float) : Node :=
  ⟨m.id, m.shape, if m.label == "" then m.id else m.label, x, y⟩

/-- A node without its position. -/
def mention (n : Node) : Mention := ⟨n.id, n.shape, n.label⟩

/-- A node as a table. -/
def toValue (n : Node) : Value :=
  .table [(.text "id", .text n.id), (.text "type", .text n.shape.name), (.text "label", .text n.label),
    (.text "position", .table [(.text "x", .float n.x), (.text "y", .float n.y)])]

/-- The label in a table: the entry for it or, if that is null, the one in the table under `data`. -/
def labelOf (v : Value) : Except Value.Fault Value := do
  match ← v.lookup "label" .null with
  | .null =>
    let data ← v.lookup "data" .null
    if data.isPresent then data.lookup "label" .null else return .null
  | label => return label

/-- Reads a node. Only the id must be given; a node without position stands at zero. -/
def ofValue (v : Value) : Except Value.Fault Node := do
  let label ← labelOf v
  let position ← v.lookup "position" .null
  let position := if position.isPresent then position else .table []
  let id ← v.entry "id"
  let shape ← v.lookup "type" .null
  let x ← (← position.lookup "x" (.float 0.0)).toFloat
  let y ← (← position.lookup "y" (.float 0.0)).toFloat
  return ofMention ⟨id.toText, .ofValue shape, label.presentText⟩ x y

end Node

end Flowchart
