import Flowchart.Edge
import Flowchart.Index
import Flowchart.Node

/-!
# Graphs

A graph has nodes, edges and perhaps a viewport, a table that is carried along unread. `Graph.toValue` gives
it as a table, and `Graph.ofValue` reads one; `Graph.ofDocument` reads one that stood in a document.
-/

namespace Flowchart

/-- A graph with positions. -/
structure Graph where
  nodes : List Node := []
  edges : List Edge := []
  viewport : Option Value.Table := none

namespace Graph

/-- The ids of the nodes. -/
def nodeIds (g : Graph) : List Text := g.nodes.map Node.id

/-- The two ends of each edge. -/
def edgeEnds (g : Graph) : List (Text × Text) := g.edges.map fun e => (e.source, e.target)

/-- The first node with an id. -/
def node? (g : Graph) (id : Text) : Option Node := g.nodes.find? (·.id == id)

/-- A graph as a table. There is an entry for the viewport only if the graph has one. -/
def toValue (g : Graph) : Value :=
  .table ([(.text "nodes", .list (g.nodes.map Node.toValue)),
    (.text "edges", .list (g.edges.map Edge.toValue))] ++
      g.viewport.toList.map fun t => (.text "viewport", .table t))

/-- The items of an entry, none if the entry is absent or empty. -/
def itemsUnder (name : Text) (v : Value) : Except Value.Fault (List Value) := do
  let entry ← v.lookup name .null
  if entry.isPresent then entry.items else return []

/-- Reads the viewport; one that is empty counts as absent. -/
def viewportOf (same : Value.KeyRule) (v : Value) : Except Value.Fault (Option Value.Table) := do
  let entry ← v.lookup "viewport" .null
  if entry.isPresent then some <$> entry.toTable same else return none

/-- Reads the edges, the first of them at place `place`. -/
def edgesOf (place : Nat) : List Value → Except Value.Fault (List Edge)
  | [] => return []
  | v :: vs => return (← Edge.ofValue (toString place) v) :: (← edgesOf (place + 1) vs)

/-- Reads a graph, with a rule for the keys of its viewport. -/
def read (same : Value.KeyRule) (v : Value) : Except Value.Fault Graph := do
  let nodes ← (← itemsUnder "nodes" v).mapM Node.ofValue
  let edges ← edgesOf 0 (← itemsUnder "edges" v)
  return ⟨nodes, edges, ← viewportOf same v⟩

/-- Reads a graph. -/
def ofValue (v : Value) : Except Value.Fault Graph := read Value.sameKey v

/-- Reads a graph from a document. -/
def ofDocument (v : Value) : Except Value.Fault Graph := read Value.sameDocumentKey v

/-- The graph with another label on the node at a place. -/
def relabel (g : Graph) (place : Int) (label : Text) : Except Index.Fault Graph :=
  (Index.resolve g.nodes.length place).map fun i =>
    { g with nodes := g.nodes.modify i ({ · with label }) }

/-- The graph with a viewport, an empty one if it had none. -/
def withViewport (g : Graph) : Graph := { g with viewport := some (g.viewport.getD []) }

/-- Sets an entry of the viewport. A key that is not fit leaves its entries alone. -/
def setViewport (g : Graph) (key value : Value) : Except Value.Fault Unit × Graph :=
  match key.unfitKey? with
  | some kind => (.error (.unfitKey kind), g.withViewport)
  | none => (.ok (), { g with viewport := some (Value.Table.insert key value (g.viewport.getD [])) })

end Graph

end Flowchart
