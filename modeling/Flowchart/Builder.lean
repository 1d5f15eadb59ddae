import Flowchart.Connection
import Flowchart.Edge
import Flowchart.Entries

/-!
# Building a graph from lines

A `Builder` collects the nodes and edges that lines mention. The first mention of an id settles its shape
and label. `Builder.blueprint` gives the `Blueprint`: the nodes in the order of first mention, the successors
of each, and the edges in the order of their lines.
-/

namespace Flowchart

/-- What has been mentioned so far. -/
structure Builder where
  nodes : Entries Mention := []
  /-- the targets of the edges from each node that is a source, repeated edges included -/
  successors : Entries (List Text) := []
  edges : List Edge := []

/-- A graph that has not been laid out. -/
structure Blueprint where
  nodes : Entries Mention
  successors : Entries (List Text)
  edges : List Edge

/-- The ids of the nodes in the order of first mention. -/
def Blueprint.order (b : Blueprint) : List Text := b.nodes.ids

namespace Builder

/-- Whether a node has been mentioned. -/
def knows (b : Builder) (id : Text) : Bool := b.nodes.has id

/-- Enters a mentioned node; all but the first mention of an id are ignored. -/
def enter (b : Builder) (m : Mention) : Builder := { b with nodes := b.nodes.add m.id m }

/-- The edge that the builder would add next between two nodes. -/
def nextEdge (b : Builder) (source target label : Text) : Edge :=
  ⟨Edge.derivedId (toString b.edges.length) source target, source, target, label⟩

/-- Adds an edge and its two ends. -/
def connect (b : Builder) (c : Connection) : Builder :=
  let b := (b.enter c.source).enter c.target
  let targets := (b.successors.get? c.source.id).getD []
  { b with
    successors := b.successors.set c.source.id (targets ++ [c.target.id])
    edges := b.edges ++ [b.nextEdge c.source.id c.target.id c.label] }

/-- Enters a mentioned node unless its id is empty. -/
def enterNamed (b : Builder) (m : Mention) : Builder := if m.id == "" then b else b.enter m

/-- Reads a line. A connection that lacks one end still mentions the other. -/
def readLine (b : Builder) (kind : Line.Kind) (text : Text) : Builder :=
  match kind with
  | .declaration => b.enterNamed (Fragment.mention text.toList)
  | .connection =>
    let c := Connection.ofText text
    if c.source.id == "" || c.target.id == "" then
      (b.enterNamed c.source).enterNamed c.target
    else b.connect c

/-- Reads some lines, one after the other. -/
def readLines (b : Builder) (ls : List Line) : Builder :=
  ls.foldl (fun b l => b.readLine l.kind l.text) b

/-- What has been built. -/
def blueprint (b : Builder) : Blueprint where
  nodes := b.nodes
  successors := b.nodes.ids.map fun id => (id, (b.successors.get? id).getD [])
  edges := b.edges

end Builder

/-- The graph that some lines describe. -/
def Blueprint.ofLines (ls : List Line) : Blueprint := (({} : Builder).readLines ls).blueprint

end Flowchart
