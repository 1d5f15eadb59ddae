import Flowchart.Entries

/-!
# Directed graphs

A directed graph has its nodes in the order of their addition, and for each node its successors in the
order in which the edges were added. An edge is in the graph once or not at all.
-/

namespace Flowchart

/-- The successors of `id`; an id without entry has none. -/
def Entries.successorsOf (adjacency : Entries (List Text)) (id : Text) : List Text :=
  (adjacency.get? id).getD []

/-- The number of successors in all entries. -/
def Entries.successorCount (adjacency : Entries (List Text)) : Nat :=
  (adjacency.flatMap Prod.snd).length

/-- A directed graph: the successors of each node. -/
structure Digraph where
  successors : Entries (List Text) := []

namespace Digraph

/-- The nodes. -/
def nodes (g : Digraph) : List Text := g.successors.ids

/-- The targets of the edges from `v`. -/
def next (g : Digraph) (v : Text) : List Text := g.successors.successorsOf v

/-- The sources of the edges to `v`. -/
def previous (g : Digraph) (v : Text) : List Text :=
  (g.successors.filter (·.2.contains v)).map Prod.fst

/-- All edges. -/
def edges (g : Digraph) : List (Text × Text) :=
  g.successors.flatMap fun (u, vs) => vs.map (u, ·)

/-- Adds a node unless it is there. -/
def addNode (g : Digraph) (v : Text) : Digraph := ⟨g.successors.add v []⟩

/-- Adds an edge, and its ends, unless they are there. -/
def addEdge (g : Digraph) (u v : Text) : Digraph :=
  let g := (g.addNode u).addNode v
  let vs := g.next u
  if vs.contains v then g else ⟨g.successors.set u (vs ++ [v])⟩

/-- Removes an edge; its ends stay. -/
def removeEdge (g : Digraph) (u v : Text) : Digraph := ⟨g.successors.set u ((g.next u).erase v)⟩

/-- Removes some edges. -/
def removeEdges (g : Digraph) (es : List (Text × Text)) : Digraph :=
  es.foldl (fun g (u, v) => g.removeEdge u v) g

/-- The graph with the given nodes, the given edges and the ends of these. -/
def ofEdges (vs : List Text) (es : List (Text × Text)) : Digraph :=
  es.foldl (fun g (u, v) => g.addEdge u v) (vs.foldl addNode {})

/-- The graph with the nodes of `order` and, for each of them in turn, the edges to its successors. -/
def ofAdjacency (order : List Text) (adjacency : Entries (List Text)) : Digraph :=
  ofEdges order (order.flatMap fun u => (adjacency.successorsOf u).map (u, ·))

end Digraph

end Flowchart
