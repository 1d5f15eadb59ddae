import Flowchart.Layout.Bands
import Flowchart.Layout.FirstVisit
import Flowchart.Layout.LongestPath
import Flowchart.Value.Basic

/-!
# Layouts

A layout gives each node a depth and a column, its place in the band of its depth. The depths come from one
of two ways of layering: by first visit or by longest path.
-/

namespace Flowchart

/-- How depths are found. -/
inductive Layering where
  | firstVisit
  | longestPath
  deriving DecidableEq, Repr

namespace Layering

/-- The name of a way of layering. -/
def name : Layering → Text
  | .firstVisit => "first_visit"
  | .longestPath => "longest_path"

/-- All ways of layering. -/
def all : List Layering := [.firstVisit, .longestPath]

/-- The way of layering that a value names. -/
def ofValue? : Value → Option Layering
  | .text s => all.find? fun l => l.name == s
  | _ => none

end Layering

/-- Where a node stands. -/
structure Placement where
  depth : Nat
  column : Nat
  deriving DecidableEq, Repr

/-- Nodes with their places. -/
structure Layout where
  /-- the places of the nodes, band by band -/
  placements : Entries Placement
  bands : List (List Text)
  /-- the edges that were left out to break cycles -/
  backEdges : List (Text × Text)

namespace Layout

/-- Whether edges had to be left out. -/
def hasCycles (l : Layout) : Bool := ! l.backEdges.isEmpty

/-- Whether one edge comes before another or is the same: by source, then by target. -/
def edgeLe (a b : Text × Text) : Bool := a.1 < b.1 || (a.1 == b.1 && ! (b.2 < a.2))

/-- The back edges, ordered by source and target. -/
def sortedBackEdges (l : Layout) : List (Text × Text) := l.backEdges.mergeSort edgeLe

/-- The places of the nodes in some bands. If an id stands in several places the last one counts. -/
def placementsOf (bands : List (List Text)) : Entries Placement :=
  Entries.ofPairs (bands.zipIdx.flatMap fun (band, depth) =>
    band.zipIdx.map fun (id, column) => (id, ⟨depth, column⟩))

/-- The depth of each node, and the edges left out. -/
def depthsBy : Layering → List Text → Entries (List Text) →
    Except Fault (Entries Nat × List (Text × Text))
  | .firstVisit, order, adjacency => .ok (firstVisitDepths order adjacency, [])
  | .longestPath, order, adjacency => longestPathDepths order adjacency

/-- The layout of the nodes of `order`. -/
def ofAdjacency (layering : Layering) (order : List Text) (adjacency : Entries (List Text)) :
    Except Fault Layout := do
  let (depths, backEdges) ← depthsBy layering order adjacency
  let rows ← bandsOf order (depths.map fun (id, depth) => (id, (depth : Int)))
  return ⟨placementsOf rows, rows, backEdges⟩

end Layout

end Flowchart
