import Flowchart.Builder
import Flowchart.Decimal.Rounding
import Flowchart.Layout
import Flowchart.Trace

/-!
# Traces of conversions

Parsing a diagram has five stages: the significant lines, the graph that they build, the depths, the
columns and the positions of its nodes. Rendering has one. Each stage has a table of what it has found.
-/

namespace Flowchart.Trace

/-- The numbers and kinds of the significant lines. -/
def lineData (ls : List Line) : Value.Table :=
  [(.text "lines", .list (ls.map fun l => .tuple [.int l.number, .text l.kind.name]))]

/-- The nodes, their successors and the edges of a graph. -/
def buildData (b : Blueprint) : Value.Table :=
  [(.text "nodes", .list (b.order.map .text)),
    (.text "adjacency", .table (b.successors.map fun (id, ids) => (.text id, .list (ids.map .text)))),
    (.text "edges", .list (b.edges.map fun e => .tuple [.text e.source, .text e.target, .text e.label]))]

/-- The depths of the nodes, and the edges left out to find them. -/
def depthData (layering : Layering) (l : Layout) : Value.Table :=
  [(.text "layering", .text layering.name),
    (.text "depths", .table (l.placements.map fun (id, p) => (.text id, .int p.depth))),
    (.text "back_edges", .list (l.sortedBackEdges.map fun (u, v) => .tuple [.text u, .text v]))]

/-- The bands of nodes. -/
def columnData (l : Layout) : Value.Table :=
  [(.text "layers", .list (l.bands.map fun band => .list (band.map .text)))]

/-- The positions of the nodes, rounded to one decimal place. -/
def positionData (points : Entries (Float × Float)) : Value.Table :=
  points.map fun (id, x, y) =>
    (.text id, .tuple [.float (Decimal.roundPlaces 1 x), .float (Decimal.roundPlaces 1 y)])

/-- The trace of a text that was parsed. -/
def ofParse (text : Text) (ls : List Line) (b : Blueprint) (layering : Layering) (l : Layout)
    (points : Entries (Float × Float)) : Trace where
  operation := "parse"
  inputText := text
  stages := [⟨"classify", lineData ls⟩, ⟨"build", buildData b⟩, ⟨"depths", depthData layering l⟩,
    ⟨"columns", columnData l⟩, ⟨"positions", positionData points⟩]

/-- The trace of a text that was rendered from so many nodes and edges. -/
def ofRendering (text header : Text) (nodes edges : Nat) : Trace where
  operation := "generate"
  outputText := text
  stages := [⟨"serialize",
    [(.text "nodes", .int nodes), (.text "edges", .int edges), (.text "header", .text header)]⟩]

end Flowchart.Trace
