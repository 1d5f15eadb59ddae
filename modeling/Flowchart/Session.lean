import Flowchart.Fault
import Flowchart.Render
import Flowchart.Trace.Conversion

/-!
# Sessions

In a session diagrams are parsed into graphs, and graphs are rendered as diagrams. A session owns a random
sequence, from which the offsets of all nodes that it parses are drawn, and it keeps the trace of its last
conversion if that was asked for one. A conversion that fails leaves the trace alone.
-/

namespace Flowchart

/-- What a session starts from. -/
structure Settings where
  grid : Position.Grid := {}
  /-- the start of the random sequence -/
  seed : Option Int := none
  header : Text := ({} : Renderer).header
  /-- the name of a way of layering -/
  layering : Value := .text Layering.firstVisit.name

/-- The random sequence that belongs to a seed. Without a seed any sequence will do. -/
def randomOf (seed : Option Int) : Position.Twister := .ofSeed (seed.getD 0)

/-- A way to lay out and render graphs, with the state that is left by the conversions so far. -/
structure Session where
  layering : Layering
  grid : Position.Grid
  header : Text
  random : Position.Twister
  trace : Option Trace := none

namespace Session

/-- The session that starts from some settings. The layering is looked at before the grid. -/
def ofSettings (settings : Settings) : Except Fault Session := do
  let some layering := Layering.ofValue? settings.layering | throw .layering
  settings.grid.check.mapError Fault.grid
  return {
    layering
    grid := settings.grid
    header := settings.header
    random := randomOf settings.seed }

/-! ## Parsing -/

/-- Mentioned nodes at their positions. -/
def placeNodes (nodes : Entries Mention) (points : Entries (Float × Float)) :
    Except Value.Fault (List Node) :=
  nodes.mapM fun (_, m) =>
    match points.get? m.id with
    | some (x, y) => .ok (Node.ofMention m x y)
    | none => .error (.missing m.id)

/-- The graph that a text describes, laid out and placed, and the session after it. -/
def parse (s : Session) (text : Text) (debug : Bool) : Except Fault Graph × Session :=
  let ls := Line.ofText text
  let b := Blueprint.ofLines ls
  match Layout.ofAdjacency s.layering b.order b.successors with
  | .error f => (.error (.layout f), s)
  | .ok l =>
    match (s.grid.positionsOf l).run s.random with
    | (.error f, random) => (.error (.value f), { s with random })
    | (.ok points, random) =>
      match placeNodes b.nodes points with
      | .error f => (.error (.value f), { s with random })
      | .ok nodes =>
        let trace := if debug then some (.ofParse text ls b s.layering l points) else none
        (.ok { nodes, edges := b.edges }, { s with random, trace })

/-! ## Rendering -/

/-- The nodes and edges in two supplies, and their text. Both supplies are listed before any node is looked
at. -/
def renderSupplies (header : Text) (nodes : Supply NodeSource) (edges : Supply EdgeSource) :
    Except Value.Fault (List NodeSource × List EdgeSource × Text) := do
  let nodes ← nodes.sources .value
  let edges ← edges.sources .value
  let text ← ({ header } : Renderer).render (.all nodes) (.all edges)
  return (nodes, edges, text)

/-- The text of a diagram, and the session after it. -/
def render (s : Session) (nodes : Supply NodeSource) (edges : Supply EdgeSource) (debug : Bool) :
    Except Fault Text × Session :=
  match renderSupplies s.header nodes edges with
  | .error f => (.error (.value f), s)
  | .ok (nodes, edges, text) =>
    let trace := if debug then some (.ofRendering text s.header nodes.length edges.length) else none
    (.ok text, { s with trace })

/-- The text of a graph, and the session after it. -/
def renderGraph (s : Session) (g : Graph) (debug : Bool) : Except Fault Text × Session :=
  s.render (.all (g.nodes.map .node)) (.all (g.edges.map .edge)) debug

/-! ## Files -/

/-- Writes a text into a file. If there is a surrogate in it, the file has been opened already and is left
empty. -/
def writeText (path : String) (text : Text) (d : Disk) : Except Fault Unit × Disk :=
  match Text.Utf8.encodeText text with
  | .ok bytes =>
    match d.write path bytes with
    | .ok d => (.ok (), d)
    | .error f => (.error (.disk f), d)
  | .error u =>
    match d.write path [] with
    | .ok d => (.error (.unencodable u), d)
    | .error f => (.error (.disk f), d)

/-- Saves the text of the nodes and edges in two supplies in a file. The text is rendered before the file is
opened. -/
def saveSupplies (s : Session) (nodes : Supply NodeSource) (edges : Supply EdgeSource) (path : String) (d : Disk) :
    (Except Fault Unit × Disk) × Session :=
  match s.render nodes edges false with
  | (.error f, s) => ((.error f, d), s)
  | (.ok text, s) => (writeText (Path.plain path) text d, s)

/-- Saves the text of a graph in a file. -/
def saveText (s : Session) (g : Graph) (path : String) (d : Disk) : (Except Fault Unit × Disk) × Session :=
  s.saveSupplies (.all (g.nodes.map .node)) (.all (g.edges.map .edge)) path d

/-- Saves the report of a trace in a file. -/
def saveReport (t : Trace) (path : String) (d : Disk) : Except Fault Unit × Disk :=
  writeText path t.report d

end Session

end Flowchart
