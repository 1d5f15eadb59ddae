import Flowchart.Draft

/-!
# Rendering a diagram

A diagram is rendered as a header, the declarations of the nodes and the lines of the edges. Nodes and
edges may be handed over as records, as drafts or as values to be read, in any mixture.
-/

namespace Flowchart

/-- One node to be rendered. -/
inductive NodeSource where
  | node (n : Node)
  | draft (d : NodeDraft)
  | value (v : Value)

/-- One edge to be rendered. -/
inductive EdgeSource where
  | edge (e : Edge)
  | draft (d : EdgeDraft)
  | value (v : Value)

/-- What the declaration of a node says. A value is read as a table first. -/
def NodeSource.mention : NodeSource → Except Value.Fault Mention
  | .node n => return n.mention
  | .draft d => return d.mention
  | .value v => return (← Node.ofValue (.table (← v.toTable Value.sameKey))).mention

/-- The declaration of a node. -/
def NodeSource.render (n : NodeSource) : Except Value.Fault Text := return (← n.mention).render

/-- The two ends of an edge and its label, empty if there is none. -/
structure Link where
  source : Text
  target : Text
  label : Text
  deriving DecidableEq, Repr

/-- The line of an edge. A label is written between bars behind the arrow. -/
def Link.render (l : Link) : Text :=
  if l.label == "" then l.source ++ " --> " ++ l.target
  else l.source ++ " --> |" ++ l.label ++ "| " ++ l.target

/-- What the line of an edge says. -/
def Edge.link (e : Edge) : Link := ⟨e.source, e.target, e.label⟩

/-- What the line of an edge says. A value is read as a table first. -/
def EdgeSource.link : EdgeSource → Except Value.Fault Link
  | .edge e => return e.link
  | .draft d => return ⟨d.source.toText, d.target.toText, d.label.presentText⟩
  | .value v => return (← Edge.ofValue "0" (.table (← v.toTable Value.sameKey))).link

/-- The line of an edge. -/
def EdgeSource.render (e : EdgeSource) : Except Value.Fault Text := return (← e.link).render

/-- All nodes or all edges to be rendered: sources, or one value that holds them. -/
inductive Supply (α : Type) where
  | all (sources : List α)
  | value (v : Value)

/-- The sources in a supply, `ofValue` making one of each item of a value. -/
def Supply.sources {α : Type} (ofValue : Value → α) : Supply α → Except Value.Fault (List α)
  | .all sources => return sources
  | .value v => return (← v.items).map ofValue

/-- How a diagram is rendered. -/
structure Renderer where
  header : Text := "graph TD"
  /-- what stands before each declaration and edge -/
  indent : Text := "  "

namespace Renderer

/-- The lines of a diagram, one after the other, each with its break. -/
def join (r : Renderer) (declarations edges : List Text) : Text :=
  Text.join ((r.header :: (declarations ++ edges).map (r.indent ++ ·)).map (· ++ "\n"))

/-- The text of a diagram. All nodes are looked at before the edges. -/
def render (r : Renderer) (nodes : Supply NodeSource) (edges : Supply EdgeSource) :
    Except Value.Fault Text := do
  let declarations ← (← nodes.sources .value).mapM NodeSource.render
  let edges ← (← edges.sources .value).mapM EdgeSource.render
  return r.join declarations edges

/-- The text of a graph. -/
def renderGraph (r : Renderer) (g : Graph) : Text :=
  r.join (g.nodes.map fun n => n.mention.render) (g.edges.map fun e => e.link.render)

end Renderer

end Flowchart
