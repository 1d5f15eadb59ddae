import Flowchart.Graph

/-!
# Drafts

A draft of a node or an edge keeps the values that it was given, whatever their form; they become text only
when the draft is rendered. A draft of a graph holds such drafts. Every node, edge and graph has a draft of its
own values, and every draft can be given as a table, but for the viewport of a graph that is none.
-/

namespace Flowchart

/-- A node whose fields may be values of any form. -/
structure NodeDraft where
  id : Value
  shape : Shape := .state
  label : Value := .text ""
  x : Value := .float 0.0
  y : Value := .float 0.0

/-- The draft with the given fields. The shape is named by a value, and a label that is not present gives
way to the id. -/
def NodeDraft.make (id shape label x y : Value) : NodeDraft :=
  ⟨id, .ofValue shape, if label.isPresent then label else id, x, y⟩

/-- What a draft says in a declaration. -/
def NodeDraft.mention (d : NodeDraft) : Mention := ⟨d.id.toText, d.shape, d.label.toText⟩

/-- A draft as a table. -/
def NodeDraft.toValue (d : NodeDraft) : Value :=
  .table [(.text "id", d.id), (.text "type", .text d.shape.name), (.text "label", d.label),
    (.text "position", .table [(.text "x", d.x), (.text "y", d.y)])]

/-- The draft of a node. -/
def Node.draft (n : Node) : NodeDraft := ⟨.text n.id, n.shape, .text n.label, .float n.x, .float n.y⟩

/-- An edge whose fields may be values of any form. -/
structure EdgeDraft where
  id : Value
  source : Value
  target : Value
  label : Value := .text ""

/-- The draft with the given fields; a null label is empty. -/
def EdgeDraft.make (id source target label : Value) : EdgeDraft :=
  ⟨id, source, target, match label with | .null => .text "" | label => label⟩

/-- A draft as a table. -/
def EdgeDraft.toValue (d : EdgeDraft) : Value :=
  .table [(.text "id", d.id), (.text "source", d.source), (.text "target", d.target),
    (.text "label", d.label)]

/-- The draft of an edge. -/
def Edge.draft (e : Edge) : EdgeDraft := ⟨.text e.id, .text e.source, .text e.target, .text e.label⟩

/-- A graph whose viewport may be a value of any form; null stands for none. -/
structure GraphDraft where
  nodes : List NodeDraft := []
  edges : List EdgeDraft := []
  viewport : Value := .null

/-- A draft as a table. A viewport that is not null is read as a table. -/
def GraphDraft.toValue (g : GraphDraft) : Except Value.Fault Value := do
  let nodes := .list (g.nodes.map NodeDraft.toValue)
  let edges := .list (g.edges.map EdgeDraft.toValue)
  match g.viewport with
  | .null => return .table [(.text "nodes", nodes), (.text "edges", edges)]
  | v =>
    let viewport ← v.toTable Value.sameKey
    return .table [(.text "nodes", nodes), (.text "edges", edges), (.text "viewport", .table viewport)]

/-- The draft of a graph. -/
def Graph.draft (g : Graph) : GraphDraft where
  nodes := g.nodes.map Node.draft
  edges := g.edges.map Edge.draft
  viewport := g.viewport.elim .null .table

end Flowchart
