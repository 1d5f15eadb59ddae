import Flowchart.Proofs.NormalForm
import Flowchart.Render
import Flowchart.Store.Memory

/-!
# Forms of nodes and edges

A node or an edge can be handed over as a record, as a draft or as its own table (`Node.Form`, `Edge.Form`). Whatever
mixture of these forms a graph is given by (`Graph.GivenBy`), its text is the same, and so is the text of the graph that
a memory gives back (`Store.Memory.render_forms`), as long as every node can be made of a mention and a position. A node
that was labelled anew with the empty text cannot, and has two texts (`Store.Memory.not_render_forms_relabelled`).
-/

namespace Flowchart

/-! ## Forms -/

/-- The forms in which a node can be handed over. -/
inductive Node.Form (n : Node) : NodeSource → Prop where
  | record : Form n (.node n)
  | draft : Form n (.draft n.draft)
  | table : Form n (.value n.toValue)

/-- The forms in which an edge can be handed over. -/
inductive Edge.Form (e : Edge) : EdgeSource → Prop where
  | record : Form e (.edge e)
  | draft : Form e (.draft e.draft)
  | table : Form e (.value e.toValue)

theorem Node.Form.mention_eq {n : Node} {source : NodeSource} (h : n.Form source) (hn : n.IsNormal) :
    source.mention = .ok n.mention := by
  cases h with
  | record => rfl
  | draft => rfl
  | table =>
    show (do return (← Node.ofValue n.toValue).mention) = Except.ok n.mention
    rw [Node.ofValue_toValue, Node.restored_eq hn]
    rfl

theorem Edge.Form.link_eq {e : Edge} {source : EdgeSource} (h : e.Form source) : source.link = .ok e.link := by
  cases h with
  | record => rfl
  | draft =>
    show Except.ok (Link.mk e.source e.target (Value.text e.label).presentText) = _
    rw [Value.presentText_text]
    rfl
  | table =>
    show (do return (← Edge.ofValue "0" e.toValue).link) = Except.ok e.link
    rw [Edge.ofValue_toValue]
    rfl

/-! ## Supplies -/

variable {α β : Type} {ofValue : Value → α} {form : β → α → Prop} {xs : List β}

/-- A supply gives some nodes or edges in order, each in one of its forms. -/
def Supply.Gives (supply : Supply α) (ofValue : Value → α) (form : β → α → Prop) (xs : List β) : Prop :=
  ∃ sources, supply.sources ofValue = .ok sources ∧ List.Forall₂ form xs sources

/-- Two supplies give the nodes and the edges of a graph. -/
structure Graph.GivenBy (g : Graph) (nodes : Supply NodeSource) (edges : Supply EdgeSource) : Prop where
  nodes : nodes.Gives .value Node.Form g.nodes
  edges : edges.Gives .value Edge.Form g.edges

theorem Supply.gives_all {sources : List α} (h : List.Forall₂ form xs sources) :
    (Supply.all sources).Gives ofValue form xs :=
  ⟨sources, rfl, h⟩

/-- A list of tables is a supply as well. -/
theorem Supply.gives_value {f : β → Value} (h : ∀ x, form x (ofValue (f x))) :
    (Supply.value (.list (xs.map f))).Gives ofValue form xs := by
  refine ⟨(xs.map f).map ofValue, rfl, ?_⟩
  rw [List.map_map, List.forall₂_map_right_iff]
  exact List.forall₂_same.2 fun x _ => h x

/-- All that a supply gives is rendered, in its order. -/
theorem Supply.Gives.mapM_eq {supply : Supply α} (h : supply.Gives ofValue form xs)
    {f : α → Except Value.Fault Text} {g : β → Text}
    (hf : ∀ x ∈ xs, ∀ source, form x source → f source = .ok (g x)) :
    ∃ sources, supply.sources ofValue = .ok sources ∧ sources.mapM f = .ok (xs.map g) := by
  obtain ⟨sources, hsources, hforms⟩ := h
  exact ⟨sources, hsources, mapM_eq_ok_of_forall₂ hforms hf⟩

/-! ## The text of a graph -/

theorem Node.Form.render_eq {n : Node} {source : NodeSource} (h : n.Form source) (hn : n.IsNormal) :
    source.render = .ok n.mention.render := by
  unfold NodeSource.render
  rw [h.mention_eq hn]
  rfl

theorem Edge.Form.render_eq {e : Edge} {source : EdgeSource} (h : e.Form source) :
    source.render = .ok e.link.render := by
  unfold EdgeSource.render
  rw [h.link_eq]
  rfl

/-- The text of a graph does not depend on the forms of its nodes and edges. -/
theorem Graph.GivenBy.render_eq {g : Graph} {nodes : Supply NodeSource} {edges : Supply EdgeSource}
    (h : g.GivenBy nodes edges) (hn : ∀ n ∈ g.nodes, n.IsNormal) (r : Renderer) :
    r.render nodes edges = .ok (r.renderGraph g) := by
  obtain ⟨ns, hns, hnodes⟩ := h.nodes.mapM_eq fun n hmem source hform => Node.Form.render_eq hform (hn n hmem)
  obtain ⟨es, hes, hedges⟩ := h.edges.mapM_eq fun e _ source hform => Edge.Form.render_eq hform
  unfold Renderer.render
  rw [hns, ok_bind, hnodes, ok_bind, hes, ok_bind, hedges]
  rfl

/-! ## The text of a graph that was saved -/

theorem Graph.link_restoredEdges (place : ℕ) (es : List Edge) :
    (restoredEdges place es).map Edge.link = es.map Edge.link := by
  induction es generalizing place with
  | nil => rfl
  | cons e es ih =>
    rw [restoredEdges, List.map_cons, List.map_cons, ih]
    rfl

/-- A graph has the same text after it has been read from its own table. -/
theorem Renderer.renderGraph_restored (r : Renderer) {g : Graph} (hn : ∀ n ∈ g.nodes, n.IsNormal) :
    r.renderGraph g.restored = r.renderGraph g := by
  have hlinks : (g.restored.edges.map fun e => e.link.render) = g.edges.map fun e => e.link.render := by
    have hmap := congrArg (List.map Link.render) (Graph.link_restoredEdges 0 g.edges)
    rwa [List.map_map, List.map_map] at hmap
  unfold renderGraph
  rw [Graph.nodes_restored hn, hlinks]

namespace Store

/-- A memory gives back what is read from the table of a graph. -/
theorem Memory.load_after_save (m : Memory) (g : Graph) : (m.save g).load = .ok (some g.restored) := by
  show some <$> Graph.ofValue g.toValue = _
  unfold Graph.ofValue
  rw [Graph.read_toValue]
  rfl

/-- A graph has one text in every style, whether its nodes and edges are given as records, as drafts, as their own
tables or in any mixture of these, and also after it has been saved in a memory and loaded again. Its nodes are as
mentions and positions make them; ids of edges may be empty, and the viewport does not matter. -/
theorem Memory.render_forms (m : Memory) (r : Renderer) {g : Graph}
    (hnodes : ∀ n ∈ g.nodes, ∃ mention x y, n = Node.ofMention mention x y) :
    (∀ nodes edges, g.GivenBy nodes edges → r.render nodes edges = .ok (r.renderGraph g)) ∧
      ∃ g', (m.save g).load = .ok (some g') ∧
        ∀ nodes edges, g'.GivenBy nodes edges → r.render nodes edges = .ok (r.renderGraph g) := by
  have hnormal : ∀ n ∈ g.nodes, n.IsNormal := fun n hn => Node.isNormal_iff.2 (hnodes n hn)
  have hrestored : ∀ n ∈ g.restored.nodes, n.IsNormal := by
    rw [Graph.nodes_restored hnormal]
    exact hnormal
  refine ⟨fun nodes edges h => h.render_eq hnormal r, g.restored, m.load_after_save g, fun nodes edges h => ?_⟩
  rw [h.render_eq hrestored r, r.renderGraph_restored hnormal]

/-- A mixture of forms: a table, a record that is labelled with its id, and a draft of a node without an id. An edge
without an id is given by its table in a list. -/
theorem Memory.render_forms_mixed :
    let g : Graph :=
      { nodes := [⟨"a", .action, "x", 0.5, -0.0⟩, Node.ofMention ⟨"b", .choice, ""⟩ 1.0 (0.0 / 0.0),
          ⟨"", .state, "", 0.0, 0.0⟩]
        edges := [⟨"", "a", "b", ""⟩, ⟨"e", "b", "", "yes"⟩]
        viewport := some [] }
    let nodes : Supply NodeSource := .all [.value (Node.toValue ⟨"a", .action, "x", 0.5, -0.0⟩),
      .node (Node.ofMention ⟨"b", .choice, ""⟩ 1.0 (0.0 / 0.0)), .draft (Node.draft ⟨"", .state, "", 0.0, 0.0⟩)]
    let edges : Supply EdgeSource := .value (.list (g.edges.map Edge.toValue))
    let r : Renderer := { header := "flowchart LR", indent := "\t" }
    (∀ n ∈ g.nodes, ∃ mention x y, n = Node.ofMention mention x y) ∧ g.GivenBy nodes edges ∧
      r.render nodes edges = .ok "flowchart LR\n\ta[x]\n\tb\x7bb\x7d\n\t(())\n\ta --> b\n\tb --> |yes| \n" ∧
      ∃ g', (Memory.save {} g).load = .ok (some g') ∧
        r.render (.all (g'.nodes.map .node)) (.all (g'.edges.map .edge)) = r.render nodes edges := by
  intro g nodes edges r
  have hnodes : ∀ n ∈ g.nodes, ∃ mention x y, n = Node.ofMention mention x y := by
    simp only [g, List.forall_mem_cons]
    exact ⟨⟨⟨"a", .action, "x"⟩, _, _, rfl⟩, ⟨_, _, _, rfl⟩, ⟨⟨"", .state, ""⟩, _, _, rfl⟩, List.forall_mem_nil _⟩
  have hgiven : g.GivenBy nodes edges :=
    ⟨Supply.gives_all (.cons .table (.cons .record (.cons .draft .nil))), Supply.gives_value fun _ => .table⟩
  obtain ⟨hall, g', hload, hloaded⟩ := Memory.render_forms {} r hnodes
  have hrecords : g'.GivenBy (.all (g'.nodes.map .node)) (.all (g'.edges.map .edge)) :=
    ⟨Supply.gives_all (List.forall₂_map_right_iff.2 (List.forall₂_same.2 fun _ _ => .record)),
      Supply.gives_all (List.forall₂_map_right_iff.2 (List.forall₂_same.2 fun _ _ => .record))⟩
  have htext : r.renderGraph g = "flowchart LR\n\ta[x]\n\tb\x7bb\x7d\n\t(())\n\ta --> b\n\tb --> |yes| \n" := by
    decide +kernel
  refine ⟨hnodes, hgiven, htext ▸ hall nodes edges hgiven, g', hload, ?_⟩
  rw [hloaded _ _ hrecords, hall nodes edges hgiven]

/-- A node that is labelled anew with the empty text: its record is drawn without a label, but its table and what a
memory gives back are labelled with the id. -/
theorem Memory.not_render_forms_relabelled :
    let r : Renderer := {}
    let g : Graph := { nodes := [⟨"A", .state, "", 0.0, 0.0⟩] }
    Graph.relabel { nodes := [Node.ofMention ⟨"A", .state, ""⟩ 0.0 0.0] } 0 "" = .ok g ∧
      r.render (.all (g.nodes.map .node)) (.all []) = .ok "graph TD\n  A(())\n" ∧
      r.render (.value (.list (g.nodes.map Node.toValue))) (.all []) = .ok "graph TD\n  A((A))\n" ∧
      ∃ g', (Memory.save {} g).load = .ok (some g') ∧
        r.render (.all (g'.nodes.map .node)) (.all []) = .ok "graph TD\n  A((A))\n" := by
  refine ⟨by decide +kernel, by decide +kernel, by decide +kernel, { nodes := [⟨"A", .state, "A", 0.0, 0.0⟩] }, ?_⟩
  decide +kernel

end Store

end Flowchart
