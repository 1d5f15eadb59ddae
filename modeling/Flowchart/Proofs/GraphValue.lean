import Flowchart.Draft
import Flowchart.Proofs.Outcome
import Flowchart.Proofs.Value.Plain

/-!
# Graphs as values

A graph is read from its own table whatever rule for keys applies (`Graph.read_toValue`). What comes back is the
graph in its normal form: each node that has no label is labelled with its id, each edge that has no id has a
derived one, and an empty viewport is gone.
-/

namespace Flowchart

deriving instance DecidableEq for Node

deriving instance DecidableEq for Graph

theorem Value.presentText_text (s : Text) : (Value.text s).presentText = s := by
  unfold Value.presentText Value.isPresent
  by_cases h : s = ""
  · simp [h]
  · simp [h]

/-! ## Nodes and edges -/

/-- A node as it is read from its own table. -/
def Node.restored (n : Node) : Node := ofMention n.mention n.x n.y

/-- The edge at a place of a graph as it is read from its own table. -/
def Edge.restored (place : Text) (e : Edge) : Edge :=
  { e with id := if e.id = "" then derivedId place e.source e.target else e.id }

/-- The entries of the table of a node. -/
theorem Node.entries_toValue (n : Node) :
    labelOf n.toValue = .ok (.text n.label) ∧
      n.toValue.lookup "position" .null = .ok (.table [(.text "x", .float n.x), (.text "y", .float n.y)]) ∧
      n.toValue.entry "id" = .ok (.text n.id) ∧ n.toValue.lookup "type" .null = .ok (.text n.shape.name) :=
  ⟨rfl, rfl, rfl, rfl⟩

theorem Node.ofValue_toValue (n : Node) : Node.ofValue n.toValue = .ok n.restored := by
  obtain ⟨hlabel, hposition, hid, hshape⟩ := n.entries_toValue
  unfold Node.ofValue
  rw [hlabel, ok_bind, hposition, ok_bind]
  dsimp only
  rw [hid, ok_bind, hshape, ok_bind]
  show Except.ok (ofMention ⟨n.id, .ofValue (.text n.shape.name), (Value.text n.label).presentText⟩ n.x n.y) = _
  rw [Shape.ofValue_name, Value.presentText_text]
  rfl

theorem Edge.ofValue_toValue (place : Text) (e : Edge) :
    Edge.ofValue place e.toValue = .ok (e.restored place) := by
  show Except.ok (Edge.mk (if (Value.text e.id).isPresent then e.id else derivedId place e.source e.target)
    e.source e.target (Value.text e.label).presentText) = _
  rw [Value.presentText_text]
  unfold Edge.restored Value.isPresent
  by_cases h : e.id = ""
  · simp [h]
  · simp [h]

theorem Shape.isJoined_name (s : Shape) : Text.isJoined s.name.toList = true := by
  cases s <;> rfl

/-- The table of a node is plain if its id and label are joined. -/
theorem Node.isPlain_toValue (n : Node) (hid : Text.isJoined n.id.toList = true)
    (hlabel : Text.isJoined n.label.toList = true) : n.toValue.isPlain = true :=
  Value.Table.isPlain_cons.2 ⟨_, rfl, rfl, rfl, hid,
    Value.Table.isPlain_cons.2 ⟨_, rfl, rfl, rfl, n.shape.isJoined_name,
      Value.Table.isPlain_cons.2 ⟨_, rfl, rfl, rfl, hlabel, rfl⟩⟩⟩

/-- The table of an edge is plain if its texts are joined. -/
theorem Edge.isPlain_toValue (e : Edge)
    (h : ∀ s ∈ [e.id, e.source, e.target, e.label], Text.isJoined s.toList = true) : e.toValue.isPlain = true := by
  simp only [List.forall_mem_cons] at h
  obtain ⟨hid, hsource, htarget, hlabel, -⟩ := h
  exact Value.Table.isPlain_cons.2 ⟨_, rfl, rfl, rfl, hid, Value.Table.isPlain_cons.2 ⟨_, rfl, rfl, rfl, hsource,
    Value.Table.isPlain_cons.2 ⟨_, rfl, rfl, rfl, htarget,
      Value.Table.isPlain_cons.2 ⟨_, rfl, rfl, rfl, hlabel, rfl⟩⟩⟩⟩

/-! ## Graphs -/

namespace Graph

/-- The table of a graph is that of its draft. -/
theorem toValue_draft (g : Graph) : g.draft.toValue = .ok g.toValue := by
  have hnodes : g.draft.nodes.map NodeDraft.toValue = g.nodes.map Node.toValue := List.map_map
  have hedges : g.draft.edges.map EdgeDraft.toValue = g.edges.map Edge.toValue := List.map_map
  unfold GraphDraft.toValue toValue
  rw [hnodes, hedges]
  unfold draft
  cases g.viewport <;> rfl

/-- Edges as they are read from their own tables, the first of them at place `place`. -/
def restoredEdges (place : Nat) : List Edge → List Edge
  | [] => []
  | e :: es => e.restored (toString place) :: restoredEdges (place + 1) es

/-- A graph as it is read from its own table. -/
def restored (g : Graph) : Graph where
  nodes := g.nodes.map Node.restored
  edges := restoredEdges 0 g.edges
  viewport := g.viewport.filter (! ·.isEmpty)

theorem edgesOf_toValue (place : Nat) (es : List Edge) :
    edgesOf place (es.map Edge.toValue) = .ok (restoredEdges place es) := by
  induction es generalizing place with
  | nil => rfl
  | cons e es ih =>
    rw [List.map_cons, edgesOf, Edge.ofValue_toValue, ok_bind, ih, ok_bind]
    rfl

/-- The items of an entry that is a list are the items of the list. -/
theorem itemsUnder_list {name : Text} {v : Value} {items : List Value}
    (h : v.lookup name .null = .ok (.list items)) : itemsUnder name v = .ok items := by
  unfold itemsUnder
  rw [h, ok_bind]
  cases items with
  | nil => rfl
  | cons v vs => rfl

theorem viewportOf_toValue (same : Value.KeyRule) (g : Graph) :
    viewportOf same g.toValue = .ok (g.viewport.filter (! ·.isEmpty)) := by
  unfold viewportOf toValue
  cases hview : g.viewport with
  | none => rfl
  | some t => cases t <;> rfl

/-- A graph is read from its own table, in its normal form, whatever rule for keys applies. -/
theorem read_toValue (same : Value.KeyRule) (g : Graph) : read same g.toValue = .ok g.restored := by
  have hnodes : itemsUnder "nodes" g.toValue = .ok (g.nodes.map Node.toValue) := itemsUnder_list rfl
  have hedges : itemsUnder "edges" g.toValue = .ok (g.edges.map Edge.toValue) := itemsUnder_list rfl
  have hread : (g.nodes.map Node.toValue).mapM Node.ofValue = .ok (g.nodes.map Node.restored) := by
    rw [List.mapM_map]
    exact mapM_eq_ok fun n _ => n.ofValue_toValue
  unfold read
  rw [hnodes, ok_bind, hread, ok_bind, hedges, ok_bind, edgesOf_toValue, ok_bind, viewportOf_toValue, ok_bind]
  rfl

/-- The texts in the nodes and edges of a graph. -/
def texts (g : Graph) : List Text :=
  (g.nodes.flatMap fun n => [n.id, n.label]) ++ g.edges.flatMap fun e => [e.id, e.source, e.target, e.label]

/-- The table of a graph is plain if its viewport is, and the texts in its nodes and edges are joined. -/
theorem isPlain_toValue {g : Graph} (htexts : ∀ s ∈ g.texts, Text.isJoined s.toList = true)
    (h : ∀ t ∈ g.viewport, Value.Table.isPlain t = true) : g.toValue.isPlain = true := by
  have hnodes : (Value.list (g.nodes.map Node.toValue)).isPlain = true := by
    refine Value.isPlain_list.2 (List.forall_mem_map.2 fun n hn => ?_)
    have hmem : ∀ s ∈ [n.id, n.label], s ∈ g.texts := fun s hs =>
      List.mem_append_left _ (List.mem_flatMap.2 ⟨n, hn, hs⟩)
    exact n.isPlain_toValue (htexts _ (hmem _ (by simp))) (htexts _ (hmem _ (by simp)))
  have hedges : (Value.list (g.edges.map Edge.toValue)).isPlain = true := by
    refine Value.isPlain_list.2 (List.forall_mem_map.2 fun e he => ?_)
    have hmem : ∀ s ∈ [e.id, e.source, e.target, e.label], s ∈ g.texts := fun s hs =>
      List.mem_append_right _ (List.mem_flatMap.2 ⟨e, he, hs⟩)
    exact e.isPlain_toValue fun s hs => htexts s (hmem s hs)
  unfold toValue
  cases hview : g.viewport with
  | none =>
    exact Value.Table.isPlain_cons.2 ⟨_, rfl, rfl, rfl, hnodes,
      Value.Table.isPlain_cons.2 ⟨_, rfl, rfl, rfl, hedges, rfl⟩⟩
  | some t =>
    have hlast : Value.Table.isPlain [(.text "viewport", .table t)] = true :=
      Value.Table.isPlain_cons.2 ⟨_, rfl, rfl, rfl, h t hview, rfl⟩
    exact Value.Table.isPlain_cons.2 ⟨_, rfl, rfl, rfl, hnodes,
      Value.Table.isPlain_cons.2 ⟨_, rfl, rfl, rfl, hedges, hlast⟩⟩

end Graph

end Flowchart
