import Flowchart.Proofs.Bands
import Flowchart.Proofs.Parsing
import Flowchart.Proofs.Positions

/-!
# Parsing goes through

Parsing asks for the depth of every node, for its cell, and for its position by id. Every text gives a graph whose
nodes have all of them, so that nothing can be missing: a text is parsed unless a coordinate lies beyond the range
of floats (`Session.parse_wellFormed`).
-/

namespace Flowchart

/-- The nodes of a graph have different ids, and ids and labels that can be read in a line; its edges have
different ids and end at nodes. -/
structure Graph.WellFormed (g : Graph) : Prop where
  nodup : g.nodeIds.Nodup
  node : ∀ n ∈ g.nodes, n.id ≠ "" ∧ Legible n.id ∧ n.label ≠ "" ∧ Legible n.label
  ends : ∀ e ∈ g.edges, e.source ∈ g.nodeIds ∧ e.target ∈ g.nodeIds
  nodup_edges : (g.edges.map Edge.id).Nodup

/-! ## The graph of a text -/

theorem nodup_order_ofText (t : Text) : (Blueprint.ofText t).order.Nodup := by
  obtain ⟨b, hb, hbt⟩ := consistent_ofText t
  rw [hbt]
  exact hb.nodup

theorem ids_successors_ofText (t : Text) :
    (Blueprint.ofText t).successors.ids = (Blueprint.ofText t).order := by
  obtain ⟨b, -, hbt⟩ := consistent_ofText t
  rw [hbt]
  exact Builder.ids_blueprint b

/-- The graph of a text can be laid out, and its nodes have places. -/
theorem exists_layout (layering : Layering) (t : Text) :
    ∃ l, Layout.ofAdjacency layering (Blueprint.ofText t).order (Blueprint.ofText t).successors = .ok l ∧
      l.placements.ids.Perm (Blueprint.ofText t).order := by
  obtain ⟨_, _, _, -, -, hl, hcovers⟩ := Layout.ofAdjacency_eq layering (nodup_order_ofText t)
    fun id hid => (ids_successors_ofText t) ▸ hid
  exact ⟨_, hl, hcovers.ids⟩

/-- In the layout of the graph of a text, every node has a place, and the places follow each other band by band. -/
theorem covers_of_layout {layering : Layering} {t : Text} {l : Layout}
    (h : Layout.ofAdjacency layering (Blueprint.ofText t).order (Blueprint.ofText t).successors = .ok l) :
    l.Covers (Blueprint.ofText t).order ∧ l.placements = Layout.places l.bands := by
  have hids : ∀ id ∈ (Blueprint.ofText t).successors.ids, id ∈ (Blueprint.ofText t).order :=
    fun id hid => (ids_successors_ofText t) ▸ hid
  obtain ⟨_, _, _, -, -, hl, hcovers⟩ := Layout.ofAdjacency_eq layering (nodup_order_ofText t) hids
  rw [← Except.ok.inj (hl.symm.trans h)]
  exact ⟨hcovers, Layout.placements_ofDepths _ _ _⟩

/-- Nodes whose positions are known can be placed. -/
theorem placeNodes_eq {nodes : Entries Mention} {points : Entries (Float × Float)}
    (h : ∀ e ∈ nodes, e.2.id ∈ points.ids) : ∃ ns, Session.placeNodes nodes points = .ok ns := by
  have hget : ∀ e ∈ nodes, points.get? e.2.id = some ((points.get? e.2.id).getD (0.0, 0.0)) := by
    intro e he
    obtain ⟨point, hpoint⟩ := Entries.exists_get? (h e he)
    rw [hpoint]
    rfl
  refine ⟨nodes.map fun e => Node.ofMention e.2 ((points.get? e.2.id).getD (0.0, 0.0)).1
    ((points.get? e.2.id).getD (0.0, 0.0)).2, mapM_eq_ok fun e he => ?_⟩
  obtain ⟨id, m⟩ := e
  dsimp only
  rw [hget _ he]
  rfl

namespace Session

/-- No coordinate of the nodes of a text lies beyond the range of floats. -/
def Fits (s : Session) (t : Text) : Prop :=
  ∀ l, Layout.ofAdjacency s.layering (Blueprint.ofText t).order (Blueprint.ofText t).successors = .ok l →
    ∀ e ∈ l.placements, s.grid.InRange (.int e.2.depth) (.int e.2.column)

/-- A text is parsed exactly if its coordinates are within range. -/
theorem parse_settled (s : Session) (t : Text) (d : Bool) :
    (s.Fits t → ∃ g, (s.parse t d).1 = .ok g) ∧
      (¬ s.Fits t → (s.parse t d).1 = .error (.value .tooLarge)) := by
  obtain ⟨l, hl, hids⟩ := exists_layout s.layering t
  have hfits : s.Fits t ↔ ∀ e ∈ l.placements, s.grid.InRange (.int e.2.depth) (.int e.2.column) := by
    refine ⟨fun h => h l hl, fun h l' hl' => ?_⟩
    obtain rfl := Except.ok.inj (hl.symm.trans hl')
    exact h
  have hsettled := Position.Grid.settled_positionsOf s.grid l s.random
  rw [← hfits] at hsettled
  unfold Blueprint.ofText at hl
  unfold Session.parse
  simp only [hl]
  constructor
  · intro h
    obtain ⟨points, hpoints, hpids⟩ := hsettled.1 h
    rcases hrun : (s.grid.positionsOf l).run s.random with ⟨r, random⟩
    obtain rfl : r = .ok points := by rw [hrun] at hpoints; exact hpoints
    have hnodes : ∀ e ∈ (Blueprint.ofText t).nodes, e.2.id ∈ points.ids := fun e he => by
      rw [hpids, hids.mem_iff, ← (mem_nodes_ofText he).1]
      exact List.mem_map_of_mem he
    obtain ⟨ns, hns⟩ := placeNodes_eq hnodes
    unfold Blueprint.ofText at hns
    simp only [hns]
    exact ⟨_, rfl⟩
  · intro h
    have herror := hsettled.2 h
    rcases hrun : (s.grid.positionsOf l).run s.random with ⟨r, random⟩
    obtain rfl : r = .error .tooLarge := by rw [hrun] at herror; exact herror
    rfl

theorem fits_of_parse {s : Session} {t : Text} {d : Bool} (h : (s.parse t d).1.toOption.isSome = true) :
    s.Fits t := by
  by_contra hno
  rw [(parse_settled s t d).2 hno] at h
  cases h

/-- Every text whose coordinates are within range is parsed, whatever the layering, the grid and the state of the
session are. The result is a well-formed graph, which has the nodes and the edges of the lines in their order.
Nothing else can go wrong than that a coordinate is out of range. -/
theorem parse_wellFormed (s : Session) (t : Text) (d : Bool) :
    (s.Fits t → ∃ g, (s.parse t d).1 = .ok g ∧
      g.mentions = (Blueprint.ofLines (Line.ofText t)).nodes ∧
      g.edges = (Blueprint.ofLines (Line.ofText t)).edges ∧ g.WellFormed) ∧
    (¬ s.Fits t → (s.parse t d).1 = .error (.value .tooLarge)) := by
  refine ⟨fun hfits => ?_, (parse_settled s t d).2⟩
  obtain ⟨g, hg⟩ := (parse_settled s t d).1 hfits
  obtain ⟨hnodes, hedges⟩ := structure_of_parse hg
  obtain ⟨b, hb, hbt⟩ := consistent_ofText t
  refine ⟨g, hg, hnodes, hedges, nodup_ids_of_parse hg, fun n hn => ?_, fun e he => ?_, ?_⟩
  · have hm := mention_legible_of_parse hg hn
    exact ⟨hm.id_ne, hm.id, hm.label_ne, hm.label⟩
  · exact ends_of_parse hg (List.mem_map_of_mem he)
  · rw [hedges, hbt]
    exact hb.nodup_edge_ids

/-- A cycle, a connection that lacks an end, and random offsets. -/
theorem parse_wellFormed_cycle :
    let s : Session := ⟨.longestPath, {}, "graph TD", .ofSeed 7, none⟩
    let t := "A[Do] --> |yes| B\x7bOk?\x7d\nB --> A\n--> C"
    s.Fits t ∧ ∃ g, (s.parse t false).1 = .ok g ∧
      g.mentions = (Blueprint.ofLines (Line.ofText t)).nodes ∧
      g.edges = (Blueprint.ofLines (Line.ofText t)).edges ∧ g.WellFormed := by
  intro s t
  have hfits : s.Fits t := fits_of_parse (d := false) (by decide +kernel)
  exact ⟨hfits, (parse_wellFormed s t false).1 hfits⟩

end Session

end Flowchart
