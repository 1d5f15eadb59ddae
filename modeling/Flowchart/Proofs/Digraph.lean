import Flowchart.Proofs.Entries
import Mathlib.Data.List.Nodup
import Mathlib.Logic.Function.Basic
import Mathlib.Logic.Relation
import Mathlib.Tactic.Common

/-!
# Graphs and their changes

Adding and removing an edge changes the successors of one node. Every graph that is made of nodes and edges is
`WellFormed`: nodes and successors are listed once, and edges end at nodes.
-/

namespace Flowchart

open Function Relation

theorem Entries.get?_append {α : Type} (es fs : Entries α) (id : Text) :
    (es ++ fs).get? id = (es.get? id).or (fs.get? id) := List.lookup_append

theorem Entries.successorsOf_set (pending : Entries (List Text)) (u : Text) (vs : List Text) :
    (pending.set u vs).successorsOf = update pending.successorsOf u vs := by
  funext x
  unfold successorsOf
  rw [get?_set]
  by_cases hx : x = u
  · rw [hx, if_pos rfl, update_self]
    rfl
  · rw [if_neg hx, update_of_ne hx]

namespace Digraph

/-- There is an edge from `u` to `v`. -/
def Adj (g : Digraph) (u v : Text) : Prop := v ∈ g.next u

/-- No node can be reached from itself along edges. -/
def Acyclic (g : Digraph) : Prop := ∀ v, ¬ TransGen g.Adj v v

/-- Every node and every edge is listed once, and both ends of an edge are nodes. -/
structure WellFormed (g : Digraph) : Prop where
  nodup_nodes : g.nodes.Nodup
  nodup_next : ∀ u, (g.next u).Nodup
  target_mem : ∀ u v, g.Adj u v → v ∈ g.nodes

variable {g : Digraph} {u v : Text}

theorem Adj.source_mem (h : g.Adj u v) : u ∈ g.nodes := Entries.Adj.source_mem h

theorem mem_edges_iff (h : g.nodes.Nodup) : (u, v) ∈ g.edges ↔ g.Adj u v := by
  obtain ⟨es⟩ := g
  unfold Adj next edges Entries.successorsOf
  unfold nodes at h
  dsimp only at h ⊢
  induction es with
  | nil => simp
  | cons e es ih =>
    obtain ⟨x, ws⟩ := e
    rw [Entries.ids_cons, List.nodup_cons] at h
    rw [List.flatMap_cons, List.mem_append, ih h.2, Entries.get?_cons]
    by_cases hx : u = x
    · subst hx
      have hnone : Entries.get? es u = none := by
        rw [← Option.not_isSome_iff_eq_none, Entries.isSome_get?_iff]
        exact h.1
      simp [hnone]
    · simp [hx, Ne.symm hx]

/-! ## Adding -/

theorem nodes_addNode (g : Digraph) (v : Text) :
    (g.addNode v).nodes = if v ∈ g.nodes then g.nodes else g.nodes ++ [v] :=
  Entries.ids_add g.successors v []

theorem next_addNode (g : Digraph) (v : Text) : (g.addNode v).next = g.next := by
  funext x
  unfold addNode next Entries.successorsOf Entries.add
  split_ifs with hv
  · rfl
  · rw [Entries.get?_append, Entries.get?_cons]
    cases g.successors.get? x <;> by_cases hx : x = v <;> simp [hx]

theorem mem_addNode (g : Digraph) (v : Text) : v ∈ (g.addNode v).nodes := by
  rw [nodes_addNode]
  split_ifs with hv
  · exact hv
  · simp

theorem subset_addNode (g : Digraph) (v : Text) : g.nodes ⊆ (g.addNode v).nodes := by
  rw [nodes_addNode]
  split_ifs
  · exact List.Subset.refl _
  · exact List.subset_append_left _ _

theorem WellFormed.addNode (h : g.WellFormed) (v : Text) : (g.addNode v).WellFormed where
  nodup_nodes := by
    rw [nodes_addNode]
    split_ifs with hv
    · exact h.nodup_nodes
    · exact h.nodup_nodes.append (List.nodup_singleton v) (by simpa using hv)
  nodup_next u := by
    rw [next_addNode]
    exact h.nodup_next u
  target_mem x w hw := by
    unfold Adj at hw
    rw [next_addNode] at hw
    exact subset_addNode g v (h.target_mem x w hw)

theorem nodes_set (g : Digraph) {u : Text} (hu : u ∈ g.nodes) (vs : List Text) :
    (Digraph.mk (g.successors.set u vs)).nodes = g.nodes := by
  unfold nodes
  rw [Entries.ids_set]
  exact if_pos hu

theorem next_set (g : Digraph) (u : Text) (vs : List Text) :
    (Digraph.mk (g.successors.set u vs)).next = update g.next u vs :=
  Entries.successorsOf_set g.successors u vs

theorem nodes_addEdge (g : Digraph) (u v : Text) :
    (g.addEdge u v).nodes = ((g.addNode u).addNode v).nodes := by
  unfold addEdge
  dsimp only
  split_ifs
  · rfl
  · exact nodes_set _ (subset_addNode _ v (mem_addNode g u)) _

theorem next_addEdge (g : Digraph) (u v : Text) :
    (g.addEdge u v).next =
      if v ∈ g.next u then g.next else update g.next u (g.next u ++ [v]) := by
  unfold addEdge
  dsimp only
  have hnext : ((g.addNode u).addNode v).next = g.next := by rw [next_addNode, next_addNode]
  split_ifs with h₁ h₂ h₂
  · exact hnext
  · rw [hnext] at h₁
    exact absurd (by simpa using h₁) h₂
  · rw [hnext] at h₁
    exact absurd h₂ (by simpa using h₁)
  · rw [next_set, hnext]

theorem adj_addEdge {x w : Text} : (g.addEdge u v).Adj x w ↔ g.Adj x w ∨ (x, w) = (u, v) := by
  unfold Adj
  rw [next_addEdge, Prod.mk.injEq]
  split_ifs with hv
  · refine ⟨Or.inl, fun h => h.elim id ?_⟩
    rintro ⟨rfl, rfl⟩
    exact hv
  · by_cases hx : x = u
    · subst hx
      simp
    · rw [update_of_ne hx]
      simp [hx]

theorem WellFormed.addEdge (h : g.WellFormed) (u v : Text) : (g.addEdge u v).WellFormed where
  nodup_nodes := by
    rw [nodes_addEdge]
    exact ((h.addNode u).addNode v).nodup_nodes
  nodup_next x := by
    rw [next_addEdge]
    split_ifs with hv
    · exact h.nodup_next x
    · by_cases hx : x = u
      · rw [hx, update_self]
        exact (h.nodup_next u).append (List.nodup_singleton v) (by simpa using hv)
      · rw [update_of_ne hx]
        exact h.nodup_next x
  target_mem x w hw := by
    rw [nodes_addEdge]
    rcases adj_addEdge.1 hw with hw | hw
    · exact subset_addNode _ v (subset_addNode g u (h.target_mem x w hw))
    · obtain ⟨-, rfl⟩ := Prod.mk.inj hw
      exact mem_addNode _ w

/-! ## Removing -/

theorem next_removeEdge (g : Digraph) (u v : Text) :
    (g.removeEdge u v).next = update g.next u ((g.next u).erase v) := next_set g u _

theorem nodes_removeEdge (h : g.Adj u v) : (g.removeEdge u v).nodes = g.nodes :=
  nodes_set g h.source_mem _

theorem WellFormed.adj_removeEdge (h : g.WellFormed) {x w : Text} :
    (g.removeEdge u v).Adj x w ↔ g.Adj x w ∧ (x, w) ≠ (u, v) := by
  unfold Adj
  rw [next_removeEdge, ne_eq, Prod.mk.injEq]
  by_cases hx : x = u
  · rw [hx, update_self, (h.nodup_next u).mem_erase_iff]
    tauto
  · rw [update_of_ne hx]
    tauto

theorem WellFormed.removeEdge (h : g.WellFormed) (he : g.Adj u v) : (g.removeEdge u v).WellFormed where
  nodup_nodes := by
    rw [nodes_removeEdge he]
    exact h.nodup_nodes
  nodup_next x := by
    rw [next_removeEdge]
    by_cases hx : x = u
    · rw [hx, update_self]
      exact (h.nodup_next u).erase v
    · rw [update_of_ne hx]
      exact h.nodup_next x
  target_mem x w hw := by
    rw [nodes_removeEdge he]
    exact h.target_mem x w (h.adj_removeEdge.1 hw).1

/-! ## Graphs of nodes and edges -/

theorem wellFormed_ofEdges (vs : List Text) (es : List (Text × Text)) :
    (ofEdges vs es).WellFormed := by
  have hempty : WellFormed {} := ⟨List.nodup_nil, fun _ => List.nodup_nil, fun _ _ h => nomatch h⟩
  have hnodes : ∀ g : Digraph, g.WellFormed → (vs.foldl Digraph.addNode g).WellFormed := by
    induction vs with
    | nil => exact fun _ h => h
    | cons v vs ih => exact fun g h => ih _ (h.addNode v)
  have hedges : ∀ g : Digraph, g.WellFormed →
      (es.foldl (fun g e => g.addEdge e.1 e.2) g).WellFormed := by
    induction es with
    | nil => exact fun _ h => h
    | cons e es ih => exact fun g h => ih _ (h.addEdge e.1 e.2)
  exact hedges _ (hnodes _ hempty)

theorem adj_ofEdges {vs : List Text} {es : List (Text × Text)} :
    (ofEdges vs es).Adj u v ↔ (u, v) ∈ es := by
  have hnodes : ∀ g : Digraph, (vs.foldl Digraph.addNode g).next = g.next := by
    induction vs with
    | nil => exact fun _ => rfl
    | cons w vs ih => exact fun g => (ih _).trans (next_addNode g w)
  have hedges : ∀ g : Digraph,
      (es.foldl (fun g e => g.addEdge e.1 e.2) g).Adj u v ↔ g.Adj u v ∨ (u, v) ∈ es := by
    induction es with
    | nil => simp
    | cons e es ih =>
      intro g
      rw [List.foldl_cons, ih, adj_addEdge, List.mem_cons, or_assoc]
  refine (hedges _).trans ?_
  unfold Adj
  rw [hnodes]
  exact or_iff_right (fun h => nomatch h)

end Digraph

end Flowchart
