import Flowchart.Proofs.Search
import Mathlib.Data.List.Perm.Subperm

/-!
# Back edges

The edges that are removed from a graph until it has no cycle are the edges that a single sweep of the graph
records (`backEdges_eq`), because the search after each removal repeats the sweep up to the next record. So
without them the graph has no cycle, and each of them alone brings one back.
-/

namespace Flowchart.Digraph

open Relation

variable {g : Digraph} {es fs : List (Text × Text)}

/-! ## Rounds -/

theorem exists_sweep (g : Digraph) : ∃ es, Sweep g.next [] g.nodes es :=
  Flowchart.exists_sweep g.successors [] g.nodes

theorem WellFormed.adj_of_sweep (hg : g.WellFormed) (h : Sweep g.next [] g.nodes es)
    {e : Text × Text} (he : e ∈ es) : g.Adj e.1 e.2 := h.mem_pending hg.nodup_next e he

/-- Removing the edge that is recorded first takes the sweep to its next record. -/
theorem WellFormed.sweep_removeEdge (hg : g.WellFormed) {u v : Text}
    (h : Sweep g.next [] g.nodes ((u, v) :: es)) :
    Sweep (g.removeEdge u v).next [] (g.removeEdge u v).nodes es := by
  rw [next_removeEdge, nodes_removeEdge (hg.adj_of_sweep h List.mem_cons_self)]
  exact h.without_first hg.nodup_next

theorem backEdgesUpTo_eq {bound : ℕ} (hg : g.WellFormed) (h : Sweep g.next [] g.nodes es)
    (hb : es.length ≤ bound) : g.backEdgesUpTo bound = es := by
  induction es generalizing g bound with
  | nil =>
    cases bound with
    | zero => rfl
    | succ bound =>
      unfold backEdgesUpTo
      rw [closingEdge?_eq_head? h]
      rfl
  | cons e es ih =>
    obtain ⟨u, v⟩ := e
    cases bound with
    | zero => exact absurd hb (by simp)
    | succ bound =>
      unfold backEdgesUpTo
      rw [closingEdge?_eq_head? h]
      have he := hg.adj_of_sweep h List.mem_cons_self
      exact congrArg ((u, v) :: ·)
        (ih (hg.removeEdge he) (hg.sweep_removeEdge h) (Nat.le_of_succ_le_succ hb))

/-- The back edges are what a sweep of the graph records. -/
theorem WellFormed.backEdges_eq (hg : g.WellFormed) (h : Sweep g.next [] g.nodes es) :
    g.backEdges = es := by
  have hsub : es ⊆ g.edges := fun e he => (mem_edges_iff hg.nodup_nodes).2 (hg.adj_of_sweep h he)
  exact backEdgesUpTo_eq hg h (List.subperm_of_subset (h.nodup hg.nodup_next) hsub).length_le

/-- After some rounds, the sweep of the graph that is left records the other edges. -/
theorem WellFormed.removeEdges (hg : g.WellFormed) (h : Sweep g.next [] g.nodes (es ++ fs)) :
    (g.removeEdges es).WellFormed ∧ (g.removeEdges es).nodes = g.nodes ∧
      Sweep (g.removeEdges es).next [] (g.removeEdges es).nodes fs ∧
      ∀ u v, (g.removeEdges es).Adj u v ↔ g.Adj u v ∧ (u, v) ∉ es := by
  induction es generalizing g with
  | nil => exact ⟨hg, rfl, h, fun u v => by simp [Digraph.removeEdges]⟩
  | cons e es ih =>
    obtain ⟨u, v⟩ := e
    have he := hg.adj_of_sweep h List.mem_cons_self
    obtain ⟨hwf, hnodes, hsweep, hadj⟩ := ih (hg.removeEdge he) (hg.sweep_removeEdge h)
    refine ⟨hwf, hnodes.trans (nodes_removeEdge he), hsweep, fun x w => ?_⟩
    refine (hadj x w).trans ?_
    rw [hg.adj_removeEdge, List.mem_cons, not_or, and_assoc]

/-! ## Cycles -/

theorem not_transGen_of_acc {R : Text → Text → Prop} {x : Text} (h : Acc (flip R) x) :
    ¬ TransGen R x x := by
  have htrans := h.transGen
  clear h
  induction htrans with
  | intro x _ ih => exact fun hx => ih x (transGen_swap.2 hx) hx

/-- If its sweep records nothing, a graph has no cycle. -/
theorem acyclic_of_sweep (hg : g.WellFormed) (h : Sweep g.next [] g.nodes []) : g.Acyclic := by
  intro v hv
  obtain ⟨w, hvw, -⟩ := TransGen.head'_iff.1 hv
  have hacc := h.accessible rfl hg.nodup_next List.nodup_nil (R := g.Adj) (fun _ _ hxw => Or.inl hxw)
  exact not_transGen_of_acc (hacc v hvw.source_mem) hv

/-- Each recorded edge closes a cycle of edges that are not recorded. -/
theorem reaches_back_of_sweep (hg : g.WellFormed) (h : Sweep g.next [] g.nodes es) :
    ∀ e ∈ es, ReflTransGen (fun u v => g.Adj u v ∧ (u, v) ∉ es) e.2 e.1 :=
  h.reaches_back hg.nodup_next (fun _ _ hw he => ⟨hw, he⟩) List.IsChain.nil

theorem not_acyclic_of_adj {u v : Text} (h : g.Adj u v) (hback : ReflTransGen g.Adj v u) :
    ¬ g.Acyclic := fun hg => hg u (TransGen.head' h hback)

/-- A graph has a cycle exactly if its sweep records an edge. -/
theorem acyclic_iff_of_sweep (hg : g.WellFormed) (h : Sweep g.next [] g.nodes es) :
    g.Acyclic ↔ es = [] := by
  constructor
  · intro hacyclic
    by_contra hne
    obtain ⟨e, he⟩ := List.exists_mem_of_ne_nil es hne
    have hback := ReflTransGen.mono (fun _ _ huv => huv.1) _ _ (reaches_back_of_sweep hg h e he)
    exact not_acyclic_of_adj (hg.adj_of_sweep h he) hback hacyclic
  · rintro rfl
    exact acyclic_of_sweep hg h

/-- A graph has back edges exactly if it has a cycle. -/
theorem WellFormed.backEdges_eq_nil_iff (hg : g.WellFormed) : g.backEdges = [] ↔ g.Acyclic := by
  obtain ⟨es, hsweep⟩ := exists_sweep g
  rw [hg.backEdges_eq hsweep]
  exact (acyclic_iff_of_sweep hg hsweep).symm

/-- The removed edges are edges of the graph, the rest of the graph has no cycle, nothing is removed from a
graph without cycles, and each removed edge closes a cycle in the rest. In every round before the last the
graph that is left has a cycle, and the search finds the edge to remove. -/
theorem backEdges_break_cycles (vs : List Text) (es : List (Text × Text)) :
    (ofEdges vs es).WellFormed ∧
    let g := ofEdges vs es
    let back := g.backEdges
    let rest := g.removeEdges back
    back.Nodup ∧ (∀ e ∈ back, e ∈ es) ∧
    rest.nodes = g.nodes ∧ (∀ u v, rest.Adj u v ↔ (u, v) ∈ es ∧ (u, v) ∉ back) ∧
    rest.Acyclic ∧ (back = [] ↔ g.Acyclic) ∧
    (∀ u v, (u, v) ∈ back → ReflTransGen rest.Adj v u ∧ ¬ (rest.addEdge u v).Acyclic) ∧
    ∀ n, (g.removeEdges (back.take n)).closingEdge? = back[n]? ∧
      ((g.removeEdges (back.take n)).Acyclic ↔ back.length ≤ n) := by
  have hg := wellFormed_ofEdges vs es
  refine ⟨hg, ?_⟩
  intro g back rest
  have hedge : ∀ u v, g.Adj u v ↔ (u, v) ∈ es := fun u v => adj_ofEdges
  obtain ⟨bs, hsweep⟩ := exists_sweep g
  obtain rfl : back = bs := hg.backEdges_eq hsweep
  have hall : Sweep g.next [] g.nodes (back ++ []) := by rwa [List.append_nil]
  obtain ⟨hwf, hnodes, hnone, hadj⟩ := hg.removeEdges hall
  have hreach : ∀ u v, (u, v) ∈ back → ReflTransGen rest.Adj v u := fun u v he =>
    ReflTransGen.mono (fun x w hxw => (hadj x w).2 hxw) _ _ (reaches_back_of_sweep hg hsweep (u, v) he)
  refine ⟨hsweep.nodup hg.nodup_next, fun e he => (hedge _ _).1 (hg.adj_of_sweep hsweep he), hnodes,
    fun u v => ?_, acyclic_of_sweep hwf hnone, (acyclic_iff_of_sweep hg hsweep).symm, fun u v he => ?_,
    fun n => ?_⟩
  · rw [hadj, hedge]
  · refine ⟨hreach u v he, not_acyclic_of_adj (adj_addEdge.2 (Or.inr rfl)) ?_⟩
    exact ReflTransGen.mono (fun _ _ hxw => adj_addEdge.2 (Or.inl hxw)) _ _ (hreach u v he)
  · have hn : Sweep g.next [] g.nodes (back.take n ++ back.drop n) := by rwa [List.take_append_drop]
    obtain ⟨hwf, -, hleft, -⟩ := hg.removeEdges hn
    rw [closingEdge?_eq_head? hleft, acyclic_iff_of_sweep hwf hleft, List.head?_drop,
      List.drop_eq_nil_iff]
    exact ⟨rfl, Iff.rfl⟩

end Flowchart.Digraph
