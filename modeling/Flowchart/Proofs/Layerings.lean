import Flowchart.Proofs.LongestPath
import Flowchart.Proofs.VisitForest

/-!
# The two ways of layering

The depth of a node by first visit is the length of some path to it, its depth by longest path that of a longest
one. So on a graph without cycles, layering by longest path only moves nodes down (`firstVisitDepths_le`).

In a forest that is written from the roots down, every node but the roots has one predecessor, which comes before it.
There a first visit comes along the only path from a root, which is a longest one, so both ways of layering agree
(`firstVisitDepths_eq_of_forest`).
-/

namespace Flowchart.Layout

open Relation

variable {order : List Text} {adjacency : Entries (List Text)}

theorem pathTo_of_firstVisitDepths {v : Text} {d : ℕ}
    (h : (firstVisitDepths order adjacency).get? v = some d) : PathTo adjacency.Adj d v := by
  induction d generalizing v with
  | zero => exact .start v
  | succ d ih =>
    obtain ⟨u, huv, hu⟩ := (firstVisitDepths_spec order adjacency).2 v d h
    exact .step (ih hu) huv

/-- If all edges start in `order`, those of the graph are those of the adjacency. -/
theorem adj_ofAdjacency_iff (h : ∀ u ∈ adjacency.ids, u ∈ order) (u v : Text) :
    (Digraph.ofAdjacency order adjacency).Adj u v ↔ adjacency.Adj u v :=
  Digraph.adj_ofAdjacency.trans (and_iff_right_of_imp fun huv => h u (Entries.Adj.source_mem huv))

/-- Along edges without a cycle no edge is left out, and each depth by longest path is the length of a longest
path to the node. -/
theorem longestPathDepths_of_acyclic (hids : ∀ u ∈ adjacency.ids, u ∈ order)
    (hacyclic : ∀ v, ¬ TransGen adjacency.Adj v v) :
    ∃ depths, longestPathDepths order adjacency = .ok (depths, []) ∧
      ∀ v ∈ order, ∃ d, depths.get? v = some d ∧ LongestTo adjacency.Adj v d := by
  have hadj := adj_ofAdjacency_iff hids
  have hg : (Digraph.ofAdjacency order adjacency).WellFormed := Digraph.wellFormed_ofEdges _ _
  have hnone : (Digraph.ofAdjacency order adjacency).backEdges = [] := by
    refine hg.backEdges_eq_nil_iff.2 fun v hv => hacyclic v ?_
    exact TransGen.mono (fun u w huw => (hadj u w).1 huw) _ _ hv
  obtain ⟨depths, hdepths, hmeasured, -⟩ := longestPathDepths_eq order adjacency
  rw [hnone] at hdepths hmeasured
  refine ⟨depths, hdepths, fun v hv => ?_⟩
  obtain ⟨d, hd⟩ := Entries.exists_get? ((hmeasured.mem_iff v).2 (Digraph.mem_nodes_ofAdjacency.2 (Or.inl hv)))
  exact ⟨d, hd, (hmeasured.longest v d hd).congr hadj⟩

/-- Edges that only lead to greater ranks close no cycle. -/
theorem not_transGen_of_lt (rank : Text → ℕ) (h : ∀ u v, adjacency.Adj u v → rank u < rank v) (v : Text) :
    ¬ TransGen adjacency.Adj v v := by
  have hlt : ∀ w, TransGen adjacency.Adj v w → rank v < rank w := by
    intro w hw
    induction hw with
    | single huv => exact h _ _ huv
    | tail _ huv ih => exact ih.trans (h _ _ huv)
  exact fun hv => lt_irrefl _ (hlt v hv)

/-- On a graph without cycles, layering by longest path leaves no edge out and puts no node above its depth by first
visit. -/
theorem firstVisitDepths_le (order : List Text) (adjacency : Entries (List Text))
    (hids : ∀ u ∈ adjacency.ids, u ∈ order) (hacyclic : ∀ v, ¬ TransGen adjacency.Adj v v) :
    ∃ depths, longestPathDepths order adjacency = .ok (depths, []) ∧
      ∀ v ∈ order, ∃ d d', (firstVisitDepths order adjacency).get? v = some d ∧ depths.get? v = some d' ∧
        d ≤ d' := by
  obtain ⟨depths, hdepths, hlongest⟩ := longestPathDepths_of_acyclic hids hacyclic
  refine ⟨depths, hdepths, fun v hv => ?_⟩
  obtain ⟨d, hd⟩ := (firstVisitDepths_spec order adjacency).1 v hv
  obtain ⟨d', hd', hgreatest⟩ := hlongest v hv
  exact ⟨d, d', hd, hd', hgreatest.2 (pathTo_of_firstVisitDepths hd)⟩

/-- A node that comes before its predecessors, and a repeated edge. -/
theorem firstVisitDepths_le_late :
    let order : List Text := ["C", "A", "B"]
    let adjacency : Entries (List Text) := [("A", ["B", "C", "C"]), ("B", ["C"])]
    (∀ u ∈ adjacency.ids, u ∈ order) ∧ (∀ v, ¬ TransGen adjacency.Adj v v) ∧
    ∃ depths, longestPathDepths order adjacency = .ok (depths, []) ∧
      ∀ v ∈ order, ∃ d d', (firstVisitDepths order adjacency).get? v = some d ∧ depths.get? v = some d' ∧
        d ≤ d' := by
  intro order adjacency
  have hids : ∀ u ∈ adjacency.ids, u ∈ order := by decide
  have hacyclic : ∀ v, ¬ TransGen adjacency.Adj v v := by
    let sorted : List Text := ["A", "B", "C"]
    refine not_transGen_of_lt sorted.idxOf fun u v huv => ?_
    obtain ⟨vs, hu, hv⟩ := huv.exists_get?
    have hall : ∀ e ∈ adjacency, ∀ w ∈ e.2, sorted.idxOf e.1 < sorted.idxOf w := by decide
    exact hall (u, vs) (Entries.mem_of_get? hu) v hv
  exact ⟨hids, hacyclic, firstVisitDepths_le _ _ hids hacyclic⟩

/-! ## Forests -/

/-- A node with a predecessor that comes before it is no root of the first visits. -/
theorem firstVisitDepths_ne_zero {u v : Text} (hv : v ∈ order) (huv : adjacency.Adj u v)
    (hlt : order.idxOf u < order.idxOf v) : (firstVisitDepths order adjacency).get? v ≠ some 0 := by
  obtain ⟨before, after, rfl, hnot⟩ := List.eq_append_cons_of_mem hv
  rw [ne_eq, firstVisitDepths_eq_zero_iff hnot]
  exact fun hroot => hroot u ((mem_iff_idxOf_lt hnot).2 hlt) (.single huv)

section Forest

variable (hunique : ∀ u u' v, adjacency.Adj u v → adjacency.Adj u' v → u = u')
  (hbefore : ∀ u v, adjacency.Adj u v → order.idxOf u < order.idxOf v)

include hunique hbefore

/-- No path to a node is longer than its depth by first visit: both go through the only predecessor. -/
theorem le_of_pathTo_of_forest {n d : ℕ} {v : Text} (h : PathTo adjacency.Adj n v) (hv : v ∈ order)
    (hd : (firstVisitDepths order adjacency).get? v = some d) : n ≤ d := by
  induction h generalizing d with
  | start v => exact Nat.zero_le d
  | @step n u v _ huv ih =>
    have hlt := hbefore u v huv
    cases d with
    | zero => exact absurd hd (firstVisitDepths_ne_zero hv huv hlt)
    | succ d =>
      obtain ⟨u', hu'v, hu'⟩ := (firstVisitDepths_spec order adjacency).2 v d hd
      obtain rfl := hunique u u' v huv hu'v
      have hu : u ∈ order := List.idxOf_lt_length_iff.1 (hlt.trans_le List.idxOf_le_length)
      exact Nat.succ_le_succ (ih hu hu')

theorem longestTo_of_forest {d : ℕ} {v : Text} (hv : v ∈ order)
    (hd : (firstVisitDepths order adjacency).get? v = some d) : LongestTo adjacency.Adj v d :=
  ⟨pathTo_of_firstVisitDepths hd, fun _ hn => le_of_pathTo_of_forest hunique hbefore hn hv hd⟩

end Forest

/-- If no node has two predecessors, and each predecessor comes before the node, then no edge closes a cycle and both
ways of layering give every node the same depth. -/
theorem firstVisitDepths_eq_of_forest (order : List Text) (adjacency : Entries (List Text))
    (hids : ∀ u ∈ adjacency.ids, u ∈ order)
    (hunique : ∀ u u' v, adjacency.Adj u v → adjacency.Adj u' v → u = u')
    (hbefore : ∀ u v, adjacency.Adj u v → order.idxOf u < order.idxOf v) :
    ∃ depths, longestPathDepths order adjacency = .ok (depths, []) ∧
      ∀ v ∈ order, ∃ d, (firstVisitDepths order adjacency).get? v = some d ∧ depths.get? v = some d := by
  obtain ⟨depths, hdepths, hlongest⟩ :=
    longestPathDepths_of_acyclic hids (not_transGen_of_lt order.idxOf hbefore)
  refine ⟨depths, hdepths, fun v hv => ?_⟩
  obtain ⟨d, hd⟩ := (firstVisitDepths_spec order adjacency).1 v hv
  obtain ⟨d', hd', hgreatest⟩ := hlongest v hv
  obtain rfl : d = d' := (longestTo_of_forest hunique hbefore hv hd).unique hgreatest
  exact ⟨d, hd, hd'⟩

/-- Two trees, one of them with repeated edges. -/
theorem firstVisitDepths_eq_of_two_trees :
    let order : List Text := ["R", "A", "S", "B", "C", "T"]
    let adjacency : Entries (List Text) := [("S", ["T"]), ("B", ["C", "C"]), ("R", ["A", "B", "A"])]
    (∀ u ∈ adjacency.ids, u ∈ order) ∧
    (∀ u u' v, adjacency.Adj u v → adjacency.Adj u' v → u = u') ∧
    (∀ u v, adjacency.Adj u v → order.idxOf u < order.idxOf v) ∧
    ∃ depths, longestPathDepths order adjacency = .ok (depths, []) ∧
      ∀ v ∈ order, ∃ d, (firstVisitDepths order adjacency).get? v = some d ∧ depths.get? v = some d := by
  intro order adjacency
  have hids : ∀ u ∈ adjacency.ids, u ∈ order := by decide
  have hunique : ∀ u u' v, adjacency.Adj u v → adjacency.Adj u' v → u = u' := by
    intro u u' v huv hu'v
    have hall : ∀ e ∈ adjacency, ∀ e' ∈ adjacency, ∀ w ∈ e.2, w ∈ e'.2 → e.1 = e'.1 := by decide
    obtain ⟨e, he, rfl, hv⟩ := huv.exists_entry
    obtain ⟨e', he', rfl, hv'⟩ := hu'v.exists_entry
    exact hall e he e' he' v hv hv'
  have hbefore : ∀ u v, adjacency.Adj u v → order.idxOf u < order.idxOf v := by
    intro u v huv
    have hall : ∀ e ∈ adjacency, ∀ w ∈ e.2, order.idxOf e.1 < order.idxOf w := by decide
    obtain ⟨e, he, rfl, hv⟩ := huv.exists_entry
    exact hall e he v hv
  exact ⟨hids, hunique, hbefore, firstVisitDepths_eq_of_forest order adjacency hids hunique hbefore⟩

end Flowchart.Layout
