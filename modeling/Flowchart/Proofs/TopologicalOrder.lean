import Flowchart.Layout.LongestPath
import Flowchart.Proofs.BackEdges
import Mathlib.Data.Fintype.Card
import Mathlib.Data.Set.Finite.Basic

/-!
# Topological orders

In a graph without cycles, every node is taken, and behind all its predecessors (`topologicalOrder_eq`). While
nodes are taken, the queue holds those nodes whose predecessors have all been taken (`Taking`); as long as not
all nodes have been taken there is one, because going back from predecessor to predecessor comes to an end.
-/

namespace Flowchart.Digraph

open Relation

variable {g : Digraph} {u v w : Text} {queue done : List Text}

/-- Nodes, latest first, of which each comes behind its predecessors. -/
inductive Topological (g : Digraph) : List Text → Prop
  | nil : Topological g []
  | cons {x : Text} {xs : List Text} : Topological g xs → x ∉ xs → (∀ u, g.Adj u x → u ∈ xs) →
      Topological g (x :: xs)

theorem Topological.nodup (h : g.Topological done) : done.Nodup := by
  induction h with
  | nil => exact List.nodup_nil
  | cons _ hv _ ih => exact List.nodup_cons.2 ⟨hv, ih⟩

/-- The predecessors of a node that has been taken have been taken. -/
theorem Topological.mem_of_adj (h : g.Topological done) (huv : g.Adj u v) (hv : v ∈ done) : u ∈ done := by
  induction h with
  | nil => cases hv
  | cons _ _ hbehind ih =>
    rcases List.mem_cons.1 hv with rfl | hv
    · exact List.mem_cons_of_mem _ (hbehind u huv)
    · exact List.mem_cons_of_mem _ (ih hv)

/-! ## Predecessors -/

theorem mem_previous_iff (h : g.nodes.Nodup) : u ∈ g.previous v ↔ g.Adj u v := by
  rw [← mem_edges_iff h]
  unfold previous edges
  simp

theorem mem_freed_iff (h : g.nodes.Nodup) :
    w ∈ g.freed done v ↔ g.Adj v w ∧ ∀ u, g.Adj u w → u ∈ done := by
  unfold freed Adj
  simp only [List.mem_filter, List.all_eq_true, mem_previous_iff h, List.contains_iff_mem]
  exact Iff.rfl

/-- In a graph without cycles, a set of nodes that has each node whose predecessors it has is the set of all
nodes. -/
theorem Acyclic.forall_mem_nodes (ha : g.Acyclic) {P : Text → Prop}
    (h : ∀ v ∈ g.nodes, (∀ u, g.Adj u v → P u) → P v) : ∀ v ∈ g.nodes, P v := by
  let R : {v // v ∈ g.nodes} → {v // v ∈ g.nodes} → Prop := fun a b => TransGen g.Adj a b
  have htrans : IsTrans _ R := ⟨fun _ _ _ => TransGen.trans⟩
  have hirrefl : Std.Irrefl R := ⟨fun a => ha a⟩
  have hfinite : Finite {v // v ∈ g.nodes} := g.nodes.finite_toSet
  have hwf : WellFounded R := Finite.wellFounded_of_trans_of_irrefl R
  intro v hv
  induction hx : (⟨v, hv⟩ : {v // v ∈ g.nodes}) using hwf.induction generalizing v with
  | _ x ih =>
    subst hx
    exact h v hv fun u huv => ih ⟨u, huv.source_mem⟩ (TransGen.single huv) u huv.source_mem rfl

/-! ## Taking nodes -/

/-- The nodes in `done` have been taken, latest first, and those of the other nodes whose predecessors have all
been taken are in the queue. -/
structure Taking (g : Digraph) (queue done : List Text) : Prop where
  taken : g.Topological done
  mem : ∀ v, v ∈ queue ∨ v ∈ done → v ∈ g.nodes
  nodup : queue.Nodup
  fresh : ∀ v ∈ queue, v ∉ done
  free : ∀ v ∈ queue, ∀ u, g.Adj u v → u ∈ done
  complete : ∀ v ∈ g.nodes, (∀ u, g.Adj u v → u ∈ done) → v ∈ queue ∨ v ∈ done

theorem taking_start (h : g.nodes.Nodup) :
    g.Taking (g.nodes.filter fun v => (g.previous v).isEmpty) [] := by
  have hiff : ∀ v, v ∈ (g.nodes.filter fun v => (g.previous v).isEmpty) ↔
      v ∈ g.nodes ∧ ∀ u, ¬ g.Adj u v := by
    intro v
    simp only [List.mem_filter, List.isEmpty_iff, List.eq_nil_iff_forall_not_mem, mem_previous_iff h]
  refine ⟨.nil, fun v hv => ?_, h.filter _, fun v _ => List.not_mem_nil, fun v hv u huv => ?_,
    fun v hv hfree => ?_⟩
  · exact ((hiff v).1 (hv.resolve_right List.not_mem_nil)).1
  · exact absurd huv (((hiff v).1 hv).2 u)
  · exact Or.inl ((hiff v).2 ⟨hv, fun u huv => absurd (hfree u huv) List.not_mem_nil⟩)

/-- Taking the first node of the queue. -/
theorem Taking.take (hg : g.WellFormed) (h : g.Taking (v :: queue) done) :
    g.Taking (queue ++ g.freed (v :: done) v) (v :: done) := by
  obtain ⟨hqueue, hnodup⟩ := List.nodup_cons.1 h.nodup
  have hv : v ∉ done := h.fresh v List.mem_cons_self
  have hfreed : ∀ w, w ∈ g.freed (v :: done) v ↔ g.Adj v w ∧ ∀ u, g.Adj u w → u ∈ v :: done :=
    fun w => mem_freed_iff hg.nodup_nodes
  -- a successor of `v` has been neither queued nor taken, since `v` would have been taken before
  have hnew : ∀ w, g.Adj v w → w ∉ v :: queue ∧ w ∉ done := fun w hvw =>
    ⟨fun hw => hv (h.free w hw v hvw), fun hw => hv (h.taken.mem_of_adj hvw hw)⟩
  refine ⟨.cons h.taken hv (h.free v List.mem_cons_self), fun w hw => ?_, ?_, fun w hw => ?_,
    fun w hw u huw => ?_, fun w hw hfree => ?_⟩
  · rcases hw with hw | hw
    · rcases List.mem_append.1 hw with hw | hw
      · exact h.mem w (Or.inl (List.mem_cons_of_mem v hw))
      · exact hg.target_mem v w ((hfreed w).1 hw).1
    · rcases List.mem_cons.1 hw with rfl | hw
      · exact h.mem w (Or.inl List.mem_cons_self)
      · exact h.mem w (Or.inr hw)
  · refine hnodup.append ((hg.nodup_next v).filter _) fun w hw hw' => ?_
    exact (hnew w ((hfreed w).1 hw').1).1 (List.mem_cons_of_mem v hw)
  · rw [List.mem_cons, not_or]
    rcases List.mem_append.1 hw with hw | hw
    · exact ⟨fun hwv => hqueue (hwv ▸ hw), h.fresh w (List.mem_cons_of_mem v hw)⟩
    · obtain ⟨hw', hw''⟩ := hnew w ((hfreed w).1 hw).1
      exact ⟨fun hwv => hw' (hwv ▸ List.mem_cons_self), hw''⟩
  · rcases List.mem_append.1 hw with hw | hw
    · exact List.mem_cons_of_mem v (h.free w (List.mem_cons_of_mem v hw) u huw)
    · exact ((hfreed w).1 hw).2 u huw
  · by_cases hvw : g.Adj v w
    · exact Or.inl (List.mem_append_right queue ((hfreed w).2 ⟨hvw, hfree⟩))
    · have hfree' : ∀ u, g.Adj u w → u ∈ done := fun u huw =>
        (List.mem_cons.1 (hfree u huw)).resolve_left fun huv => hvw (huv ▸ huw)
      rcases h.complete w hw hfree' with hw | hw
      · rcases List.mem_cons.1 hw with rfl | hw
        · exact Or.inr List.mem_cons_self
        · exact Or.inl (List.mem_append_left _ hw)
      · exact Or.inr (List.mem_cons_of_mem v hw)

theorem Taking.subperm (h : g.Taking queue done) : done.Subperm g.nodes :=
  List.subperm_of_subset h.taken.nodup fun v hv => h.mem v (Or.inr hv)

/-- If the bound allows for all nodes, all are taken. -/
theorem Taking.takeFree_eq (hg : g.WellFormed) (ha : g.Acyclic) {bound : ℕ} (h : g.Taking queue done)
    (hb : g.nodes.length ≤ bound + done.length) :
    ∃ all, g.takeFree bound queue done = all.reverse ∧ g.Topological all ∧ all.Perm g.nodes := by
  induction bound generalizing queue done with
  | zero =>
    rw [Nat.zero_add] at hb
    exact ⟨done, by cases queue <;> rfl, h.taken, h.subperm.perm_of_length_le hb⟩
  | succ bound ih =>
    cases queue with
    | nil =>
      refine ⟨done, rfl, h.taken, ?_⟩
      have hall : g.nodes ⊆ done := ha.forall_mem_nodes fun v hv hfree =>
        (h.complete v hv hfree).resolve_left List.not_mem_nil
      exact h.subperm.perm_of_length_le (List.subperm_of_subset hg.nodup_nodes hall).length_le
    | cons v queue =>
      apply ih (h.take hg)
      rw [List.length_cons]
      omega

/-- A graph without cycles has a topological order. -/
theorem topologicalOrder_eq (hg : g.WellFormed) (ha : g.Acyclic) :
    ∃ all, g.topologicalOrder = .ok all.reverse ∧ g.Topological all ∧ all.Perm g.nodes := by
  obtain ⟨all, hall, htop, hperm⟩ := (taking_start hg.nodup_nodes).takeFree_eq hg ha (Nat.le_add_right _ _)
  refine ⟨all, ?_, htop, hperm⟩
  unfold topologicalOrder takenInOrder
  rw [hall, List.length_reverse, hperm.length_eq, beq_self_eq_true, if_pos rfl]

/-! ## Graphs without their back edges -/

theorem WellFormed.adj_of_mem_backEdges (hg : g.WellFormed) {e : Text × Text} (he : e ∈ g.backEdges) :
    g.Adj e.1 e.2 := by
  obtain ⟨es, hsweep⟩ := exists_sweep g
  rw [hg.backEdges_eq hsweep] at he
  exact hg.adj_of_sweep hsweep he

/-- Without its back edges a graph has the same nodes, its other edges and no cycle. -/
theorem WellFormed.without_backEdges (hg : g.WellFormed) :
    (g.removeEdges g.backEdges).WellFormed ∧ (g.removeEdges g.backEdges).nodes = g.nodes ∧
      (g.removeEdges g.backEdges).Acyclic ∧
      ∀ u v, (g.removeEdges g.backEdges).Adj u v ↔ g.Adj u v ∧ (u, v) ∉ g.backEdges := by
  obtain ⟨es, hsweep⟩ := exists_sweep g
  obtain rfl : g.backEdges = es := hg.backEdges_eq hsweep
  rw [← List.append_nil g.backEdges] at hsweep
  obtain ⟨hwf, hnodes, hnone, hadj⟩ := hg.removeEdges hsweep
  exact ⟨hwf, hnodes, acyclic_of_sweep hwf hnone, hadj⟩

end Flowchart.Digraph
