import Flowchart.Proofs.Entries
import Flowchart.Proofs.Outcome
import Flowchart.Proofs.TopologicalOrder
import Mathlib.Order.Bounds.Basic

/-!
# Lengths of longest paths

The depth of a node is the length of a longest path that ends there (`Digraph.pathDepths_eq`): the predecessors
of a node have their depths when its own is computed, and a longest path to it goes through the deepest of them.
Since the depths are computed without the back edges of the graph, every graph has depths
(`longestPathDepths_spec`).
-/

namespace Flowchart

variable {R : Text → Text → Prop} {u v : Text} {n d : ℕ}

/-- Some path of so many edges ends at a node. -/
inductive PathTo (R : Text → Text → Prop) : ℕ → Text → Prop
  | start (v : Text) : PathTo R 0 v
  | step {n : ℕ} {u v : Text} : PathTo R n u → R u v → PathTo R (n + 1) v

theorem pathTo_succ_iff : PathTo R (n + 1) v ↔ ∃ u, R u v ∧ PathTo R n u := by
  constructor
  · rintro (_ | ⟨h, huv⟩)
    exact ⟨_, huv, h⟩
  · rintro ⟨u, huv, h⟩
    exact .step h huv

/-- The number of edges of a longest path to `v` is `d`. -/
def LongestTo (R : Text → Text → Prop) (v : Text) (d : ℕ) : Prop :=
  IsGreatest {n | PathTo R n v} d

theorem LongestTo.lt {d' : ℕ} (h : LongestTo R u d) (h' : LongestTo R v d') (huv : R u v) : d < d' :=
  h'.2 (PathTo.step h.1 huv)

theorem LongestTo.congr {S : Text → Text → Prop} (h : LongestTo R v d) (hRS : ∀ u v, R u v ↔ S u v) :
    LongestTo S v d := by
  obtain rfl : R = S := by
    funext u v
    exact propext (hRS u v)
  exact h

/-- A node that is not the start of all paths to it has a predecessor that is one less deep. -/
theorem LongestTo.exists_predecessor {depth : Text → Option ℕ} (h : LongestTo R v (d + 1))
    (hdepth : ∀ u, R u v → ∃ e, depth u = some e ∧ LongestTo R u e) :
    ∃ u, R u v ∧ depth u = some d := by
  obtain ⟨u, huv, hpath⟩ := pathTo_succ_iff.1 h.1
  obtain ⟨e, hu, he⟩ := hdepth u huv
  have hle : d ≤ e := he.2 hpath
  have hlt : e < d + 1 := he.lt h huv
  obtain rfl : d = e := by omega
  exact ⟨u, huv, hu⟩

/-- The result of a running maximum is one of the numbers, and none is greater. -/
theorem foldl_max_spec {α : Type} [LinearOrder α] (a : α) (xs : List α) :
    xs.foldl max a ∈ a :: xs ∧ ∀ x ∈ a :: xs, x ≤ xs.foldl max a :=
  List.max?_eq_some_iff.1 List.max?_cons'

/-- A longest path to a node is one edge longer than a longest one to its predecessors. -/
theorem longestTo_foldl_max {us : List Text} {depth : Text → ℕ} (hus : ∀ u, u ∈ us ↔ R u v)
    (hdepth : ∀ u ∈ us, LongestTo R u (depth u)) :
    LongestTo R v (((us.map depth).map (· + 1)).foldl max 0) := by
  obtain ⟨hmem, hmax⟩ := foldl_max_spec 0 ((us.map depth).map (· + 1))
  generalize ((us.map depth).map (· + 1)).foldl max 0 = d at hmem hmax
  constructor
  · rcases List.mem_cons.1 hmem with rfl | hmem
    · exact .start v
    · simp only [List.map_map, List.mem_map, Function.comp] at hmem
      obtain ⟨u, hu, rfl⟩ := hmem
      exact PathTo.step (hdepth u hu).1 ((hus u).1 hu)
  · intro n hn
    cases hn with
    | start => exact Nat.zero_le d
    | @step n u _ hn huv =>
      have hu := (hus u).2 huv
      have hle : n ≤ depth u := (hdepth u hu).2 hn
      have hmem : depth u + 1 ∈ (us.map depth).map (· + 1) :=
        List.mem_map_of_mem (List.mem_map_of_mem hu)
      have := hmax _ (List.mem_cons_of_mem 0 hmem)
      omega

namespace Digraph

variable {g : Digraph} {depths : Entries ℕ} {done : List Text}

/-! ## Depths along a topological order -/

/-- The nodes in `done` have the lengths of the longest paths to them as depths. -/
structure Measured (g : Digraph) (done : List Text) (depths : Entries ℕ) : Prop where
  nodup : depths.ids.Nodup
  mem_iff : ∀ v, v ∈ depths.ids ↔ v ∈ done
  longest : ∀ v d, depths.get? v = some d → LongestTo g.Adj v d

theorem measured_nil : g.Measured [] [] where
  nodup := List.nodup_nil
  mem_iff _ := Iff.rfl
  longest _ _ h := nomatch h

/-- Behind its predecessors, a node gets a depth. -/
theorem Measured.depthBehind_eq (hg : g.nodes.Nodup) (h : g.Measured done depths)
    (hv : ∀ u, g.Adj u v → u ∈ done) :
    ∃ d, g.depthBehind depths v = .ok d ∧ LongestTo g.Adj v d := by
  have hprev : ∀ u ∈ g.previous v, depths.get? u = some ((depths.get? u).getD 0) := by
    intro u hu
    obtain ⟨d, hd⟩ := Entries.exists_get? ((h.mem_iff u).2 (hv u ((mem_previous_iff hg).1 hu)))
    rw [hd]
    rfl
  refine ⟨_, ?_, longestTo_foldl_max (fun u => mem_previous_iff hg) fun u hu => h.longest u _ (hprev u hu)⟩
  have hmapM := mapM_eq_ok (f := Layout.depthOf depths) fun u hu =>
    show Layout.depthOf depths u = .ok ((depths.get? u).getD 0) by
      unfold Layout.depthOf
      rw [hprev u hu]
      rfl
  unfold depthBehind
  rw [hmapM, ok_bind]
  rfl

theorem Measured.set (h : g.Measured done depths) (hd : LongestTo g.Adj v d) :
    g.Measured (v :: done) (depths.set v d) where
  nodup := Entries.nodup_ids_set h.nodup
  mem_iff x := by rw [Entries.mem_ids_set, h.mem_iff, List.mem_cons]
  longest x e hx := by
    rw [Entries.get?_set] at hx
    split_ifs at hx with hxv
    · obtain rfl := Option.some.inj hx
      exact hxv ▸ hd
    · exact h.longest x e hx

theorem pathDepthsFrom_cons (depths : Entries ℕ) (v : Text) (vs : List Text) :
    g.pathDepthsFrom depths (v :: vs) =
      (do g.pathDepthsFrom (depths.set v (← g.depthBehind depths v)) vs) := rfl

theorem pathDepthsFrom_append (depths : Entries ℕ) (vs ws : List Text) :
    g.pathDepthsFrom depths (vs ++ ws) =
      (do g.pathDepthsFrom (← g.pathDepthsFrom depths vs) ws) := by
  induction vs generalizing depths with
  | nil => rfl
  | cons v vs ih =>
    rw [List.cons_append, pathDepthsFrom_cons, pathDepthsFrom_cons]
    cases g.depthBehind depths v with
    | error f => rfl
    | ok d => exact ih (depths.set v d)

/-- Along a topological order every node gets a depth. -/
theorem Topological.pathDepthsFrom_eq (hg : g.nodes.Nodup) (h : g.Topological done) :
    ∃ depths, g.pathDepthsFrom [] done.reverse = .ok depths ∧ g.Measured done depths := by
  induction h with
  | nil => exact ⟨[], rfl, measured_nil⟩
  | @cons v done _ _ hbehind ih =>
    obtain ⟨depths, hdepths, hmeasured⟩ := ih
    obtain ⟨d, hd, hlongest⟩ := hmeasured.depthBehind_eq hg hbehind
    refine ⟨depths.set v d, ?_, hmeasured.set hlongest⟩
    rw [List.reverse_cons, pathDepthsFrom_append, hdepths]
    show g.pathDepthsFrom depths [v] = _
    rw [pathDepthsFrom_cons, hd]
    rfl

/-- In a graph without cycles the depth of each node is the length of a longest path to it. -/
theorem pathDepths_eq (hg : g.WellFormed) (ha : g.Acyclic) :
    ∃ depths, g.pathDepths = .ok depths ∧ g.Measured g.nodes depths := by
  obtain ⟨all, horder, htop, hperm⟩ := topologicalOrder_eq hg ha
  obtain ⟨depths, hdepths, hmeasured⟩ := htop.pathDepthsFrom_eq hg.nodup_nodes
  refine ⟨depths, ?_, hmeasured.nodup, fun v => (hmeasured.mem_iff v).trans hperm.mem_iff,
    hmeasured.longest⟩
  unfold pathDepths
  rw [horder, ok_bind, hdepths]

/-! ## Graphs of successors -/

theorem mem_nodes_addNode : v ∈ (g.addNode u).nodes ↔ v ∈ g.nodes ∨ v = u := by
  rw [nodes_addNode]
  split_ifs with hu
  · exact ⟨Or.inl, fun h => h.elim (fun h => h) (fun h => h ▸ hu)⟩
  · rw [List.mem_append, List.mem_singleton]

theorem mem_nodes_ofEdges {vs : List Text} {es : List (Text × Text)} :
    v ∈ (ofEdges vs es).nodes ↔ v ∈ vs ∨ ∃ e ∈ es, v = e.1 ∨ v = e.2 := by
  have hnodes : ∀ g : Digraph, v ∈ (vs.foldl addNode g).nodes ↔ v ∈ g.nodes ∨ v ∈ vs := by
    induction vs with
    | nil => simp
    | cons w vs ih =>
      intro g
      rw [List.foldl_cons, ih, mem_nodes_addNode, List.mem_cons, or_assoc]
  have hedges : ∀ g : Digraph, v ∈ (es.foldl (fun g e => g.addEdge e.1 e.2) g).nodes ↔
      v ∈ g.nodes ∨ ∃ e ∈ es, v = e.1 ∨ v = e.2 := by
    induction es with
    | nil => simp
    | cons e es ih =>
      intro g
      rw [List.foldl_cons, ih, nodes_addEdge, mem_nodes_addNode, mem_nodes_addNode]
      simp only [List.mem_cons, exists_eq_or_imp, or_assoc]
  refine (hedges _).trans ?_
  rw [hnodes]
  exact or_congr_left (or_iff_right List.not_mem_nil)

variable {order : List Text} {adjacency : Entries (List Text)}

theorem adj_ofAdjacency :
    (ofAdjacency order adjacency).Adj u v ↔ u ∈ order ∧ v ∈ adjacency.successorsOf u := by
  unfold ofAdjacency
  rw [adj_ofEdges]
  simp

theorem mem_nodes_ofAdjacency :
    v ∈ (ofAdjacency order adjacency).nodes ↔
      v ∈ order ∨ ∃ u ∈ order, v ∈ adjacency.successorsOf u := by
  unfold ofAdjacency
  rw [mem_nodes_ofEdges]
  constructor
  · rintro (hv | ⟨e, he, hve⟩)
    · exact Or.inl hv
    · simp only [List.mem_flatMap, List.mem_map] at he
      obtain ⟨u, hu, w, hw, rfl⟩ := he
      rcases hve with rfl | rfl
      · exact Or.inl hu
      · exact Or.inr ⟨u, hu, hw⟩
  · rintro (hv | ⟨u, hu, hv⟩)
    · exact Or.inl hv
    · exact Or.inr ⟨(u, v), by simp [hu, hv], Or.inr rfl⟩

end Digraph

namespace Layout

/-- Every graph gets the depths of its nodes without its back edges. -/
theorem longestPathDepths_eq (order : List Text) (adjacency : Entries (List Text)) :
    let g := Digraph.ofAdjacency order adjacency
    ∃ depths, longestPathDepths order adjacency = .ok (depths, g.backEdges) ∧
      (g.removeEdges g.backEdges).Measured g.nodes depths ∧
      ∀ u v, (g.removeEdges g.backEdges).Adj u v ↔
        u ∈ order ∧ v ∈ adjacency.successorsOf u ∧ (u, v) ∉ g.backEdges := by
  intro g
  have hg : g.WellFormed := Digraph.wellFormed_ofEdges _ _
  obtain ⟨hwf, hnodes, ha, hadj⟩ := hg.without_backEdges
  obtain ⟨depths, hdepths, hmeasured⟩ := Digraph.pathDepths_eq hwf ha
  refine ⟨depths, ?_, hnodes ▸ hmeasured, fun u v => ?_⟩
  · unfold longestPathDepths
    dsimp only
    rw [hdepths, ok_bind]
    rfl
  · rw [hadj, Digraph.adj_ofAdjacency, and_assoc]

/-- Every graph gets depths by longest path, whatever its cycles, repeated edges and further targets. They are
the depths of its nodes, and each is the number of edges of a longest path without back edges to the node. So
every edge that is no back edge leads to a greater depth, and to each depth but zero some edge leads from the
depth before. -/
theorem longestPathDepths_spec (order : List Text) (adjacency : Entries (List Text)) :
    let back := (Digraph.ofAdjacency order adjacency).backEdges
    let rest (u v : Text) := u ∈ order ∧ v ∈ adjacency.successorsOf u ∧ (u, v) ∉ back
    ∃ depths, longestPathDepths order adjacency = .ok (depths, back) ∧
      (∀ e ∈ back, e.1 ∈ order ∧ e.2 ∈ adjacency.successorsOf e.1) ∧
      depths.ids.Nodup ∧
      (∀ v, v ∈ depths.ids ↔ v ∈ order ∨ ∃ u ∈ order, v ∈ adjacency.successorsOf u) ∧
      (∀ v ∈ depths.ids, ∃ d, depths.get? v = some d ∧ IsGreatest {n | PathTo rest n v} d) ∧
      (∀ u v, rest u v → ∃ d d', depths.get? u = some d ∧ depths.get? v = some d' ∧ d < d') ∧
      ∀ v d, depths.get? v = some (d + 1) → ∃ u, rest u v ∧ depths.get? u = some d := by
  intro back rest
  have hg : (Digraph.ofAdjacency order adjacency).WellFormed := Digraph.wellFormed_ofEdges _ _
  obtain ⟨depths, hdepths, hmeasured, hrest⟩ := longestPathDepths_eq order adjacency
  have hids : ∀ v, v ∈ depths.ids ↔ v ∈ order ∨ ∃ u ∈ order, v ∈ adjacency.successorsOf u :=
    fun v => by rw [hmeasured.mem_iff, Digraph.mem_nodes_ofAdjacency]
  have hlongest : ∀ v ∈ depths.ids, ∃ d, depths.get? v = some d ∧ LongestTo rest v d := by
    intro v hv
    obtain ⟨d, hd⟩ := Entries.exists_get? hv
    exact ⟨d, hd, (hmeasured.longest v d hd).congr hrest⟩
  have hsource : ∀ u v, rest u v → ∃ d, depths.get? u = some d ∧ LongestTo rest u d :=
    fun u v huv => hlongest u ((hids u).2 (Or.inl huv.1))
  refine ⟨depths, hdepths, fun e he => Digraph.adj_ofAdjacency.1 (hg.adj_of_mem_backEdges he),
    hmeasured.nodup, hids, hlongest, fun u v huv => ?_, fun v d hd => ?_⟩
  · obtain ⟨d, hd, hu⟩ := hsource u v huv
    obtain ⟨d', hd', hv⟩ := hlongest v ((hids v).2 (Or.inr ⟨u, huv.1, huv.2.1⟩))
    exact ⟨d, d', hd, hd', hu.lt hv huv⟩
  · obtain ⟨e, he, hv⟩ := hlongest v (Entries.mem_ids_of_get? hd)
    obtain rfl : d + 1 = e := Option.some.inj (hd.symm.trans he)
    exact hv.exists_predecessor fun u huv => hsource u v huv

end Layout

end Flowchart
