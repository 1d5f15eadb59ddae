import Flowchart.Layout
import Flowchart.Proofs.LongestPath
import Flowchart.Proofs.VisitForest

/-!
# Bands and places

With either way of layering every node has a depth, and the depths have no gap (`Graded`). So the bands are the
nodes of each depth up to the greatest (`bandsOf_eq`), none of them is empty, and each node stands in one band
(`perm_bandsBy`). The place of a node is where it stands in the bands (`mem_places_iff`).
-/

namespace Flowchart.Layout

variable {order : List Text} {adjacency : Entries (List Text)} {depth : Text → ℕ}

/-! ## Depths -/

/-- All nodes have depths, and some node has the depth before that of another. -/
structure Graded (order : List Text) (depths : Entries ℕ) : Prop where
  total : ∀ id ∈ order, ∃ d, depths.get? id = some d
  step : ∀ id d, depths.get? id = some (d + 1) → ∃ u ∈ order, depths.get? u = some d

theorem graded_firstVisit (h : ∀ id ∈ adjacency.ids, id ∈ order) :
    Graded order (firstVisitDepths order adjacency) := by
  obtain ⟨htotal, hstep⟩ := firstVisitDepths_spec order adjacency
  refine ⟨htotal, fun id d hd => ?_⟩
  obtain ⟨u, hu, hdepth⟩ := hstep id d hd
  exact ⟨u, h u (Entries.Adj.source_mem hu), hdepth⟩

theorem graded_longestPath (order : List Text) (adjacency : Entries (List Text)) :
    ∃ depths, longestPathDepths order adjacency =
        .ok (depths, (Digraph.ofAdjacency order adjacency).backEdges) ∧ Graded order depths := by
  obtain ⟨depths, hdepths, hmeasured, hadj⟩ := longestPathDepths_eq order adjacency
  refine ⟨depths, hdepths, fun id hid => ?_, fun id d hd => ?_⟩
  · exact Entries.exists_get? ((hmeasured.mem_iff id).2 (Digraph.mem_nodes_ofAdjacency.2 (Or.inl hid)))
  · obtain ⟨u, hu, hdepth⟩ := (hmeasured.longest id _ hd).exists_predecessor fun u hu =>
      have hmem := Digraph.mem_nodes_ofAdjacency.2 (Or.inl ((hadj u id).1 hu).1)
      have ⟨e, he⟩ := Entries.exists_get? ((hmeasured.mem_iff u).2 hmem)
      ⟨e, he, hmeasured.longest u e he⟩
    exact ⟨u, ((hadj u id).1 hu).1, hdepth⟩

theorem depthsBy_eq (layering : Layering) (h : ∀ id ∈ adjacency.ids, id ∈ order) :
    ∃ depths back, depthsBy layering order adjacency = .ok (depths, back) ∧ Graded order depths := by
  cases layering with
  | firstVisit => exact ⟨_, _, rfl, graded_firstVisit h⟩
  | longestPath =>
    obtain ⟨depths, hdepths, hgraded⟩ := graded_longestPath order adjacency
    exact ⟨depths, _, hdepths, hgraded⟩

/-! ## Bands -/

/-- One more than the greatest depth of some nodes, zero if there are none. -/
def bandTotal (depth : Text → ℕ) (order : List Text) : ℕ :=
  (order.map (depth · + 1)).foldl max 0

/-- Some nodes by depth. -/
def bandsBy (depth : Text → ℕ) (order : List Text) : List (List Text) :=
  (List.range (bandTotal depth order)).map fun band => order.filter (depth · == band)

theorem lt_bandTotal (depth : Text → ℕ) {id : Text} (h : id ∈ order) : depth id < bandTotal depth order :=
  (foldl_max_spec 0 _).2 _ (List.mem_cons_of_mem 0 (List.mem_map_of_mem (f := (depth · + 1)) h))

theorem exists_bandTotal (h : bandTotal depth order ≠ 0) :
    ∃ id ∈ order, bandTotal depth order = depth id + 1 := by
  rcases List.mem_cons.1 (foldl_max_spec 0 (order.map (depth · + 1))).1 with hzero | hmem
  · exact absurd hzero h
  · obtain ⟨id, hid, heq⟩ := List.mem_map.1 hmem
    exact ⟨id, hid, heq.symm⟩

theorem bandCount_eq (depth : Text → ℕ) (order : List Text) :
    bandCount (order.map fun id => (depth id : ℤ)) = bandTotal depth order := by
  cases order with
  | nil => rfl
  | cons id order =>
    obtain ⟨hmem, hmax⟩ := foldl_max_spec (depth id : ℤ) (order.map fun id => (depth id : ℤ))
    show (_ + 1 : ℤ).toNat = _
    generalize (order.map fun id => (depth id : ℤ)).foldl max (depth id : ℤ) = m at hmem hmax
    rw [← List.map_cons (f := fun id => (depth id : ℤ))] at hmem hmax
    obtain ⟨i, hi, rfl⟩ := List.mem_map.1 hmem
    have hpos : bandTotal depth (id :: order) ≠ 0 := by
      have := lt_bandTotal depth (List.mem_cons_self (a := id) (l := order))
      omega
    obtain ⟨j, hj, hjm⟩ := exists_bandTotal hpos
    have hji := hmax _ (List.mem_map_of_mem hj)
    have hij := lt_bandTotal depth hi
    omega

theorem map_fst_filter_zip (f : Text → ℕ) (b : ℕ) (xs : List Text) :
    ((xs.zip (xs.map f)).filter (·.2 == b)).map Prod.fst = xs.filter (f · == b) := by
  induction xs with
  | nil => rfl
  | cons x xs ih =>
    rw [List.map_cons, List.zip_cons_cons, List.filter_cons, List.filter_cons]
    split_ifs
    · rw [List.map_cons, ih]
    · exact ih

/-- Nodes with depths can be put into bands. -/
theorem bandsOf_eq {depths : Entries ℤ} (h : ∀ id ∈ order, depths.get? id = some (depth id : ℤ)) :
    bandsOf order depths = .ok (bandsBy depth order) := by
  have hdepths : order.mapM (depthOf depths) = .ok (order.map fun id => (depth id : ℤ)) :=
    mapM_eq_ok fun id hid => by
      unfold depthOf
      rw [h id hid]
      rfl
  have hplaces : (order.map fun id => (depth id : ℤ)).mapM (bandOf (bandTotal depth order)) =
      .ok ((order.map fun id => (depth id : ℤ)).map Int.toNat) :=
    mapM_eq_ok fun d hd => by
      obtain ⟨id, hid, rfl⟩ := List.mem_map.1 hd
      unfold bandOf
      rw [Index.resolve_ofNat (lt_bandTotal depth hid)]
      rfl
  have hnat : (order.map fun id => (depth id : ℤ)).map Int.toNat = order.map depth := by
    rw [List.map_map]
    rfl
  unfold bandsOf
  rw [hdepths, ok_bind]
  dsimp only
  rw [bandCount_eq, hplaces, ok_bind, hnat]
  simp only [map_fst_filter_zip]
  rfl

theorem getElem?_bandsBy {b : ℕ} {band : List Text} :
    (bandsBy depth order)[b]? = some band ↔
      b < bandTotal depth order ∧ band = order.filter (depth · == b) := by
  unfold bandsBy
  rw [List.getElem?_map, Option.map_eq_some_iff]
  constructor
  · rintro ⟨i, hi, rfl⟩
    obtain ⟨hlt, rfl⟩ := List.getElem?_eq_some_iff.1 hi
    rw [List.getElem_range]
    exact ⟨by simpa using hlt, rfl⟩
  · rintro ⟨hlt, rfl⟩
    exact ⟨b, by rw [List.getElem?_range hlt], rfl⟩

/-- Each band holds nodes in their order. -/
theorem sublist_of_mem_bandsBy {band : List Text} (h : band ∈ bandsBy depth order) :
    band.Sublist order := by
  obtain ⟨b, -, rfl⟩ := List.mem_map.1 h
  exact List.filter_sublist

/-- Depths without a gap leave no band empty. -/
theorem ne_nil_of_mem_bandsBy (hstep : ∀ id ∈ order, ∀ d, depth id = d + 1 → ∃ u ∈ order, depth u = d)
    {band : List Text} (h : band ∈ bandsBy depth order) : band ≠ [] := by
  -- down from a node of the greatest depth
  have hdown : ∀ k d, (∃ id ∈ order, depth id = d + k) → ∃ id ∈ order, depth id = d := by
    intro k
    induction k with
    | zero => exact fun d h => h
    | succ k ih =>
      rintro d ⟨id, hid, hd⟩
      exact ih d (hstep id hid (d + k) hd)
  obtain ⟨b, hb, rfl⟩ := List.mem_map.1 h
  rw [List.mem_range] at hb
  have hpos : bandTotal depth order ≠ 0 := by omega
  obtain ⟨top, htop, heq⟩ := exists_bandTotal hpos
  obtain ⟨id, hid, hdepth⟩ := hdown (depth top - b) b ⟨top, htop, by omega⟩
  exact List.ne_nil_of_mem (List.mem_filter.2 ⟨hid, beq_iff_eq.2 hdepth⟩)

theorem mem_flatten_bandsBy {id : Text} : id ∈ (bandsBy depth order).flatten ↔ id ∈ order := by
  unfold bandsBy
  simp only [List.mem_flatten, List.mem_map, List.mem_range]
  constructor
  · rintro ⟨_, ⟨b, -, rfl⟩, hid⟩
    exact (List.mem_filter.1 hid).1
  · intro hid
    exact ⟨_, ⟨depth id, lt_bandTotal depth hid, rfl⟩, List.mem_filter.2 ⟨hid, beq_self_eq_true _⟩⟩

/-- The bands divide the nodes. -/
theorem perm_bandsBy (h : order.Nodup) : (bandsBy depth order).flatten.Perm order := by
  refine (List.perm_ext_iff_of_nodup ?_ h).2 fun id => mem_flatten_bandsBy
  rw [List.nodup_flatten]
  constructor
  · exact fun band hband => (sublist_of_mem_bandsBy hband).nodup h
  · unfold bandsBy
    rw [List.pairwise_map]
    refine List.nodup_range.imp fun {a b} hab => ?_
    intro id ha hb
    have ha' := beq_iff_eq.1 (List.mem_filter.1 ha).2
    exact hab (ha'.symm.trans (beq_iff_eq.1 (List.mem_filter.1 hb).2))

/-! ## Places -/

/-- The nodes in some bands with their places, one after the other. -/
def places (bands : List (List Text)) : Entries Placement :=
  bands.zipIdx.flatMap fun (band, depth) => band.zipIdx.map fun (id, column) => (id, ⟨depth, column⟩)

theorem ids_places (bands : List (List Text)) : (places bands).ids = bands.flatten := by
  unfold places Entries.ids
  rw [List.map_flatMap]
  have hband : ∀ p : List Text × ℕ, (p.1.zipIdx.map fun q => (q.1, Placement.mk p.2 q.2)).map Prod.fst =
      p.1 := by
    intro p
    rw [List.map_map]
    exact List.zipIdx_map_fst 0 p.1
  simp only [hband]
  rw [List.flatMap_def, List.zipIdx_map_fst]

theorem mem_places_iff {bands : List (List Text)} {id : Text} {p : Placement} :
    (id, p) ∈ places bands ↔ ∃ band, bands[p.depth]? = some band ∧ band[p.column]? = some id := by
  unfold places
  simp only [List.mem_flatMap, List.mem_map, Prod.exists, List.mk_mem_zipIdx_iff_getElem?]
  constructor
  · rintro ⟨band, depth, hband, i, column, hcolumn, heq⟩
    obtain ⟨rfl, rfl⟩ := Prod.mk.inj heq
    exact ⟨band, hband, hcolumn⟩
  · rintro ⟨band, hband, hcolumn⟩
    exact ⟨band, p.depth, hband, id, p.column, hcolumn, rfl⟩

theorem placementsOf_eq {bands : List (List Text)} (h : bands.flatten.Nodup) :
    placementsOf bands = places bands :=
  Entries.ofPairs_of_nodup ((ids_places bands).symm ▸ h)

/-! ## Layouts -/

/-- Each of some nodes stands in a cell of its own, which is its place in the band of its depth. The bands
divide the nodes and keep their order, none of them is empty, and the last one is that of the greatest depth. -/
structure Covers (l : Layout) (order : List Text) : Prop where
  ids : l.placements.ids.Perm order
  cell : ∀ id p, l.placements.get? id = some p ↔
    ∃ band, l.bands[p.depth]? = some band ∧ band[p.column]? = some id
  inj : ∀ id id' p, l.placements.get? id = some p → l.placements.get? id' = some p → id = id'
  divided : l.bands.flatten.Perm order
  band : ∀ band ∈ l.bands, band ≠ [] ∧ band.Sublist order
  depth_lt : ∀ e ∈ l.placements, e.2.depth < l.bands.length
  count : l.bands.length = 0 ∧ order = [] ∨ ∃ e ∈ l.placements, l.bands.length = e.2.depth + 1

/-- The layout with the bands of some depths. -/
def ofDepths (depth : Text → ℕ) (order : List Text) (back : List (Text × Text)) : Layout :=
  ⟨places (bandsBy depth order), bandsBy depth order, back⟩

theorem placements_ofDepths (depth : Text → ℕ) (order : List Text) (back : List (Text × Text)) :
    (ofDepths depth order back).placements = places (ofDepths depth order back).bands := rfl

section OfDepths

variable {back : List (Text × Text)} (hn : order.Nodup)

include hn

theorem get?_ofDepths_iff {id : Text} {p : Placement} :
    (ofDepths depth order back).placements.get? id = some p ↔
      ∃ band, (bandsBy depth order)[p.depth]? = some band ∧ band[p.column]? = some id := by
  refine (Entries.get?_eq_some_iff ?_).trans mem_places_iff
  show (places (bandsBy depth order)).ids.Nodup
  rw [ids_places]
  exact (perm_bandsBy hn).nodup_iff.2 hn

theorem depth_of_get? {id : Text} {p : Placement}
    (h : (ofDepths depth order back).placements.get? id = some p) : p.depth = depth id := by
  obtain ⟨band, hband, hcolumn⟩ := (get?_ofDepths_iff hn).1 h
  obtain ⟨-, rfl⟩ := getElem?_bandsBy.1 hband
  exact (beq_iff_eq.1 (List.mem_filter.1 (List.mem_of_getElem? hcolumn)).2).symm

theorem ids_ofDepths : (ofDepths depth order back).placements.ids.Perm order := by
  show (places (bandsBy depth order)).ids.Perm order
  rw [ids_places]
  exact perm_bandsBy hn

theorem covers_ofDepths (hstep : ∀ id ∈ order, ∀ d, depth id = d + 1 → ∃ u ∈ order, depth u = d) :
    (ofDepths depth order back).Covers order where
  ids := ids_ofDepths hn
  cell id p := get?_ofDepths_iff hn
  inj id id' p hid hid' := by
    obtain ⟨band, hband, hcolumn⟩ := (get?_ofDepths_iff hn).1 hid
    obtain ⟨band', hband', hcolumn'⟩ := (get?_ofDepths_iff hn).1 hid'
    obtain rfl := Option.some.inj (hband.symm.trans hband')
    exact Option.some.inj (hcolumn.symm.trans hcolumn')
  divided := perm_bandsBy hn
  band band hband := ⟨ne_nil_of_mem_bandsBy hstep hband, sublist_of_mem_bandsBy hband⟩
  depth_lt e he := by
    obtain ⟨band, hband, -⟩ := mem_places_iff.1 he
    exact (List.getElem?_eq_some_iff.1 hband).1
  count := by
    have hlength : (bandsBy depth order).length = bandTotal depth order := by simp [bandsBy]
    by_cases hzero : bandTotal depth order = 0
    · left
      refine ⟨hlength.trans hzero, List.eq_nil_iff_forall_not_mem.2 fun id hid => ?_⟩
      have := lt_bandTotal depth hid
      omega
    · right
      obtain ⟨id, hid, heq⟩ := exists_bandTotal hzero
      have hplaced : id ∈ (ofDepths depth order back).placements.ids := (ids_ofDepths hn).mem_iff.2 hid
      obtain ⟨p, hp⟩ := Entries.exists_get? hplaced
      refine ⟨(id, p), Entries.mem_of_get? hp, ?_⟩
      show (bandsBy depth order).length = p.depth + 1
      rw [hlength, heq, depth_of_get? hn hp]

end OfDepths

/-- Every graph can be laid out, by the depths of its nodes. -/
theorem ofAdjacency_eq (layering : Layering) (hn : order.Nodup) (h : ∀ id ∈ adjacency.ids, id ∈ order) :
    ∃ depths depth back, depthsBy layering order adjacency = .ok (depths, back) ∧
      (∀ id ∈ order, depths.get? id = some (depth id)) ∧
      ofAdjacency layering order adjacency = .ok (ofDepths depth order back) ∧
      (ofDepths depth order back).Covers order := by
  obtain ⟨depths, back, hdepths, hgraded⟩ := depthsBy_eq layering h
  have hget : ∀ id ∈ order, depths.get? id = some ((depths.get? id).getD 0) := by
    intro id hid
    obtain ⟨d, hd⟩ := hgraded.total id hid
    rw [hd]
    rfl
  have hlifted : ∀ id ∈ order, Entries.get? (depths.map fun e => (e.1, (e.2 : ℤ))) id =
      some (((depths.get? id).getD 0 : ℕ) : ℤ) := by
    intro id hid
    rw [Entries.get?_map, hget id hid]
    rfl
  have hbands := bandsOf_eq hlifted
  refine ⟨depths, _, back, hdepths, hget, ?_, covers_ofDepths hn fun id hid d hd => ?_⟩
  · unfold ofAdjacency
    rw [hdepths, ok_bind]
    dsimp only
    rw [hbands, ok_bind, placementsOf_eq ((perm_bandsBy hn).nodup_iff.2 hn)]
    rfl
  · obtain ⟨u, hu, hud⟩ := hgraded.step id d ((hget id hid).trans (congrArg some hd))
    exact ⟨u, hu, congrArg (Option.getD · 0) hud⟩

/-- With either way of layering, a graph whose edges start at its nodes has a layout, in which each node has the
depth that was found for it and a cell of its own. -/
theorem ofAdjacency_covers (layering : Layering) (order : List Text) (adjacency : Entries (List Text))
    (hn : order.Nodup) (h : ∀ id ∈ adjacency.ids, id ∈ order) :
    ∃ depths l, depthsBy layering order adjacency = .ok (depths, l.backEdges) ∧
      ofAdjacency layering order adjacency = .ok l ∧ l.Covers order ∧
      ∀ id p, l.placements.get? id = some p → depths.get? id = some p.depth := by
  obtain ⟨depths, depth, back, hdepths, hget, hl, hcovers⟩ := ofAdjacency_eq layering hn h
  refine ⟨depths, _, hdepths, hl, hcovers, fun id p hp => ?_⟩
  rw [depth_of_get? hn hp]
  exact hget id (hcovers.ids.mem_iff.1 (Entries.mem_ids_of_get? hp))

/-- Nodes on a cycle, an edge to its own start and a repeated edge. -/
theorem ofAdjacency_covers_cycle :
    let order : List Text := ["A", "B", "C"]
    let adjacency : Entries (List Text) := [("A", ["B", "B"]), ("B", ["C", "B"]), ("C", ["A"])]
    order.Nodup ∧ (∀ id ∈ adjacency.ids, id ∈ order) ∧
    ∃ depths l,
      depthsBy .longestPath order adjacency = .ok (depths, l.backEdges) ∧
      ofAdjacency .longestPath order adjacency = .ok l ∧
      l.Covers order ∧
      ∀ id p, l.placements.get? id = some p → depths.get? id = some p.depth :=
  ⟨by decide, by decide, ofAdjacency_covers _ _ _ (by decide) (by decide)⟩

end Flowchart.Layout
