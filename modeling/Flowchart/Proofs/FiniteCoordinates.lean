import Flowchart.Proofs.CoordinateValues
import Flowchart.Proofs.Totality

/-!
# Finite coordinates

Whether a text is parsed into a graph with finite coordinates depends on the sizes of the grid and on the cells that the
nodes get. Cell number `k` of the layout takes the draws `2 * k` and `2 * k + 1`, and all of its coordinates have to be
finite (`Session.parse_finite_iff`). Settings are accepted with sizes for which that fails.
-/

namespace Flowchart

open Position

/-! ## Positions -/

namespace Position

/-- Both coordinates of a point are finite. -/
def FinitePoint (p : Float × Float) : Prop := p.1.isFinite = true ∧ p.2.isFinite = true

namespace Grid

variable {g : Grid} {t : Twister}

/-- Both coordinates of a cell are finite when they are computed with the draws from number `k` on. -/
def FiniteCell (g : Grid) (t : Twister) (k : ℕ) (depth column : Number) : Prop :=
  g.FiniteAt column g.cellWidth (t.draw k) ∧ g.FiniteAt depth g.cellHeight (t.draw (k + 1))

theorem finite_positionFrom_iff {k : ℕ} {depth column : Number} :
    (∃ p, g.positionFrom depth column (t.draw k) (t.draw (k + 1)) = .ok p ∧ FinitePoint p) ↔
      g.FiniteCell t k depth column := by
  obtain ⟨w, hw, hbounds⟩ := t.value?_draw k
  obtain ⟨w', hw', hbounds'⟩ := t.value?_draw (k + 1)
  unfold FiniteCell
  rw [← finite_coordinateFrom_iff hw hbounds, ← finite_coordinateFrom_iff hw' hbounds']
  unfold positionFrom
  constructor
  · rintro ⟨p, hp, hx, hy⟩
    obtain ⟨x, hx', hp⟩ := of_bind_eq_ok hp
    obtain ⟨y, hy', hp⟩ := of_bind_eq_ok hp
    obtain rfl := Except.ok.inj hp
    exact ⟨⟨x, hx', hx⟩, y, hy', hy⟩
  · rintro ⟨⟨x, hx', hx⟩, y, hy', hy⟩
    exact ⟨(x, y), by rw [hx', hy']; rfl, hx, hy⟩

/-- The corner of a cell lies below the limit of the floats. -/
def FiniteCorner (g : Grid) (depth column : Number) : Prop :=
  (∃ q, column.product? g.cellWidth = some q ∧ |q| < Decimal.limit) ∧
    ∃ q, depth.product? g.cellHeight = some q ∧ |q| < Decimal.limit

theorem finiteCell_iff_corner {k : ℕ} {depth column : Number} {j : ℚ} (hj : g.jitter.value? = some j)
    (hsmall : |j| ≤ 2 ^ 968) : g.FiniteCell t k depth column ↔ g.FiniteCorner depth column := by
  obtain ⟨w, hw, hbounds⟩ := t.value?_draw k
  obtain ⟨w', hw', hbounds'⟩ := t.value?_draw (k + 1)
  exact and_congr (finiteAt_iff_corner hw hbounds hj hsmall) (finiteAt_iff_corner hw' hbounds' hj hsmall)

/-- The points of some cells are finite if those of all cells are, each with the draws of its number. -/
theorem finite_positionsFrom_iff (k : ℕ) (cells : Entries (Number × Number)) :
    (∃ points, g.positionsFrom t k cells = .ok points ∧ ∀ e ∈ points, FinitePoint e.2) ↔
      ∀ i id depth column, cells[i]? = some (id, depth, column) → g.FiniteCell t (k + 2 * i) depth column := by
  induction cells generalizing k with
  | nil => exact iff_of_true ⟨[], rfl, nofun⟩ nofun
  | cons e cells ih =>
    obtain ⟨id, depth, column⟩ := e
    have hsplit : (∃ points, g.positionsFrom t k ((id, depth, column) :: cells) = .ok points ∧
        ∀ e ∈ points, FinitePoint e.2) ↔
          (∃ p, g.positionFrom depth column (t.draw k) (t.draw (k + 1)) = .ok p ∧ FinitePoint p) ∧
            ∃ points, g.positionsFrom t (k + 2) cells = .ok points ∧ ∀ e ∈ points, FinitePoint e.2 := by
      rw [positionsFrom_cons]
      constructor
      · rintro ⟨points, hpoints, hfinite⟩
        obtain ⟨p, hp, hpoints⟩ := of_bind_eq_ok hpoints
        obtain ⟨rest, hrest, hpoints⟩ := of_bind_eq_ok hpoints
        obtain rfl := Except.ok.inj hpoints
        rw [List.forall_mem_cons] at hfinite
        exact ⟨⟨p, hp, hfinite.1⟩, rest, hrest, hfinite.2⟩
      · rintro ⟨⟨p, hp, hfinite⟩, rest, hrest, hfinite'⟩
        exact ⟨(id, p) :: rest, by rw [hp, ok_bind, hrest]; rfl, List.forall_mem_cons.2 ⟨hfinite, hfinite'⟩⟩
    rw [hsplit, finite_positionFrom_iff, ih]
    constructor
    · rintro ⟨hfirst, hrest⟩ i id' depth' column' hi
      cases i with
      | zero =>
        obtain ⟨rfl, rfl, rfl⟩ := hi
        exact hfirst
      | succ i =>
        have hnumber : k + 2 * (i + 1) = k + 2 + 2 * i := by omega
        rw [hnumber]
        exact hrest i id' depth' column' hi
    · refine fun h => ⟨h 0 id depth column rfl, fun i id' depth' column' hi => ?_⟩
      have hnumber : k + 2 + 2 * i = k + 2 * (i + 1) := by omega
      rw [hnumber]
      exact h (i + 1) id' depth' column' hi

end Grid

end Position

/-! ## Graphs -/

/-- All coordinates of a graph are finite. -/
def Graph.Finite (g : Graph) : Prop := ∀ n ∈ g.nodes, FinitePoint (n.x, n.y)

/-- The cells of a layout. -/
def Layout.cells (l : Layout) : Entries (Number × Number) :=
  l.placements.map fun (id, p) => (id, .int p.depth, .int p.column)

theorem Layout.ids_cells (l : Layout) : l.cells.ids = l.placements.ids := by
  unfold Layout.cells Entries.ids
  rw [List.map_map]
  rfl

theorem get?_of_mem_placeNodes {nodes : Entries Mention} {points : Entries (Float × Float)} {ns : List Node}
    (h : Session.placeNodes nodes points = .ok ns) {n : Node} (hn : n ∈ ns) : points.get? n.id = some (n.x, n.y) := by
  obtain ⟨⟨id, m⟩, -, hm⟩ := exists_of_mem_mapM h hn
  dsimp only at hm
  split at hm
  · next hpoint =>
    obtain rfl := Except.ok.inj hm
    exact hpoint
  · cases hm

/-- What is placed is finite if the points are, as long as each point belongs to a node. -/
theorem finite_placeNodes_iff {nodes : Entries Mention} {points : Entries (Float × Float)} {ns : List Node}
    (h : Session.placeNodes nodes points = .ok ns) (hnodes : ∀ e ∈ nodes, e.1 = e.2.id ∧ e.2.label ≠ "")
    (hperm : points.ids.Perm nodes.ids) (hnodup : nodes.ids.Nodup) :
    (∀ n ∈ ns, FinitePoint (n.x, n.y)) ↔ ∀ e ∈ points, FinitePoint e.2 := by
  constructor
  · rintro hfinite ⟨id, p⟩ he
    have hid : id ∈ nodes.ids := hperm.mem_iff.1 (List.mem_map_of_mem he)
    rw [← mentions_of_placeNodes h hnodes] at hid
    unfold Entries.ids at hid
    rw [List.map_map] at hid
    obtain ⟨n, hn, hnid⟩ := List.mem_map.1 hid
    change n.id = id at hnid
    have hget := Entries.get?_of_mem (hperm.nodup_iff.2 hnodup) he
    rw [← hnid, get?_of_mem_placeNodes h hn] at hget
    rw [← Option.some.inj hget]
    exact hfinite n hn
  · exact fun hfinite n hn => hfinite (n.id, n.x, n.y) (Entries.mem_of_get? (get?_of_mem_placeNodes h hn))

namespace Session

variable {s : Session} {t : Text} {d : Bool} {l : Layout}

/-- The nodes of a layout take two draws each. -/
theorem run_positionsOf (s : Session) (l : Layout) :
    ((s.grid.positionsOf l).run s.random).1 = s.grid.positionsFrom s.random 0 l.cells ∧
      ∀ points, s.grid.positionsFrom s.random 0 l.cells = .ok points →
        ((s.grid.positionsOf l).run s.random).2 = s.grid.after s.random (2 * l.cells.length) := by
  have htakes := s.grid.takes_positions s.random 0 l.cells
  unfold Grid.Takes at htakes
  rwa [s.grid.after_zero, Nat.zero_add] at htakes

/-- The outcome of parsing, without the session after it. -/
theorem parse_eq
    (hl : Layout.ofAdjacency s.layering (Blueprint.ofText t).order (Blueprint.ofText t).successors = .ok l) :
    (s.parse t d).1 = Except.mapError Fault.value (do
      let points ← s.grid.positionsFrom s.random 0 l.cells
      let nodes ← placeNodes (Blueprint.ofText t).nodes points
      return { nodes, edges := (Blueprint.ofText t).edges }) := by
  rw [← (s.run_positionsOf l).1]
  unfold Blueprint.ofText at hl ⊢
  unfold parse
  simp only [hl]
  rcases (s.grid.positionsOf l).run s.random with ⟨f | points, random⟩
  · rfl
  · dsimp only
    rw [ok_bind]
    cases placeNodes (Blueprint.ofLines (Line.ofText t)).nodes points <;> rfl

/-- A graph with finite coordinates is one whose points are finite. -/
theorem finite_parse_iff_points
    (hl : Layout.ofAdjacency s.layering (Blueprint.ofText t).order (Blueprint.ofText t).successors = .ok l)
    (hids : l.placements.ids.Perm (Blueprint.ofText t).order) :
    (∃ g, (s.parse t d).1 = .ok g ∧ g.Finite) ↔
      ∃ points, s.grid.positionsFrom s.random 0 l.cells = .ok points ∧ ∀ e ∈ points, FinitePoint e.2 := by
  rw [parse_eq hl]
  cases hpoints : s.grid.positionsFrom s.random 0 l.cells with
  | error f =>
    constructor
    · rintro ⟨g, ⟨⟩, -⟩
    · rintro ⟨points, ⟨⟩, -⟩
  | ok points =>
    have hperm : points.ids.Perm (Blueprint.ofText t).order := by
      rw [Grid.ids_positionsFrom hpoints, Layout.ids_cells]
      exact hids
    have hmentions : ∀ e ∈ (Blueprint.ofText t).nodes, e.1 = e.2.id ∧ e.2.label ≠ "" :=
      fun e he => (mem_nodes_ofText he).imp_right fun hm => hm.label_ne
    have hmentioned : ∀ e ∈ (Blueprint.ofText t).nodes, e.2.id ∈ points.ids := fun e he => by
      rw [hperm.mem_iff, ← (hmentions e he).1]
      exact List.mem_map_of_mem he
    obtain ⟨ns, hns⟩ := placeNodes_eq hmentioned
    have hfinite := finite_placeNodes_iff hns hmentions hperm (nodup_order_ofText t)
    rw [ok_bind, hns, ok_bind]
    constructor
    · rintro ⟨g, ⟨⟩, hg⟩
      exact ⟨points, rfl, hfinite.1 hg⟩
    · rintro ⟨_, ⟨⟩, hall⟩
      exact ⟨_, rfl, hfinite.2 hall⟩

/-- The cells of a layout are computed with finite coordinates, one after the other. -/
def FiniteCells (s : Session) (l : Layout) : Prop :=
  ∀ k id p, l.placements[k]? = some (id, p) → s.grid.FiniteCell s.random (2 * k) (.int p.depth) (.int p.column)

theorem finite_parse_iff_cells
    (hl : Layout.ofAdjacency s.layering (Blueprint.ofText t).order (Blueprint.ofText t).successors = .ok l)
    (hids : l.placements.ids.Perm (Blueprint.ofText t).order) :
    (∃ g, (s.parse t d).1 = .ok g ∧ g.Finite) ↔ s.FiniteCells l := by
  rw [finite_parse_iff_points hl hids, Grid.finite_positionsFrom_iff]
  unfold FiniteCells Layout.cells
  simp only [List.getElem?_map, Option.map_eq_some_iff, Nat.zero_add]
  constructor
  · exact fun h k id p hp => h k id _ _ ⟨(id, p), hp, rfl⟩
  · rintro h k _ _ _ ⟨⟨id, p⟩, hp, ⟨⟩⟩
    exact h k id p hp

theorem finiteCells_iff_corners {j : ℚ} (hj : s.grid.jitter.value? = some j) (hsmall : |j| ≤ 2 ^ 968) :
    s.FiniteCells l ↔ ∀ e ∈ l.placements, s.grid.FiniteCorner (.int e.2.depth) (.int e.2.column) := by
  unfold FiniteCells
  simp only [Grid.finiteCell_iff_corner hj hsmall]
  constructor
  · rintro h ⟨id, p⟩ he
    obtain ⟨k, hk⟩ := List.mem_iff_getElem?.1 he
    exact h k id p hk
  · exact fun h k id p hp => h (id, p) (List.mem_of_getElem? hp)

/-- Every text has a layout, and the text is parsed into a graph with finite coordinates exactly if each of its cells
has finite coordinates with the two draws of its number. With a jitter that is not close to the limit of the floats what
is drawn does not matter: then it takes that no corner of a cell reaches that limit, and nothing else. -/
theorem parse_finite_iff (s : Session) (t : Text) (d : Bool) :
    ∃ l, Layout.ofAdjacency s.layering (Blueprint.ofText t).order (Blueprint.ofText t).successors = .ok l ∧
      ((∃ g, (s.parse t d).1 = .ok g ∧ g.Finite) ↔ s.FiniteCells l) ∧
      ∀ j, s.grid.jitter.value? = some j → |j| ≤ 2 ^ 968 →
        ((∃ g, (s.parse t d).1 = .ok g ∧ g.Finite) ↔
          ∀ e ∈ l.placements, s.grid.FiniteCorner (.int e.2.depth) (.int e.2.column)) := by
  obtain ⟨l, hl, hids⟩ := exists_layout s.layering t
  have hcells := finite_parse_iff_cells (d := d) hl hids
  exact ⟨l, hl, hcells, fun j hj hsmall => hcells.trans (finiteCells_iff_corners hj hsmall)⟩

/-- Two cells with random offsets. -/
theorem parse_finite_iff_offsets :
    let s : Session := ⟨.firstVisit, {}, "graph TD", .ofSeed 7, none⟩
    s.grid.jitter.value? = some 25 ∧ |(25 : ℚ)| ≤ 2 ^ 968 ∧
      ∃ g, (s.parse "A --> B" false).1 = .ok g ∧ g.Finite := by
  intro s
  have hjitter : |(25 : ℚ)| ≤ 2 ^ 968 := by
    rw [abs_of_nonneg (by norm_num)]
    exact (by norm_num : (25 : ℚ) ≤ 2 ^ 5).trans (pow_le_pow_right₀ one_le_two (by decide))
  refine ⟨rfl, hjitter, ?_⟩
  obtain ⟨l, hl, -, hsmall⟩ := parse_finite_iff s "A --> B" false
  let placements : Entries Placement := ([("A", ⟨0, 0⟩), ("B", ⟨1, 0⟩)] : List (Text × Placement))
  have hplacements : l.placements = placements := by
    have hdecide : (Layout.ofAdjacency s.layering (Blueprint.ofText "A --> B").order
      (Blueprint.ofText "A --> B").successors).map Layout.placements = .ok placements := by
      decide +kernel
    rw [hl] at hdecide
    exact Except.ok.inj hdecide
  have hcorner : ∀ n m : ℤ, |(n * m : ℚ)| ≤ 2 ^ 8 →
      ∃ q, (Number.int n).product? (.int m) = some q ∧ |q| < Decimal.limit :=
    fun n m hle => ⟨_, rfl, hle.trans_lt (Decimal.two_pow_lt_limit (by decide))⟩
  refine (hsmall 25 rfl hjitter).2 ?_
  rw [hplacements]
  refine List.forall_mem_cons.2 ⟨⟨hcorner 0 300 ?_, hcorner 0 200 ?_⟩,
    List.forall_mem_cons.2 ⟨⟨hcorner 0 300 ?_, hcorner 1 200 ?_⟩, List.forall_mem_nil _⟩⟩ <;> norm_num

instance (g : Graph) : Decidable g.Finite :=
  inferInstanceAs (Decidable (∀ n ∈ g.nodes, n.x.isFinite = true ∧ n.y.isFinite = true))

/-- Settings are accepted with a width that is not a number, and with a width that no float can hold. The first node
gets a coordinate that is not a number, and with a second one beside it there is no graph. -/
theorem not_finite_of_accepted :
    let s (width : Number) : Session := ⟨.firstVisit, ⟨width, .int 200, .int 0⟩, "graph TD", randomOf none, none⟩
    (∀ width ∈ [.float (0.0 / 0.0), .int (10 ^ 400)],
      Session.ofSettings { grid := ⟨width, .int 200, .int 0⟩ } = .ok (s width)) ∧
    (∃ g, ((s (.float (0.0 / 0.0))).parse "A" false).1 = .ok g ∧ ¬ g.Finite) ∧
    ((s (.int (10 ^ 400))).parse "A\nB" false).1 = .error (.value .tooLarge) := by
  intro s
  refine ⟨?_, ?_, ?_⟩
  · have haccepted : ∀ width : Number, width.isNotPositive = false →
        Session.ofSettings { grid := ⟨width, .int 200, .int 0⟩ } = .ok (s width) := by
      intro width hwidth
      unfold ofSettings Grid.check
      dsimp only
      rw [hwidth]
      rfl
    exact List.forall_mem_cons.2 ⟨haccepted _ (by decide +kernel),
      List.forall_mem_cons.2 ⟨haccepted _ (by decide +kernel), List.forall_mem_nil _⟩⟩
  · have hbad : (((s (.float (0.0 / 0.0))).parse "A" false).1.toOption.any fun g => ¬ g.Finite) = true := by
      decide +kernel
    cases hparse : ((s (.float (0.0 / 0.0))).parse "A" false).1 with
    | error f =>
      rw [hparse] at hbad
      cases hbad
    | ok g =>
      rw [hparse] at hbad
      exact ⟨g, rfl, of_decide_eq_true hbad⟩
  · refine (parse_settled _ _ false).2 fun hfits => ?_
    obtain ⟨g, hg⟩ := (parse_settled _ _ false).1 hfits
    have hnone : ((s (.int (10 ^ 400))).parse "A\nB" false).1.toOption.isNone = true := by decide +kernel
    rw [hg] at hnone
    cases hnone

end Session

end Flowchart
