import Flowchart.Proofs.RecursiveVisits
import Mathlib.Logic.Relation

/-!
# The forest of first visits

The visits of some nodes reach exactly what can be reached from them: with a node all its successors are visited
(`Visits.closed`), and nothing else is (`Visits.reached`). A node keeps the depth of its visit
(`Visits.get?_depths`), which is zero for a root and one more than that of a predecessor otherwise (`Visits.depth`).
So the roots are the nodes that cannot be reached from earlier ones, and every other node hangs below one of its
predecessors (`firstVisitDepths_forest`).
-/

namespace Flowchart.Layout

open Relation

variable {order : List Text} {adjacency : Entries (List Text)}

namespace Visits

variable {d : ℕ} {m m' : Marks} {v x y : Text} {vs ws : List Text}

/-! ## What is visited -/

theorem visited_subset (h : Visits adjacency d m vs m') : m.visited ⊆ m'.visited := by
  induction h with
  | done => exact List.Subset.refl _
  | skip _ _ ih => exact ih
  | @visit d m m₁ m₂ v vs _ _ _ ih ih' =>
    exact List.Subset.trans (List.subset_cons_self v m.visited) (List.Subset.trans ih ih')

theorem subset_visited (h : Visits adjacency d m vs m') : vs ⊆ m'.visited := by
  induction h with
  | done => exact List.nil_subset _
  | skip hv hrest ih => exact List.cons_subset.2 ⟨hrest.visited_subset hv, ih⟩
  | visit _ hinner hrest _ ih' =>
    exact List.cons_subset.2 ⟨hrest.visited_subset (hinner.visited_subset List.mem_cons_self), ih'⟩

/-- With a node all its successors are visited. -/
theorem closed (h : Visits adjacency d m vs m') (hx : x ∈ m'.visited) (hxm : x ∉ m.visited)
    (hxy : adjacency.Adj x y) : y ∈ m'.visited := by
  induction h with
  | done => exact absurd hx hxm
  | skip _ _ ih => exact ih hx hxm
  | @visit d m m₁ m₂ v vs _ hinner hrest ih ih' =>
    by_cases hx₁ : x ∈ m₁.visited
    · apply hrest.visited_subset
      by_cases hxv : x = v
      · exact hinner.subset_visited (hxv ▸ hxy)
      · exact ih hx₁ fun h => (List.mem_cons.1 h).elim hxv hxm
    · exact ih' hx hx₁

/-- Every node that is visited can be reached from one of those with which the visits begin. -/
theorem reached (h : Visits adjacency d m vs m') (hx : x ∈ m'.visited) (hxm : x ∉ m.visited) :
    ∃ v ∈ vs, ReflTransGen adjacency.Adj v x := by
  induction h with
  | done => exact absurd hx hxm
  | skip _ _ ih =>
    obtain ⟨v, hv, hvx⟩ := ih hx hxm
    exact ⟨v, List.mem_cons_of_mem _ hv, hvx⟩
  | @visit d m m₁ m₂ v vs _ _ _ ih ih' =>
    by_cases hx₁ : x ∈ m₁.visited
    · refine ⟨v, List.mem_cons_self, ?_⟩
      by_cases hxv : x = v
      · exact hxv ▸ .refl
      · obtain ⟨w, hvw, hwx⟩ := ih hx₁ fun h => (List.mem_cons.1 h).elim hxv hxm
        exact .head hvw hwx
    · obtain ⟨w, hw, hwx⟩ := ih' hx hx₁
      exact ⟨w, List.mem_cons_of_mem v hw, hwx⟩

/-- The first visits reach exactly what can be reached. -/
theorem mem_visited_iff (h : Visits adjacency d m vs m') (hm : m.visited = []) :
    x ∈ m'.visited ↔ ∃ v ∈ vs, ReflTransGen adjacency.Adj v x := by
  have hnew : ∀ y, y ∉ m.visited := fun y hy => List.not_mem_nil (hm ▸ hy)
  constructor
  · exact fun hx => h.reached hx (hnew x)
  · rintro ⟨v, hv, hvx⟩
    induction hvx with
    | refl => exact h.subset_visited hv
    | tail _ hyz ih => exact h.closed ih (hnew _) hyz

/-- The visits of some nodes end before those of the nodes behind them begin. -/
theorem of_append (h : Visits adjacency d m (vs ++ ws) m') :
    ∃ m₁, Visits adjacency d m vs m₁ ∧ Visits adjacency d m₁ ws m' := by
  induction vs generalizing m with
  | nil => exact ⟨m, .done, h⟩
  | cons v vs ih =>
    cases h with
    | skip hv hrest =>
      obtain ⟨m₁, h₁, h₂⟩ := ih hrest
      exact ⟨m₁, .skip hv h₁, h₂⟩
    | visit hv hinner hrest =>
      obtain ⟨m₁, h₁, h₂⟩ := ih hrest
      exact ⟨m₁, .visit hv hinner h₁, h₂⟩

/-! ## Depths of visits -/

/-- The depth of a node that has been visited does not change. -/
theorem get?_depths (h : Visits adjacency d m vs m') (hx : x ∈ m.visited) :
    m'.depths.get? x = m.depths.get? x := by
  induction h with
  | done => rfl
  | skip _ _ ih => exact ih hx
  | @visit d m m₁ m₂ v vs hv hinner _ ih ih' =>
    have hxv : x ≠ v := fun hxv => hv (hxv ▸ hx)
    have hx' : x ∈ (m.mark v d).visited := List.mem_cons_of_mem v hx
    rw [ih' (hinner.visited_subset hx'), ih hx']
    show (m.depths.set v d).get? x = m.depths.get? x
    rw [Entries.get?_set, if_neg hxv]

theorem get?_marked {e : ℕ} (h : Visits adjacency e (m.mark v d) vs m') : m'.depths.get? v = some d := by
  rw [h.get?_depths List.mem_cons_self]
  show (m.depths.set v d).get? v = some d
  rw [Entries.get?_set, if_pos rfl]

theorem get?_of_not_visited (h : Visits adjacency d m vs m') (hx : x ∉ m'.visited) :
    m'.depths.get? x = m.depths.get? x := by
  induction h with
  | done => rfl
  | skip _ _ ih => exact ih hx
  | @visit d m m₁ m₂ v vs _ hinner hrest ih ih' =>
    have hx₁ : x ∉ m₁.visited := fun hx₁ => hx (hrest.visited_subset hx₁)
    have hxv : x ≠ v := fun hxv => hx₁ (hinner.visited_subset (hxv ▸ List.mem_cons_self))
    rw [ih' hx, ih hx₁]
    show (m.depths.set v d).get? x = m.depths.get? x
    rw [Entries.get?_set, if_neg hxv]

/-- A node that is visited is one with which the visits begin, at the depth at which they begin, or it comes behind
a predecessor, one deeper. -/
theorem depth (h : Visits adjacency d m vs m') (hx : x ∈ m'.visited) (hxm : x ∉ m.visited) :
    x ∈ vs ∧ m'.depths.get? x = some d ∨
      ∃ u e, u ∈ m'.visited ∧ adjacency.Adj u x ∧ d ≤ e ∧ m'.depths.get? u = some e ∧
        m'.depths.get? x = some (e + 1) := by
  induction h with
  | done => exact absurd hx hxm
  | skip _ _ ih => exact (ih hx hxm).imp_left fun h => ⟨List.mem_cons_of_mem _ h.1, h.2⟩
  | @visit d m m₁ m₂ v vs _ hinner hrest ih ih' =>
    by_cases hx₁ : x ∈ m₁.visited
    · rw [hrest.get?_depths hx₁]
      by_cases hxv : x = v
      · subst hxv
        exact Or.inl ⟨List.mem_cons_self, hinner.get?_marked⟩
      · -- visited below `v`, so behind `v` itself or behind a node below `v`
        have hv₁ : v ∈ m₁.visited := hinner.visited_subset List.mem_cons_self
        right
        rcases ih hx₁ (fun h => (List.mem_cons.1 h).elim hxv hxm) with
          ⟨hvx, hdepth⟩ | ⟨u, e, hu, hux, he, hue, hdepth⟩
        · refine ⟨v, d, hrest.visited_subset hv₁, hvx, Nat.le_refl d, ?_, hdepth⟩
          rw [hrest.get?_depths hv₁, hinner.get?_marked]
        · refine ⟨u, e, hrest.visited_subset hu, hux, Nat.le_of_succ_le he, ?_, hdepth⟩
          rw [hrest.get?_depths hu, hue]
    · exact (ih' hx hx₁).imp_left fun h => ⟨List.mem_cons_of_mem v h.1, h.2⟩

end Visits

/-! ## Depths by first visit -/

theorem exists_visits (order : List Text) (adjacency : Entries (List Text)) :
    ∃ m, Visits adjacency 0 (Marks.start order) order m ∧ firstVisitDepths order adjacency = m.depths :=
  ⟨_, visits_visitEach adjacency 0 (Marks.start order) order,
    firstVisitDepths_eq_visitEach order adjacency⟩

/-- All nodes of `order` get depths, and every node with a depth greater than zero is a successor of one with
the depth before. -/
theorem firstVisitDepths_spec (order : List Text) (adjacency : Entries (List Text)) :
    (∀ v ∈ order, ∃ d, (firstVisitDepths order adjacency).get? v = some d) ∧
      ∀ v d, (firstVisitDepths order adjacency).get? v = some (d + 1) →
        ∃ u, adjacency.Adj u v ∧ (firstVisitDepths order adjacency).get? u = some d := by
  obtain ⟨m, hvisits, hdepths⟩ := exists_visits order adjacency
  rw [hdepths]
  constructor
  · intro v hv
    rcases hvisits.depth (hvisits.subset_visited hv) List.not_mem_nil with
      ⟨-, hdepth⟩ | ⟨u, e, -, -, -, -, hdepth⟩
    · exact ⟨0, hdepth⟩
    · exact ⟨e + 1, hdepth⟩
  · intro v d hd
    have hv : v ∈ m.visited := by
      -- a node that is not visited keeps the depth zero
      by_contra hv
      rw [hvisits.get?_of_not_visited hv] at hd
      obtain ⟨_, -, hzero⟩ := List.mem_map.1 (Entries.mem_of_get?_ofPairs hd)
      exact Nat.succ_ne_zero d (Prod.mk.inj hzero).2.symm
    rcases hvisits.depth hv List.not_mem_nil with ⟨-, hdepth⟩ | ⟨u, e, -, huv, -, hu, hdepth⟩
    · exact absurd (Option.some.inj (hd.symm.trans hdepth)) (Nat.succ_ne_zero d)
    · obtain rfl : d = e := Nat.succ.inj (Option.some.inj (hd.symm.trans hdepth))
      exact ⟨u, huv, hu⟩

/-! ## Roots -/

theorem firstVisitDepths_eq_zero_iff {before after : List Text} {v : Text} (hv : v ∉ before) :
    (firstVisitDepths (before ++ v :: after) adjacency).get? v = some 0 ↔
      ∀ u ∈ before, ¬ ReflTransGen adjacency.Adj u v := by
  obtain ⟨m', hvisits, hdepths⟩ := exists_visits (before ++ v :: after) adjacency
  obtain ⟨m, hbefore, hafter⟩ := hvisits.of_append
  have hreach : v ∈ m.visited ↔ ∃ u ∈ before, ReflTransGen adjacency.Adj u v := hbefore.mem_visited_iff rfl
  have hnone : (∀ u ∈ before, ¬ ReflTransGen adjacency.Adj u v) ↔ v ∉ m.visited := by
    rw [hreach]
    push Not
    rfl
  rw [hdepths, hnone]
  constructor
  · -- reached from `before` without being in it, the node is deeper than zero and stays so
    intro hzero hvm
    rw [hafter.get?_depths hvm] at hzero
    rcases hbefore.depth hvm List.not_mem_nil with ⟨hmem, -⟩ | ⟨u, e, -, -, -, -, hdepth⟩
    · exact hv hmem
    · exact Nat.succ_ne_zero e (Option.some.inj (hdepth.symm.trans hzero))
  · intro hvm
    cases hafter with
    | skip hvm' _ => exact absurd hvm' hvm
    | visit _ hinner hrest =>
      rw [hrest.get?_depths (hinner.visited_subset List.mem_cons_self), hinner.get?_marked]

theorem mem_iff_idxOf_lt {before after : List Text} {u v : Text} (hv : v ∉ before) :
    u ∈ before ↔ (before ++ v :: after).idxOf u < (before ++ v :: after).idxOf v := by
  have hlength : (before ++ v :: after).idxOf v = before.length := by
    rw [List.idxOf_append_of_notMem hv, List.idxOf_cons_self, Nat.add_zero]
  rw [hlength]
  by_cases hu : u ∈ before
  · rw [List.idxOf_append_of_mem hu]
    exact iff_of_true hu (List.idxOf_lt_length_of_mem hu)
  · rw [List.idxOf_append_of_notMem hu]
    exact iff_of_false hu (Nat.not_lt.2 (Nat.le_add_right _ _))

/-- A node of `order` is at depth zero exactly if it cannot be reached from a node that comes before it, both taken
at their first place in `order`. To any other depth some edge leads from a node at the depth before. -/
theorem firstVisitDepths_forest (order : List Text) (adjacency : Entries (List Text)) :
    (∀ v ∈ order, (firstVisitDepths order adjacency).get? v = some 0 ↔
      ∀ u ∈ order, order.idxOf u < order.idxOf v → ¬ ReflTransGen adjacency.Adj u v) ∧
    ∀ v d, (firstVisitDepths order adjacency).get? v = some (d + 1) →
      ∃ u, adjacency.Adj u v ∧ (firstVisitDepths order adjacency).get? u = some d := by
  refine ⟨fun v hv => ?_, (firstVisitDepths_spec order adjacency).2⟩
  obtain ⟨before, after, rfl, hnot⟩ := List.eq_append_cons_of_mem hv
  rw [firstVisitDepths_eq_zero_iff hnot]
  constructor
  · exact fun h u _ hlt => h u ((mem_iff_idxOf_lt hnot).2 hlt)
  · exact fun h u hu => h u (List.mem_append_left _ hu) ((mem_iff_idxOf_lt hnot).1 hu)

end Flowchart.Layout
