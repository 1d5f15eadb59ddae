import Flowchart.Proofs.FirstVisit

/-!
# Recursive visits

The walk with a stack does what a recursion does that visits a node, marks it and visits in turn those of its
successors that have not been visited by then (`firstVisitDepths_eq_visits`). The recursion ends because each visit
takes the successors of a node away (`Entries.countOutside`). What it does to the marks is given by `Visits`, rule
by rule.
-/

namespace Flowchart

/-! ## What is left to visit -/

namespace Entries

variable {visited visited' : List Text} {v : Text}

/-- The number of successors in the entries of ids outside `visited`. -/
def countOutside (adjacency : Entries (List Text)) (visited : List Text) : ℕ :=
  successorCount (adjacency.filter fun e => ! visited.contains e.1)

theorem countOutside_cons (u : Text) (vs : List Text) (adjacency : Entries (List Text))
    (visited : List Text) :
    countOutside ((u, vs) :: adjacency) visited =
      (if u ∈ visited then 0 else vs.length) + countOutside adjacency visited := by
  unfold countOutside successorCount
  by_cases hu : u ∈ visited <;> simp [hu]

theorem countOutside_anti (adjacency : Entries (List Text)) (h : visited ⊆ visited') :
    countOutside adjacency visited' ≤ countOutside adjacency visited := by
  induction adjacency with
  | nil => exact Nat.le_refl 0
  | cons e adjacency ih =>
    obtain ⟨u, vs⟩ := e
    rw [countOutside_cons, countOutside_cons]
    refine Nat.add_le_add ?_ ih
    by_cases hu : u ∈ visited
    · rw [if_pos (h hu)]
      exact Nat.zero_le _
    · rw [if_neg hu]
      split_ifs
      · exact Nat.zero_le _
      · exact Nat.le_refl _

/-- The visit of `v` takes its successors away. -/
theorem countOutside_visit (adjacency : Entries (List Text)) (hv : v ∉ visited) :
    (successorsOf adjacency v).length + countOutside adjacency (v :: visited) ≤
      countOutside adjacency visited := by
  induction adjacency with
  | nil => exact Nat.le_refl 0
  | cons e adjacency ih =>
    obtain ⟨u, vs⟩ := e
    have hanti := countOutside_anti adjacency (List.subset_cons_self v visited)
    unfold successorsOf at ih ⊢
    rw [countOutside_cons, countOutside_cons, get?_cons]
    by_cases hu : v = u
    · subst hu
      simp only [if_true, Option.getD_some, List.mem_cons_self, hv, if_false]
      omega
    · simp only [hu, if_false, List.mem_cons, Ne.symm hu, false_or]
      omega

end Entries

namespace Layout

variable {adjacency : Entries (List Text)}

/-! ## The recursion -/

/-- The nodes that have been visited, and the depths of all nodes. -/
structure Marks where
  visited : List Text
  depths : Entries ℕ

/-- Marks `v` as visited and sets its depth. -/
def Marks.mark (m : Marks) (v : Text) (d : ℕ) : Marks := ⟨v :: m.visited, m.depths.set v d⟩

/-- The marks before the first visit, with every node at depth zero. -/
def Marks.start (order : List Text) : Marks := ⟨[], Entries.ofPairs (order.map (·, 0))⟩

/-- Visits each of some nodes at depth `d` unless it has been visited by then. With a node its successors are
visited in the same way, one deeper, before the next of the nodes. -/
def visitEach (adjacency : Entries (List Text)) (d : ℕ) (m : Marks) (vs : List Text) :
    {m' : Marks // m.visited ⊆ m'.visited} :=
  match vs with
  | [] => ⟨m, List.Subset.refl _⟩
  | v :: vs =>
    if _h : v ∈ m.visited then visitEach adjacency d m vs
    else
      let ⟨inner, hinner⟩ := visitEach adjacency (d + 1) (m.mark v d) (adjacency.successorsOf v)
      let ⟨rest, hrest⟩ := visitEach adjacency d inner vs
      ⟨rest, fun _ hx => hrest (hinner (List.mem_cons_of_mem v hx))⟩
termination_by adjacency.countOutside m.visited + vs.length
decreasing_by
  · simp only [List.length_cons]
    omega
  · have := adjacency.countOutside_visit _h
    simp only [Marks.mark, List.length_cons]
    omega
  · have := adjacency.countOutside_anti fun _ hx => hinner (List.mem_cons_of_mem v hx)
    simp only [List.length_cons]
    omega

/-- The visit of `v` at depth `d`. -/
def visit (adjacency : Entries (List Text)) (m : Marks) (v : Text) (d : ℕ) : Marks :=
  (visitEach adjacency (d + 1) (m.mark v d) (adjacency.successorsOf v)).1

theorem visitEach_cons (adjacency : Entries (List Text)) (d : ℕ) (m : Marks) (v : Text)
    (vs : List Text) :
    (visitEach adjacency d m (v :: vs)).1 =
      (visitEach adjacency d (if v ∈ m.visited then m else visit adjacency m v d) vs).1 := by
  rw [visitEach]
  by_cases hv : v ∈ m.visited
  · rw [dif_pos hv, if_pos hv]
  · rw [dif_neg hv, if_neg hv]
    rfl

theorem visitEach_eq_foldl (adjacency : Entries (List Text)) (d : ℕ) (m : Marks) (vs : List Text) :
    (visitEach adjacency d m vs).1 =
      vs.foldl (fun m v => if v ∈ m.visited then m else visit adjacency m v d) m := by
  induction vs generalizing m with
  | nil => rw [visitEach, List.foldl_nil]
  | cons v vs ih => rw [List.foldl_cons, ← ih, visitEach_cons]

/-- The visits of some nodes at depth `d`, from some marks to others. -/
inductive Visits (adjacency : Entries (List Text)) : ℕ → Marks → List Text → Marks → Prop
  | done {d m} : Visits adjacency d m [] m
  | skip {d m m' v vs} : v ∈ m.visited → Visits adjacency d m vs m' → Visits adjacency d m (v :: vs) m'
  | visit {d m m₁ m₂ v vs} : v ∉ m.visited →
      Visits adjacency (d + 1) (m.mark v d) (adjacency.successorsOf v) m₁ → Visits adjacency d m₁ vs m₂ →
      Visits adjacency d m (v :: vs) m₂

theorem visits_visitEach (adjacency : Entries (List Text)) (d : ℕ) (m : Marks) (vs : List Text) :
    Visits adjacency d m vs (visitEach adjacency d m vs).1 := by
  fun_induction visitEach adjacency d m vs with
  | case1 => exact .done
  | case2 d m v vs hv ih => exact .skip hv ih
  | case3 d m v vs hv inner _ hinner rest _ hrest ih ih' =>
    rw [hinner] at ih
    rw [hrest] at ih'
    exact .visit hv ih ih'

/-! ## Walks and visits -/

namespace Walk

variable {w : Walk} {d : ℕ}

/-- The marks that the walks have made. -/
def marks (w : Walk) : Marks := ⟨w.visited, w.depths⟩

/-- From the same marks, the walk over some nodes at one depth comes to the marks of the recursion. -/
theorem Untaken.marks_run {m' : Marks} {vs : List Text} (h : w.Untaken adjacency)
    (hvisits : Visits adjacency d w.marks vs m') : (w.run (vs.map (·, d))).marks = m' := by
  generalize hm : w.marks = m at hvisits
  induction hvisits generalizing w with
  | done => rw [List.map_nil, run_nil, hm]
  | skip hv _ ih =>
    subst hm
    rw [List.map_cons, run_skip hv, ih h rfl]
  | @visit d m m₁ m₂ v vs hv _ _ ih ih' =>
    subst hm
    have hvisit := h.visit v d
    have hinner := ih hvisit rfl
    rw [List.map_cons, run_visit hv, run_append, h.run_children hv, ih' (hvisit.run _) hinner]

end Walk

/-! ## Depths by recursion -/

theorem firstVisitDepths_eq_visitEach (order : List Text) (adjacency : Entries (List Text)) :
    firstVisitDepths order adjacency = (visitEach adjacency 0 (Marks.start order) order).1.depths := by
  have h : (Walk.start order adjacency).Untaken adjacency := fun _ _ => rfl
  unfold firstVisitDepths
  rw [Walk.foldl_run]
  exact congrArg Marks.depths (h.marks_run (visits_visitEach adjacency 0 (Marks.start order) order))

/-- The visit of a node marks it, sets its depth and visits in turn, one deeper, those of its successors that have
not been visited by then. The depths are those that come of visiting at depth zero, in turn, the nodes of `order`
that have not been visited by then, where all nodes of `order` are at depth zero at first. The entries are in the
same order as well. -/
theorem firstVisitDepths_eq_visits (order : List Text) (adjacency : Entries (List Text)) :
    (∀ m v d, visit adjacency m v d =
      (adjacency.successorsOf v).foldl
        (fun m child => if child ∈ m.visited then m else visit adjacency m child (d + 1)) (m.mark v d)) ∧
    firstVisitDepths order adjacency =
      (order.foldl (fun m root => if root ∈ m.visited then m else visit adjacency m root 0)
        (Marks.start order)).depths := by
  refine ⟨fun m v d => visitEach_eq_foldl adjacency (d + 1) (m.mark v d) (adjacency.successorsOf v), ?_⟩
  rw [firstVisitDepths_eq_visitEach, visitEach_eq_foldl]

end Layout

end Flowchart
