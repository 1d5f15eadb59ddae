import Flowchart.Layout.FirstVisit
import Flowchart.Proofs.Entries

/-!
# Walks with a stack

What lies on top of the stack is worked off before the rest (`Walk.run_append`). A node may stand on the stack
several times, but only its topmost entry counts, so that nodes that have been visited might as well be put there
(`Walk.run_filter`).
-/

namespace Flowchart.Layout

variable {adjacency pending : Entries (List Text)} {v x : Text}

/-! ## Taking successors out -/

theorem takeSuccessors_fst (v : Text) (pending : Entries (List Text)) :
    (takeSuccessors v pending).1 = pending.successorsOf v := by
  fun_induction takeSuccessors v pending with
  | case1 => rfl
  | case2 u vs pending hu =>
    unfold Entries.successorsOf
    rw [Entries.get?_cons, if_pos (beq_iff_eq.1 hu).symm]
    rfl
  | case3 u vs pending hu found rest heq ih =>
    rw [heq] at ih
    unfold Entries.successorsOf at ih ⊢
    rw [Entries.get?_cons, if_neg (Ne.symm (by simpa using hu)), ih]

theorem successorsOf_takeSuccessors (hx : x ≠ v) (pending : Entries (List Text)) :
    (takeSuccessors v pending).2.successorsOf x = pending.successorsOf x := by
  fun_induction takeSuccessors v pending with
  | case1 => rfl
  | case2 u vs pending hu =>
    unfold Entries.successorsOf
    rw [Entries.get?_cons, if_neg fun hxu => hx (hxu.trans (beq_iff_eq.1 hu))]
  | case3 u vs pending hu found rest heq ih =>
    rw [heq] at ih
    unfold Entries.successorsOf at ih ⊢
    rw [Entries.get?_cons, Entries.get?_cons]
    split_ifs
    · rfl
    · exact ih

namespace Walk

variable {w : Walk} {stack rest : List (Text × ℕ)} {d : ℕ}

/-! ## The stack -/

theorem run_nil (w : Walk) : w.run [] = w := by rw [run]

theorem run_skip (hv : v ∈ w.visited) : w.run ((v, d) :: rest) = w.run rest := by
  rw [run, if_pos (by simpa using hv)]

theorem run_visit (hv : v ∉ w.visited) :
    w.run ((v, d) :: rest) = (w.visit v d).run (w.children v d ++ rest) := by
  rw [run, if_neg (by simpa using hv)]

/-- What lies on top of the stack is worked off before the rest. -/
theorem run_append (w : Walk) (stack rest : List (Text × ℕ)) :
    w.run (stack ++ rest) = (w.run stack).run rest := by
  fun_induction Walk.run w stack with
  | case1 w => rfl
  | case2 w v d stack hv ih => rw [List.cons_append, run_skip (by simpa using hv), ih]
  | case3 w v d stack hv ih =>
    rw [List.cons_append, run_visit (by simpa using hv), ← List.append_assoc, ih]

theorem run_cons (w : Walk) (entry : Text × ℕ) (rest : List (Text × ℕ)) :
    w.run (entry :: rest) = (w.run [entry]).run rest := run_append w [entry] rest

theorem visited_subset_run (w : Walk) (stack : List (Text × ℕ)) :
    w.visited ⊆ (w.run stack).visited := by
  fun_induction Walk.run w stack with
  | case1 w => exact List.Subset.refl _
  | case2 w v d stack hv ih => exact ih
  | case3 w v d stack hv ih => exact List.Subset.trans (List.subset_cons_self v w.visited) ih

/-- It makes no difference whether nodes that have been visited are put on the stack. -/
theorem run_filter {seen : List Text} (hs : seen ⊆ w.visited) (vs : List Text) (d : ℕ) :
    w.run ((vs.filter (! seen.contains ·)).map (·, d)) = w.run (vs.map (·, d)) := by
  induction vs generalizing w with
  | nil => rfl
  | cons v vs ih =>
    rw [List.map_cons, List.filter_cons]
    by_cases hv : v ∈ seen
    · rw [run_skip (hs hv), ← ih hs, if_neg (by simpa using hv)]
    · have hs' := List.Subset.trans hs (visited_subset_run w [(v, d)])
      rw [if_pos (by simpa using hv), List.map_cons, run_cons, ih hs', ← run_cons]

/-- Walks from some roots are one walk with the roots on the stack. -/
theorem foldl_run (w : Walk) (roots : List Text) :
    roots.foldl (fun w root => w.run [(root, 0)]) w = w.run (roots.map (·, 0)) := by
  induction roots generalizing w with
  | nil => rw [List.map_nil, run_nil, List.foldl_nil]
  | cons root roots ih => rw [List.foldl_cons, ih, List.map_cons, ← run_cons]

/-! ## Successors that have not been taken -/

/-- Nodes that have not been visited have all their successors left. -/
def Untaken (adjacency : Entries (List Text)) (w : Walk) : Prop :=
  ∀ v ∉ w.visited, w.pending.successorsOf v = adjacency.successorsOf v

theorem Untaken.visit (h : w.Untaken adjacency) (v : Text) (d : ℕ) : (w.visit v d).Untaken adjacency := by
  intro x hx
  obtain ⟨hxv, hx⟩ := not_or.1 (mt List.mem_cons.2 hx)
  exact (successorsOf_takeSuccessors hxv w.pending).trans (h x hx)

theorem Untaken.run (h : w.Untaken adjacency) (stack : List (Text × ℕ)) :
    (w.run stack).Untaken adjacency := by
  fun_induction Walk.run w stack with
  | case1 => exact h
  | case2 w v d rest hv ih => exact ih h
  | case3 w v d rest hv ih => exact ih (h.visit v d)

/-- After the visit of a node the walk goes through its successors. -/
theorem Untaken.run_children (h : w.Untaken adjacency) (hv : v ∉ w.visited) :
    (w.visit v d).run (w.children v d) =
      (w.visit v d).run ((adjacency.successorsOf v).map (·, d + 1)) := by
  rw [← h v hv, ← takeSuccessors_fst]
  exact run_filter (List.Subset.refl _) _ _

end Walk

end Flowchart.Layout
