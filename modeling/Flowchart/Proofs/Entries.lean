import Flowchart.Digraph
import Mathlib.Data.List.Nodup
import Mathlib.Data.List.Perm.Lattice
import Mathlib.Tactic.Common

/-!
# Rows of entries

Entries with pairwise different ids are what `get?` says of them, and setting them one after the other gives
them back in order.
-/

namespace Flowchart

namespace Entries

variable {α β : Type} {es : Entries α} {id : Text} {a : α}

theorem mem_of_get? (h : es.get? id = some a) : (id, a) ∈ es := by
  induction es with
  | nil => cases h
  | cons e es ih =>
    obtain ⟨i, b⟩ := e
    rw [get?_cons] at h
    split_ifs at h with hi
    · cases h
      exact hi ▸ List.mem_cons_self
    · exact List.mem_cons_of_mem _ (ih h)

theorem get?_of_mem (hn : es.ids.Nodup) (h : (id, a) ∈ es) : es.get? id = some a := by
  induction es with
  | nil => cases h
  | cons e es ih =>
    obtain ⟨i, b⟩ := e
    rw [ids_cons, List.nodup_cons] at hn
    rw [get?_cons]
    rcases List.mem_cons.1 h with h | h
    · cases h
      rw [if_pos rfl]
    · have hid : id ∈ ids es := List.mem_map_of_mem h
      have hne : id ≠ i := fun hi => hn.1 (hi ▸ hid)
      rw [if_neg hne, ih hn.2 h]

theorem get?_eq_some_iff (hn : es.ids.Nodup) : es.get? id = some a ↔ (id, a) ∈ es :=
  ⟨mem_of_get?, get?_of_mem hn⟩

theorem mem_ids_of_get? (h : es.get? id = some a) : id ∈ es.ids :=
  isSome_get?_iff.1 (by rw [h]; rfl)

theorem exists_get? (h : id ∈ es.ids) : ∃ a, es.get? id = some a :=
  Option.isSome_iff_exists.1 (isSome_get?_iff.2 h)

theorem mem_ids_set {j : Text} : j ∈ (es.set id a).ids ↔ j = id ∨ j ∈ es.ids := by
  rw [ids_set]
  split_ifs with h
  · exact ⟨Or.inr, fun hj => hj.elim (fun hj => hj ▸ h) (fun hj => hj)⟩
  · rw [List.mem_append, List.mem_singleton, or_comm]

theorem nodup_ids_set (h : es.ids.Nodup) : (es.set id a).ids.Nodup := by
  rw [ids_set]
  split_ifs with hid
  · exact h
  · exact h.append (List.nodup_singleton id) (by simpa using hid)

theorem set_of_not_mem (h : id ∉ es.ids) : es.set id a = es ++ [(id, a)] := by
  induction es with
  | nil => rfl
  | cons e es ih =>
    obtain ⟨i, b⟩ := e
    rw [ids_cons, List.mem_cons, not_or] at h
    have hi : (i == id) = false := by simpa using Ne.symm h.1
    rw [set, hi, ih h.2]
    rfl

/-- Entries whose ids are pairwise different are set in order. -/
theorem ofPairs_of_nodup (h : es.ids.Nodup) : ofPairs es = es := by
  suffices hfold : ∀ fs : Entries α, (∀ j ∈ es.ids, j ∉ fs.ids) →
      es.foldl (fun fs e => fs.set e.1 e.2) fs = fs ++ es from hfold [] (by simp)
  induction es with
  | nil => simp
  | cons e es ih =>
    intro fs hfs
    rw [ids_cons, List.nodup_cons] at h
    rw [List.foldl_cons, set_of_not_mem (hfs e.1 List.mem_cons_self), ih h.2, List.append_assoc]
    · rfl
    · intro j hj hmem
      have hids : (fs ++ [e]).ids = fs.ids ++ [e.1] := by simp [ids]
      rw [hids, List.mem_append, List.mem_singleton] at hmem
      rcases hmem with hmem | rfl
      · exact hfs j (List.mem_cons_of_mem _ hj) hmem
      · exact h.1 hj

/-- All data comes from the pairs that are set. -/
theorem mem_of_get?_ofPairs (h : (ofPairs es).get? id = some a) : (id, a) ∈ es := by
  suffices hfold : ∀ fs : Entries α, (es.foldl (fun fs e => fs.set e.1 e.2) fs).get? id = some a →
      fs.get? id = some a ∨ (id, a) ∈ es from (hfold [] h).resolve_left (by simp)
  clear h
  induction es with
  | nil => exact fun _ h => Or.inl h
  | cons e es ih =>
    intro fs h
    rcases ih (fs.set e.1 e.2) h with h | h
    · rw [get?_set] at h
      split_ifs at h with hid
      · obtain rfl := Option.some.inj h
        exact Or.inr (hid ▸ List.mem_cons_self)
      · exact Or.inl h
    · exact Or.inr (List.mem_cons_of_mem e h)

theorem has_concat (es : Entries α) (i : Text) (a : α) (id : Text) :
    has (es ++ [(i, a)]) id = (es.has id || i == id) := by
  unfold has
  rw [List.any_append, List.any_cons, List.any_nil, Bool.or_false]

theorem get?_map (f : α → β) (es : Entries α) (id : Text) :
    get? (es.map fun e => (e.1, f e.2)) id = (es.get? id).map f := by
  induction es with
  | nil => rfl
  | cons e es ih =>
    rw [List.map_cons, get?_cons, get?_cons, ih]
    split_ifs <;> rfl

/-! ## Successors -/

/-- `v` is listed as a successor of `u`. -/
def Adj (adjacency : Entries (List Text)) (u v : Text) : Prop := v ∈ adjacency.successorsOf u

theorem Adj.exists_get? {adjacency : Entries (List Text)} {u v : Text} (h : adjacency.Adj u v) :
    ∃ vs, adjacency.get? u = some vs ∧ v ∈ vs := by
  unfold Adj successorsOf at h
  cases hu : adjacency.get? u with
  | none => rw [hu] at h; cases h
  | some vs => rw [hu] at h; exact ⟨vs, rfl, h⟩

theorem Adj.exists_entry {adjacency : Entries (List Text)} {u v : Text} (h : adjacency.Adj u v) :
    ∃ e ∈ adjacency, e.1 = u ∧ v ∈ e.2 := by
  obtain ⟨vs, hu, hv⟩ := h.exists_get?
  exact ⟨(u, vs), mem_of_get? hu, rfl, hv⟩

theorem Adj.source_mem {adjacency : Entries (List Text)} {u v : Text} (h : adjacency.Adj u v) :
    u ∈ adjacency.ids := by
  obtain ⟨vs, hu, -⟩ := h.exists_get?
  exact mem_ids_of_get? hu

end Entries

end Flowchart
