import Flowchart.Disk
import Flowchart.Proofs.Outcome
import Mathlib.Data.List.Basic
import Mathlib.Tactic.Common

/-!
# Written files

A file that has been written is read with its new content, and can be written again: the way to it leads through
directories only, none of which a write touches.
-/

namespace Flowchart.Disk

variable {d d' : Disk} {path : String} {place other : List String} {content : List UInt8} {item : Item}

/-! ## Items -/

theorem item?_of_ne_nil (h : place ≠ []) : d.item? place = d.items.lookup place := by
  unfold item?
  rw [if_neg (by simpa using h)]

theorem lookup_cons_eq (e : List String × Item) (items : List (List String × Item)) :
    (e :: items).lookup other = if other = e.1 then some e.2 else items.lookup other := by
  rw [List.lookup_cons]
  by_cases h : other = e.1
  · rw [if_pos h, beq_iff_eq.2 h]
  · rw [if_neg h, beq_eq_false_iff_ne.2 h]

theorem lookup_map_replace {items : List (List String × Item)} (h : items.any (·.1 == place) = true) :
    (items.map fun e => if e.1 == place then (place, item) else e).lookup place = some item := by
  induction items with
  | nil => cases h
  | cons e items ih =>
    rw [List.map_cons, lookup_cons_eq]
    by_cases he : e.1 = place
    · simp [he]
    · rw [List.any_cons, Bool.or_eq_true, beq_iff_eq, or_iff_right he] at h
      rw [if_neg (mt beq_iff_eq.1 he), if_neg (Ne.symm he), ih h]

theorem lookup_map_replace_of_ne (items : List (List String × Item)) (hne : other ≠ place) :
    (items.map fun e => if e.1 == place then (place, item) else e).lookup other = items.lookup other := by
  induction items with
  | nil => rfl
  | cons e items ih =>
    rw [List.map_cons, lookup_cons_eq, lookup_cons_eq, ih]
    by_cases he : e.1 = place
    · simp [he, hne]
    · rw [if_neg (mt beq_iff_eq.1 he)]

/-- What is put at a place stands there. -/
theorem item?_put (h : place ≠ []) : (d.put place item).item? place = some item := by
  rw [item?_of_ne_nil h]
  unfold put
  dsimp only
  split_ifs with hany
  · exact lookup_map_replace hany
  · have hnone : d.items.lookup place = none := by
      refine List.lookup_eq_none_iff.2 fun e he => ?_
      by_contra hsame
      have heq : place = e.1 := by simpa using hsame
      exact hany (List.any_eq_true.2 ⟨e, he, beq_iff_eq.2 heq.symm⟩)
    rw [List.lookup_append, hnone, lookup_cons_eq, if_pos rfl]
    rfl

/-- Other places keep what stands there. -/
theorem item?_put_of_ne (hne : other ≠ place) : (d.put place item).item? other = d.item? other := by
  by_cases hnil : other = []
  · subst hnil
    rfl
  · rw [item?_of_ne_nil hnil, item?_of_ne_nil hnil]
    unfold put
    dsimp only
    split_ifs
    · exact lookup_map_replace_of_ne d.items hne
    · rw [List.lookup_append, lookup_cons_eq, if_neg hne]
      exact Option.or_none

/-! ## Ways -/

/-- A way is the same after a file has been put where there was no directory. -/
theorem walk_put (hplace : d.item? place ≠ some .directory) {start target : List String} {names : List String}
    (h : d.walk path start names = .ok target) :
    (d.put place (.file content)).walk path start names = .ok target := by
  induction names generalizing start with
  | nil => exact h
  | cons name names ih =>
    rw [walk] at h ⊢
    split at h
    · next hdir =>
      have hne : start ≠ place := by
        rintro rfl
        exact hplace hdir
      rw [item?_put_of_ne hne, hdir]
      dsimp only
      split_ifs at h ⊢
      exact ih h
    · cases h
    · cases h

/-! ## Files -/

/-- A path leads to a place for a file: a file stands there, or nothing. -/
structure LeadsToFile (d : Disk) (path : String) (place : List String) : Prop where
  resolve : d.resolveFile path = .ok place
  vacant : d.item? place ≠ some .directory

theorem LeadsToFile.ne_nil (h : d.LeadsToFile path place) : place ≠ [] := by
  rintro rfl
  exact h.vacant rfl

theorem write_eq (h : d.LeadsToFile path place) (content : List UInt8) :
    d.write path content = .ok (d.put place (.file content)) := by
  unfold write
  rw [h.resolve, ok_bind]
  split
  · next hdir => exact absurd hdir h.vacant
  · rfl

theorem exists_leadsToFile (h : d.write path content = .ok d') : ∃ place, d.LeadsToFile path place := by
  obtain ⟨place, hplace, h⟩ := of_bind_eq_ok h
  refine ⟨place, hplace, fun hdir => ?_⟩
  rw [hdir] at h
  cases h

theorem LeadsToFile.walk (h : d.LeadsToFile path place) :
    checkPath path = .ok () ∧ Path.endsInSlash path = false ∧ d.walk path [] (Path.names path) = .ok place := by
  obtain ⟨u, hcheck, h⟩ := of_bind_eq_ok h.resolve
  refine ⟨hcheck, ?_⟩
  split_ifs at h with hslash
  · obtain ⟨_, -, h⟩ := of_bind_eq_ok h
    cases h
  · exact ⟨by simpa using hslash, h⟩

theorem leadsToFile_of_walk (hcheck : checkPath path = .ok ()) (hslash : Path.endsInSlash path = false)
    (hwalk : d.walk path [] (Path.names path) = .ok place) (hvacant : d.item? place ≠ some .directory) :
    d.LeadsToFile path place := by
  refine ⟨?_, hvacant⟩
  unfold resolveFile
  rw [hcheck, ok_bind, hslash]
  exact hwalk

/-- The way to a file leads there after the file has been written. -/
theorem LeadsToFile.put (h : d.LeadsToFile path place) (content : List UInt8) :
    (d.put place (.file content)).LeadsToFile path place := by
  obtain ⟨hcheck, hslash, hwalk⟩ := h.walk
  refine leadsToFile_of_walk hcheck hslash (walk_put h.vacant hwalk) ?_
  rw [item?_put h.ne_nil]
  nofun

theorem resolve_of_leadsToFile (h : d.LeadsToFile path place) : d.resolve path = .ok place := by
  obtain ⟨hcheck, hslash, hwalk⟩ := h.walk
  unfold Disk.resolve Path.steps
  rw [hcheck, ok_bind, hslash]
  exact hwalk

theorem read_put (h : d.LeadsToFile path place) (content : List UInt8) :
    (d.put place (.file content)).read path = .ok content := by
  unfold read
  rw [resolve_of_leadsToFile (h.put content), ok_bind, item?_put h.ne_nil]
  rfl

/-- Something stands where a file can be read. -/
theorem occupied_of_read (h : d.read path = .ok content) : d.occupied path = .ok true := by
  obtain ⟨place, hplace, h⟩ := of_bind_eq_ok h
  unfold occupied
  rw [hplace]
  cases hitem : d.item? place with
  | none =>
    rw [hitem] at h
    cases h
  | some item =>
    dsimp only
    rw [hitem]
    rfl

theorem occupied_put (h : d.LeadsToFile path place) (content : List UInt8) :
    (d.put place (.file content)).occupied path = .ok true :=
  occupied_of_read (read_put h content)

end Flowchart.Disk
