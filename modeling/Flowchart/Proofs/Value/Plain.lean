import Flowchart.Proofs.Value.Equality
import Flowchart.Text.Halves
import Flowchart.Value.Table

/-!
# Plain values

A value is plain if it has no tuples, its texts are joined, and every table in it has pairwise different texts as
keys. A JSON document holds plain values only, and holds them as they are. Adding and removing named entries keeps a
table plain, and touches nothing else in it: `Table.without` is the part that stays.
-/

namespace Flowchart.Value

mutual

/-- Whether a value has no tuples, only joined texts, and pairwise different texts as the keys of each of its
tables. -/
def isPlain : Value → Bool
  | .text s => Text.isJoined s.toList
  | .list items => arePlain items
  | .tuple _ => false
  | .table entries => arePlainEntries entries
  | _ => true

/-- Whether all of some values are plain. -/
def arePlain : List Value → Bool
  | [] => true
  | v :: vs => v.isPlain && arePlain vs

/-- Whether some entries have pairwise different, joined texts as keys and plain values. -/
def arePlainEntries : List (Value × Value) → Bool
  | [] => true
  | (.text name, v) :: t =>
    Text.isJoined name.toList && (Table.get? t name).isNone && v.isPlain && arePlainEntries t
  | _ :: _ => false

end

mutual

/-- The integers and floats in a value, keys apart. -/
def numbers : Value → List Value
  | .int n => [.int n]
  | .float x => [.float x]
  | .list items | .tuple items => numbersOfItems items
  | .table entries => numbersOfEntries entries
  | _ => []

/-- The integers and floats in some values. -/
def numbersOfItems : List Value → List Value
  | [] => []
  | v :: vs => v.numbers ++ numbersOfItems vs

/-- The integers and floats in the values of some entries. -/
def numbersOfEntries : List (Value × Value) → List Value
  | [] => []
  | (_, v) :: t => v.numbers ++ numbersOfEntries t

end

mutual

/-- A value with other values in the places of its numbers. -/
def mapNumbers (f : Value → Value) : Value → Value
  | .int n => f (.int n)
  | .float x => f (.float x)
  | .list items => .list (mapNumbersOfItems f items)
  | .tuple items => .tuple (mapNumbersOfItems f items)
  | .table entries => .table (mapNumbersOfEntries f entries)
  | v => v

/-- Some values with other values in the places of their numbers. -/
def mapNumbersOfItems (f : Value → Value) : List Value → List Value
  | [] => []
  | v :: vs => v.mapNumbers f :: mapNumbersOfItems f vs

/-- Some entries with other values in the places of the numbers of their values. -/
def mapNumbersOfEntries (f : Value → Value) : List (Value × Value) → List (Value × Value)
  | [] => []
  | (k, v) :: t => (k, v.mapNumbers f) :: mapNumbersOfEntries f t

end

variable {v n : Value} {f : Value → Value} {items : List Value} {t : Table} {name other : Text}

theorem isPlain_list : (Value.list items).isPlain = true ↔ ∀ v ∈ items, v.isPlain = true := by
  show arePlain items = true ↔ _
  induction items with
  | nil => simp [arePlain]
  | cons v vs ih => simp [arePlain, ih]

theorem mem_numbers_list : n ∈ (Value.list items).numbers ↔ ∃ v ∈ items, n ∈ v.numbers := by
  show n ∈ numbersOfItems items ↔ _
  induction items with
  | nil => simp [numbersOfItems]
  | cons v vs ih => simp [numbersOfItems, ih]

theorem mem_numbers_table : n ∈ (Value.table t).numbers ↔ ∃ e ∈ t, n ∈ e.2.numbers := by
  show n ∈ numbersOfEntries t ↔ _
  induction t with
  | nil => simp [numbersOfEntries]
  | cons e t ih => simp [numbersOfEntries, ih]

theorem of_mem_numbers (h : n ∈ v.numbers) : (∃ m, n = .int m) ∨ ∃ x, n = .float x := by
  induction v with
  | int m => exact Or.inl ⟨m, List.mem_singleton.1 h⟩
  | float x => exact Or.inr ⟨x, List.mem_singleton.1 h⟩
  | list items ih | tuple items ih =>
    obtain ⟨v, hv, hn⟩ := mem_numbers_list.1 h
    exact ih v hv hn
  | table t ih =>
    obtain ⟨e, he, hn⟩ := mem_numbers_table.1 h
    exact (ih e he).2 hn
  | _ => cases h

theorem mapNumbersOfItems_eq (f : Value → Value) (items : List Value) :
    mapNumbersOfItems f items = items.map (mapNumbers f) := by
  induction items with
  | nil => rfl
  | cons v vs ih => rw [mapNumbersOfItems, ih, List.map_cons]

theorem mapNumbers_list (f : Value → Value) (items : List Value) :
    (Value.list items).mapNumbers f = .list (items.map (mapNumbers f)) := by
  rw [mapNumbers, mapNumbersOfItems_eq]

theorem mapNumbers_table (f : Value → Value) (t : Table) :
    (Value.table t).mapNumbers f = .table (t.map fun e => (e.1, e.2.mapNumbers f)) := by
  have hentries : mapNumbersOfEntries f t = t.map fun e => (e.1, e.2.mapNumbers f) := by
    induction t with
    | nil => rfl
    | cons e t ih => rw [mapNumbersOfEntries, ih, List.map_cons]
  rw [mapNumbers, hentries]

theorem mapNumbers_id (v : Value) : v.mapNumbers id = v := by
  induction v with
  | list items ih =>
    rw [mapNumbers_list, List.map_congr_left ih, List.map_id']
  | tuple items ih =>
    rw [mapNumbers, mapNumbersOfItems_eq, List.map_congr_left ih, List.map_id']
  | table t ih =>
    have hsame : ∀ e ∈ t, (e.1, e.2.mapNumbers id) = e := fun e he => Prod.ext rfl (ih e he).2
    rw [mapNumbers_table, List.map_congr_left hsame, List.map_id']
  | _ => rfl

namespace Table

/-- Whether a table is plain. -/
def isPlain (t : Table) : Bool := arePlainEntries t

/-! ## The entries of a plain table -/

theorem isPlain_cons {k : Value} : isPlain ((k, v) :: t) = true ↔
    ∃ name, k = .text name ∧ Text.isJoined name.toList = true ∧ t.get? name = none ∧ v.isPlain = true ∧
      t.isPlain = true := by
  unfold isPlain
  cases k with
  | text name => simp [arePlainEntries, and_assoc]
  | _ => simp [arePlainEntries]

theorem isPlain_of_mem {e : Value × Value} (h : t.isPlain = true) (he : e ∈ t) : e.2.isPlain = true := by
  induction t with
  | nil => cases he
  | cons f t ih =>
    obtain ⟨name, -, -, -, hv, ht⟩ := isPlain_cons.1 h
    rcases List.mem_cons.1 he with rfl | he
    · exact hv
    · exact ih ht he

theorem get?_eq_none_iff : t.get? name = none ↔ ∀ e ∈ t, sameKey e.1 (.text name) = false := by
  induction t with
  | nil => simp
  | cons e t ih =>
    obtain ⟨k, v⟩ := e
    rw [get?_cons]
    split_ifs with h
    · simp [h]
    · simpa [h] using ih

/-- An entry under another name does not count. -/
theorem get?_concat_of_ne (hne : other ≠ name) : get? (t ++ [(.text name, v)]) other = t.get? other := by
  induction t with
  | nil =>
    rw [List.nil_append, get?_cons, if_neg (by simpa using hne.symm)]
  | cons e t ih =>
    obtain ⟨k, w⟩ := e
    rw [List.cons_append, get?_cons, get?_cons, ih]

/-- Values are looked up where they stood before they were changed. -/
theorem get?_map (f : Value → Value) : get? (t.map fun e => (e.1, f e.2)) name = (t.get? name).map f := by
  induction t with
  | nil => rfl
  | cons e t ih =>
    obtain ⟨k, w⟩ := e
    rw [List.map_cons, get?_cons, get?_cons, ih]
    split_ifs <;> rfl

/-! ## Adding an entry -/

theorem insert_cons (k w : Value) : insert (.text name) v ((k, w) :: t) =
    if sameKey k (.text name) then (k, v) :: t else (k, w) :: t.insert (.text name) v := rfl

/-- An entry under a new name comes last. -/
theorem insert_of_get?_eq_none (h : t.get? name = none) :
    t.insert (.text name) v = t ++ [(.text name, v)] := by
  induction t with
  | nil => rfl
  | cons e t ih =>
    obtain ⟨k, w⟩ := e
    rw [get?_cons] at h
    split_ifs at h with hk
    rw [insert_cons, if_neg hk, ih h, List.cons_append]

/-- An entry under a name that is there keeps its place. -/
theorem insert_of_get?_eq_some {w : Value} (h : t.get? name = some w) :
    ∃ before after, t = before ++ (.text name, w) :: after ∧
      t.insert (.text name) v = before ++ (.text name, v) :: after := by
  induction t with
  | nil => cases h
  | cons e t ih =>
    obtain ⟨k, u⟩ := e
    rw [get?_cons] at h
    split_ifs at h with hk
    · obtain rfl := eq_text_of_sameKey hk
      obtain rfl := Option.some.inj h
      exact ⟨[], t, rfl, by rw [insert_cons, if_pos hk]; rfl⟩
    · obtain ⟨before, after, ht, hinsert⟩ := ih h
      refine ⟨(k, u) :: before, after, congrArg _ ht, ?_⟩
      rw [insert_cons, if_neg hk, hinsert]
      rfl

theorem isPlain_insert (ht : t.isPlain = true) (hname : Text.isJoined name.toList = true) (hv : v.isPlain = true) :
    (t.insert (.text name) v).isPlain = true := by
  induction t with
  | nil => exact isPlain_cons.2 ⟨name, rfl, hname, rfl, hv, ht⟩
  | cons e t ih =>
    obtain ⟨k, w⟩ := e
    obtain ⟨other, rfl, hother, hnone, hw, ht⟩ := isPlain_cons.1 ht
    rw [insert_cons]
    split_ifs with hk
    · exact isPlain_cons.2 ⟨other, rfl, hother, hnone, hv, ht⟩
    · have hne : other ≠ name := by simpa using hk
      exact isPlain_cons.2 ⟨other, rfl, hother, (get?_insert_of_ne t hne v).trans hnone, hw, ih ht⟩

theorem mem_of_mem_insert {e : Value × Value} (h : e ∈ t.insert (.text name) v) : e ∈ t ∨ e.2 = v := by
  induction t with
  | nil =>
    obtain rfl := List.mem_singleton.1 h
    exact Or.inr rfl
  | cons f t ih =>
    obtain ⟨k, w⟩ := f
    rw [insert_cons] at h
    split_ifs at h with hk
    · rcases List.mem_cons.1 h with rfl | h
      · exact Or.inr rfl
      · exact Or.inl (List.mem_cons_of_mem _ h)
    · rcases List.mem_cons.1 h with rfl | h
      · exact Or.inl List.mem_cons_self
      · exact (ih h).imp_left (List.mem_cons_of_mem _)

/-! ## Removing an entry -/

theorem erase_cons (k w : Value) : erase (.text name) ((k, w) :: t) =
    if sameKey k (.text name) then t else (k, w) :: t.erase (.text name) := rfl

theorem erase_sublist (t : Table) (name : Text) : (t.erase (.text name)).Sublist t := by
  induction t with
  | nil => exact List.Sublist.refl []
  | cons e t ih =>
    obtain ⟨k, w⟩ := e
    rw [erase_cons]
    split_ifs
    · exact List.sublist_cons_self _ _
    · exact ih.cons_cons _

theorem get?_erase_of_ne (hne : other ≠ name) : (t.erase (.text name)).get? other = t.get? other := by
  induction t with
  | nil => rfl
  | cons e t ih =>
    obtain ⟨k, w⟩ := e
    rw [erase_cons]
    split_ifs with hk
    · obtain rfl := eq_text_of_sameKey hk
      rw [get?_cons, if_neg (by simpa using Ne.symm hne)]
    · rw [get?_cons, get?_cons, ih]

theorem get?_erase_self (h : t.isPlain = true) : (t.erase (.text name)).get? name = none := by
  induction t with
  | nil => rfl
  | cons e t ih =>
    obtain ⟨k, w⟩ := e
    obtain ⟨other, rfl, -, hnone, -, ht⟩ := isPlain_cons.1 h
    rw [erase_cons]
    split_ifs with hk
    · obtain rfl : other = name := by simpa using hk
      exact hnone
    · rw [get?_cons, if_neg hk, ih ht]

theorem isPlain_erase (h : t.isPlain = true) : (t.erase (.text name)).isPlain = true := by
  induction t with
  | nil => rfl
  | cons e t ih =>
    obtain ⟨k, w⟩ := e
    obtain ⟨other, rfl, hother, hnone, hw, ht⟩ := isPlain_cons.1 h
    rw [erase_cons]
    split_ifs with hk
    · exact ht
    · have hne : other ≠ name := by simpa using hk
      exact isPlain_cons.2 ⟨other, rfl, hother, (get?_erase_of_ne hne).trans hnone, hw, ih ht⟩

/-! ## All other entries -/

/-- The entries under other names than the given ones, in their order. -/
def without (names : List Text) (t : Table) : Table :=
  t.filter fun e => ! names.any fun name => sameKey e.1 (.text name)

variable {names : List Text}

theorem without_of_absent (h : ∀ name ∈ names, t.get? name = none) : t.without names = t := by
  refine List.filter_eq_self.2 fun e he => ?_
  have hnone : ∀ name ∈ names, sameKey e.1 (.text name) = false := fun name hname =>
    get?_eq_none_iff.1 (h name hname) e he
  simpa using hnone

theorem without_cons_of_mem (k : Value) (hk : sameKey k (.text name) = true) (hname : name ∈ names) :
    without names ((k, v) :: t) = t.without names :=
  List.filter_cons_of_neg (by simpa using ⟨name, hname, hk⟩)

theorem without_insert (hname : name ∈ names) :
    (t.insert (.text name) v).without names = t.without names := by
  induction t with
  | nil => exact without_cons_of_mem (.text name) (by simp) hname
  | cons e t ih =>
    obtain ⟨k, w⟩ := e
    rw [insert_cons]
    split_ifs with hk
    · rw [without_cons_of_mem k hk hname, without_cons_of_mem k hk hname]
    · unfold without at ih ⊢
      rw [List.filter_cons, List.filter_cons, ih]

theorem without_erase (hname : name ∈ names) : (t.erase (.text name)).without names = t.without names := by
  induction t with
  | nil => rfl
  | cons e t ih =>
    obtain ⟨k, w⟩ := e
    rw [erase_cons]
    split_ifs with hk
    · rw [without_cons_of_mem k hk hname]
    · unfold without at ih ⊢
      rw [List.filter_cons, List.filter_cons, ih]

end Table

end Flowchart.Value
