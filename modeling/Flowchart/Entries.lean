import Flowchart.Text.Basic

/-!
# Entries by id

Data about nodes is kept as a row of entries, each an id with its data, in the order in which the ids were
first entered. `get?` reads the data of an id; `set` changes it or enters it at the end, `add` enters it
only if there is none.
-/

namespace Flowchart

/-- Data by id, in the order of first entry. -/
abbrev Entries (α : Type) := List (Text × α)

namespace Entries

variable {α : Type}

/-- The ids that have an entry. -/
def ids (es : Entries α) : List Text := es.map Prod.fst

/-- The data of `id`. -/
def get? (es : Entries α) (id : Text) : Option α := List.lookup id es

/-- Whether `id` has an entry. -/
def has (es : Entries α) (id : Text) : Bool := es.any (·.1 == id)

/-- `es` with `a` as the data of `id`. An entry that is there keeps its place, a new one comes last. -/
def set (id : Text) (a : α) : Entries α → Entries α
  | [] => [(id, a)]
  | (i, b) :: es => if i == id then (i, a) :: es else (i, b) :: set id a es

/-- `es` with `a` as the data of `id` unless it has data already. -/
def add (es : Entries α) (id : Text) (a : α) : Entries α :=
  if es.has id then es else es ++ [(id, a)]

/-- The entries made by setting `pairs` one after the other. -/
def ofPairs (pairs : List (Text × α)) : Entries α :=
  pairs.foldl (fun es (id, a) => es.set id a) []

/-! ## Ids -/

@[simp] theorem ids_nil : ids ([] : Entries α) = [] := rfl

@[simp] theorem ids_cons (id : Text) (a : α) (es : Entries α) :
    ids ((id, a) :: es) = id :: ids es := rfl

theorem has_eq_true_iff {es : Entries α} {id : Text} : es.has id = true ↔ id ∈ es.ids := by
  simp only [has, ids, List.any_eq_true, List.mem_map, beq_iff_eq]

theorem ids_add (es : Entries α) (id : Text) (a : α) :
    (es.add id a).ids = if id ∈ es.ids then es.ids else es.ids ++ [id] := by
  unfold add
  by_cases h : es.has id = true
  · rw [if_pos h, if_pos (has_eq_true_iff.1 h)]
  · rw [if_neg h, if_neg (mt has_eq_true_iff.2 h)]
    simp [ids]

theorem ids_set (es : Entries α) (id : Text) (a : α) :
    (es.set id a).ids = if id ∈ es.ids then es.ids else es.ids ++ [id] := by
  induction es with
  | nil => simp [set]
  | cons e es ih =>
    obtain ⟨i, b⟩ := e
    by_cases h : i = id
    · simp [set, h]
    · have h' : (i == id) = false := by simpa using h
      simp only [set, h', Bool.false_eq_true, if_false, ids_cons, ih, List.mem_cons,
        Ne.symm h, false_or]
      split <;> rfl

/-! ## Data -/

@[simp] theorem get?_nil (id : Text) : get? ([] : Entries α) id = none := rfl

theorem get?_cons (i : Text) (a : α) (es : Entries α) (id : Text) :
    get? ((i, a) :: es) id = if id = i then some a else get? es id := by
  by_cases h : id = i
  · subst h
    simp [get?]
  · have h' : (id == i) = false := by simpa using h
    simp [get?, List.lookup_cons, h, h']

theorem get?_set (es : Entries α) (id : Text) (a : α) (j : Text) :
    (es.set id a).get? j = if j = id then some a else es.get? j := by
  induction es with
  | nil => simp [set, get?_cons]
  | cons e es ih =>
    obtain ⟨i, b⟩ := e
    by_cases h : i = id
    · subst h
      simp only [set, beq_self_eq_true, if_true, get?_cons]
      split <;> rfl
    · have h' : (i == id) = false := by simpa using h
      simp only [set, h', Bool.false_eq_true, if_false, get?_cons, ih]
      by_cases hj : j = i
      · simp [hj, h]
      · simp [hj]

theorem isSome_get?_iff {es : Entries α} {id : Text} : (es.get? id).isSome ↔ id ∈ es.ids := by
  induction es with
  | nil => simp
  | cons e es ih =>
    obtain ⟨i, a⟩ := e
    rw [get?_cons, ids_cons, List.mem_cons]
    split
    · next h => simp [h]
    · next h => simp [h, ih]

end Entries

end Flowchart
