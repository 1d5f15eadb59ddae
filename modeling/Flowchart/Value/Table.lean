import Flowchart.Value.Basic

/-!
# Tables

The entries of a table stand in the order in which their keys were first added. Adding a key again keeps
its place and its first spelling, and takes the new value.
-/

namespace Flowchart.Value

/-- Keys with their values, in the order of their addition. -/
abbrev Table := List (Value × Value)

namespace Table

/-- The value under `key`. -/
def find? (key : Value) : Table → Option Value
  | [] => none
  | (k, v) :: rest => if sameKey k key then some v else find? key rest

/-- The value under a name. -/
def get? (t : Table) (name : Text) : Option Value := find? (.text name) t

/-- The table with `value` under `key`, with a rule for keys. -/
def insertBy (same : KeyRule) (key value : Value) : Table → Table
  | [] => [(key, value)]
  | (k, v) :: rest =>
    if same k key then (k, value) :: rest else (k, v) :: insertBy same key value rest

/-- The table with `value` under `key`. -/
def insert (key value : Value) (t : Table) : Table := insertBy sameKey key value t

/-- The table without `key`. -/
def erase (key : Value) : Table → Table
  | [] => []
  | (k, v) :: rest => if sameKey k key then rest else (k, v) :: erase key rest

/-- The table that results from adding `entries` one after the other. -/
def ofEntries (entries : List (Value × Value)) : Table :=
  entries.foldl (fun t (k, v) => t.insert k v) []

/-! ## Names -/

@[simp] theorem sameKey_text (s t : Text) : sameKey (.text s) (.text t) = (s == t) := by
  simp [sameKey]

/-- Only a text is the same key as a text. -/
theorem eq_text_of_sameKey {k : Value} {name : Text} (h : sameKey k (.text name) = true) :
    k = .text name := by
  cases k with
  | text s => simpa using h
  | float x => cases hx : Decimal.integerValue? x <;> simp [sameKey, integer?, hx] at h
  | _ => simp [sameKey, integer?] at h

@[simp] theorem get?_nil (name : Text) : get? [] name = none := rfl

theorem get?_cons (k v : Value) (t : Table) (name : Text) :
    get? ((k, v) :: t) name = if sameKey k (.text name) then some v else get? t name := rfl

theorem get?_insert_self (t : Table) (name : Text) (v : Value) :
    (t.insert (.text name) v).get? name = some v := by
  unfold insert
  induction t with
  | nil => simp [insertBy, get?_cons]
  | cons e t ih =>
    obtain ⟨k, w⟩ := e
    by_cases h : sameKey k (.text name) = true
    · simp [insertBy, h, get?_cons]
    · simp [insertBy, h, get?_cons, ih]

theorem get?_insert_of_ne (t : Table) {name other : Text} (hne : other ≠ name) (v : Value) :
    (t.insert (.text name) v).get? other = t.get? other := by
  unfold insert
  induction t with
  | nil => simp [insertBy, get?_cons, Ne.symm hne]
  | cons e t ih =>
    obtain ⟨k, w⟩ := e
    by_cases h : sameKey k (.text name) = true
    · obtain rfl := eq_text_of_sameKey h
      simp [insertBy, get?_cons, Ne.symm hne]
    · simp [insertBy, h, get?_cons, ih]

end Table

end Flowchart.Value
