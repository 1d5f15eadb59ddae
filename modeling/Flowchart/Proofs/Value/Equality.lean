import Flowchart.Value.Basic
import Mathlib.Data.List.Basic
import Mathlib.Tactic.Common

/-!
# Equality of values

Values are compared part by part, so equality of values can be decided.
-/

namespace Flowchart.Value

/-- Induction over values. What holds of all parts of a list, tuple or table must hold of the whole. -/
@[elab_as_elim, induction_eliminator]
theorem induct {motive : Value → Prop} (null : motive .null) (bool : ∀ b, motive (.bool b))
    (int : ∀ n, motive (.int n)) (float : ∀ x, motive (.float x)) (text : ∀ s, motive (.text s))
    (list : ∀ items, (∀ v ∈ items, motive v) → motive (.list items))
    (tuple : ∀ items, (∀ v ∈ items, motive v) → motive (.tuple items))
    (table : ∀ entries, (∀ e ∈ entries, motive e.1 ∧ motive e.2) → motive (.table entries)) (v : Value) :
    motive v :=
  @Value.rec motive (fun vs => ∀ v ∈ vs, motive v) (fun t => ∀ e ∈ t, motive e.1 ∧ motive e.2)
    (fun e => motive e.1 ∧ motive e.2) null bool int float text list tuple table
    (List.forall_mem_nil _) (fun _ _ hv hvs => List.forall_mem_cons.2 ⟨hv, hvs⟩)
    (List.forall_mem_nil _) (fun _ _ he ht => List.forall_mem_cons.2 ⟨he, ht⟩)
    (fun _ _ hk hv => ⟨hk, hv⟩) v

mutual

/-- Whether two values are equal, part by part. -/
def same : Value → Value → Bool
  | .null, .null => true
  | .bool a, .bool b => a == b
  | .int m, .int n => m == n
  | .float x, .float y => decide (x = y)
  | .text s, .text t => s == t
  | .list xs, .list ys | .tuple xs, .tuple ys => sameItems xs ys
  | .table s, .table t => sameEntries s t
  | _, _ => false

/-- Whether two rows of values are equal. -/
def sameItems : List Value → List Value → Bool
  | [], [] => true
  | v :: vs, w :: ws => same v w && sameItems vs ws
  | _, _ => false

/-- Whether two rows of entries are equal. -/
def sameEntries : List (Value × Value) → List (Value × Value) → Bool
  | [], [] => true
  | (k, v) :: s, (l, w) :: t => same k l && same v w && sameEntries s t
  | _, _ => false

end

theorem sameItems_iff {vs : List Value} (h : ∀ v ∈ vs, ∀ w, same v w = true ↔ v = w) (ws : List Value) :
    sameItems vs ws = true ↔ vs = ws := by
  induction vs generalizing ws with
  | nil => cases ws <;> simp [sameItems]
  | cons v vs ih =>
    rw [List.forall_mem_cons] at h
    cases ws with
    | nil => simp [sameItems]
    | cons w ws => simp [sameItems, h.1, ih h.2]

theorem sameEntries_iff {s : List (Value × Value)}
    (h : ∀ e ∈ s, (∀ w, same e.1 w = true ↔ e.1 = w) ∧ ∀ w, same e.2 w = true ↔ e.2 = w)
    (t : List (Value × Value)) : sameEntries s t = true ↔ s = t := by
  induction s generalizing t with
  | nil => cases t <;> simp [sameEntries]
  | cons e s ih =>
    rw [List.forall_mem_cons] at h
    cases t with
    | nil => simp [sameEntries]
    | cons f t => simp [sameEntries, h.1.1, h.1.2, ih h.2, Prod.ext_iff]

theorem same_iff (v w : Value) : same v w = true ↔ v = w := by
  induction v generalizing w with
  | null => cases w <;> simp [same]
  | bool b => cases w <;> simp [same]
  | int n => cases w <;> simp [same]
  | float x => cases w <;> simp [same]
  | text s => cases w <;> simp [same]
  | list items ih => cases w <;> simp [same, sameItems_iff ih]
  | tuple items ih => cases w <;> simp [same, sameItems_iff ih]
  | table t ih => cases w <;> simp [same, sameEntries_iff ih]

instance : DecidableEq Value := fun v w => decidable_of_iff _ (same_iff v w)

end Flowchart.Value
