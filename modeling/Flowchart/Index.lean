import Flowchart.Text.Basic

/-!
# Places in a list

A place is counted from zero, or from the end when it is negative: `-1` is the last place. A place at which
nothing stands is out of range, unless it is so far off that no machine word holds it.
-/

namespace Flowchart.Index

/-- Why a place denotes no item of a list. -/
inductive Fault where
  | outOfRange
  /-- the place is no signed integer of 64 bits -/
  | tooLarge
  deriving DecidableEq, Repr

/-- The wording of a fault. -/
def Fault.message : Fault → Text
  | .outOfRange => "list index out of range"
  | .tooLarge => "cannot fit 'int' into an index-sized integer"

/-- The fault of a place at which nothing stands. -/
def faultOf (i : Int) : Fault :=
  if Int64.minValue.toInt ≤ i ∧ i ≤ Int64.maxValue.toInt then .outOfRange else .tooLarge

/-- A place counted from the start of a list of `length` items. -/
def fromStart (length : Nat) (i : Int) : Int := if i < 0 then i + length else i

/-- The item that a place denotes in a list of `length` items. -/
def resolve (length : Nat) (i : Int) : Except Fault Nat :=
  if 0 ≤ fromStart length i ∧ fromStart length i < length then .ok (fromStart length i).toNat
  else .error (faultOf i)

theorem resolve_ofNat {length i : Nat} (h : i < length) : resolve length i = .ok i := by
  have hi : fromStart length i = i := if_neg (by omega)
  have hr : (0 : Int) ≤ i ∧ (i : Int) < length := by omega
  simp [resolve, hi, hr]

theorem lt_of_resolve {length j : Nat} {i : Int} (h : resolve length i = .ok j) : j < length := by
  unfold resolve at h
  split at h
  · injection h with h
    omega
  · nomatch h

end Flowchart.Index
