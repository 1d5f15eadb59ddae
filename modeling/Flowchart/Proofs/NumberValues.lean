import Flowchart.Proofs.Decimal.Integers
import Flowchart.Proofs.Positions

/-!
# The values of numbers

Numbers are rounded when they are turned into floats and when they are multiplied. For each of these computations there
is the exact number that it rounds, if it has arguments that are finite. The computation goes through with a finite
result exactly if that number lies below the limit of the floats (`Gives.exists_iff`).
-/

namespace Flowchart.Position

open Decimal

/-! ## Computations with a float as their result -/

section

variable {r s : Except Value.Fault Float} {q? : Option ℚ} {q v : ℚ}

/-- The value of what a computation results in, if that is finite. -/
def valueOf? (r : Except Value.Fault Float) : Option ℚ := r.toOption.bind value?

theorem valueOf?_eq_some_iff : valueOf? r = some v ↔ ∃ x, r = .ok x ∧ value? x = some v := by
  cases r with
  | error f =>
    constructor
    · nofun
    · rintro ⟨x, hx, -⟩
      cases hx
  | ok x =>
    constructor
    · exact fun h => ⟨x, rfl, h⟩
    · rintro ⟨y, hy, h⟩
      obtain rfl := Except.ok.inj hy
      exact h

/-- A computation rounds a number. It has to go through only if the number lies below the limit; otherwise, and if
there is no number, it has no finite result. -/
structure Gives (q? : Option ℚ) (r : Except Value.Fault Float) : Prop where
  rounds : ∀ q, q? = some q → |q| < limit → ∃ x, r = .ok x ∧ Rounds q x
  none : (∀ q, q? = some q → limit ≤ |q|) → valueOf? r = none

namespace Gives

/-- A number below the limit has a rounded value. -/
theorem exists_value (h : Gives (some q) r) (hlt : |q| < limit) : ∃ v, valueOf? r = some v ∧ Keeps q v := by
  obtain ⟨x, rfl, hrounds⟩ := h.rounds q rfl hlt
  obtain ⟨v, hv⟩ := hrounds.exists_value_iff.2 hlt
  exact ⟨v, hv, hrounds.keeps hv⟩

theorem exists_iff (h : Gives q? r) : (∃ v, valueOf? r = some v) ↔ ∃ q, q? = some q ∧ |q| < limit := by
  constructor
  · rintro ⟨v, hv⟩
    by_contra hno
    rw [h.none fun q hq => not_lt.1 fun hlt => hno ⟨q, hq, hlt⟩] at hv
    cases hv
  · rintro ⟨q, rfl, hlt⟩
    obtain ⟨v, hv, -⟩ := h.exists_value hlt
    exact ⟨v, hv⟩

/-- A float gives its value. -/
theorem ok (x : Float) : Gives (value? x) (.ok x) := by
  refine ⟨fun q hq _ => ⟨x, rfl, rounds_of_value hq⟩, fun h => ?_⟩
  show value? x = Option.none
  by_contra hsome
  obtain ⟨v, hv⟩ := Option.ne_none_iff_exists'.1 hsome
  exact absurd (abs_lt_limit hv) (not_lt.2 (h v hv))

/-- An operation that rounds, on the results of two computations. -/
theorem both {op : Float → Float → Float} {exact : ℚ → ℚ → ℚ}
    (hrounds : ∀ {x y a b}, value? x = some a → value? y = some b → Rounds (exact a b) (op x y))
    (hnone : ∀ {x y}, value? x = Option.none ∨ value? y = Option.none → value? (op x y) = Option.none) :
    Gives ((valueOf? r).bind fun a => (valueOf? s).map (exact a)) (do return op (← r) (← s)) := by
  cases r with
  | error f => exact ⟨nofun, fun _ => rfl⟩
  | ok x =>
    cases s with
    | error f =>
      show Gives ((value? x).bind fun _ => Option.none) (.error f)
      rw [Option.bind_fun_none]
      exact ⟨nofun, fun _ => rfl⟩
    | ok y =>
      show Gives ((value? x).bind fun a => (value? y).map (exact a)) (.ok (op x y))
      cases hx : value? x with
      | none =>
        refine ⟨nofun, fun _ => hnone (Or.inl hx)⟩
      | some a =>
        cases hy : value? y with
        | none => exact ⟨nofun, fun _ => hnone (Or.inr hy)⟩
        | some b =>
          show Gives (some (exact a b)) _
          refine ⟨?_, fun h => ?_⟩
          · rintro _ ⟨⟩ -
            exact ⟨_, rfl, hrounds hx hy⟩
          · show value? (op x y) = Option.none
            by_contra hsome
            have hlt := (hrounds hx hy).exists_value_iff.1 (Option.ne_none_iff_exists'.1 hsome)
            exact absurd hlt (not_lt.2 (h _ rfl))

end Gives

end

/-! ## Numbers -/

namespace Number

/-- The exact value of a number, if it is finite. -/
def value? : Number → Option ℚ
  | .int n => some n
  | .float x => Decimal.value? x

theorem gives_toFloat (a : Number) : Gives a.value? a.toFloat := by
  cases a with
  | int n =>
    show Gives (some (n : ℚ)) ((floatOfInt? n).elim (.error .tooLarge) .ok)
    obtain ⟨hnone, hlarge⟩ | ⟨x, hx, hrounds, hlt⟩ := floatOfInt?_spec n
    · rw [hnone]
      refine ⟨?_, fun _ => rfl⟩
      rintro _ ⟨⟩ hlt
      exact absurd hlt (not_lt.2 hlarge)
    · rw [hx]
      refine ⟨?_, fun h => absurd hlt (not_lt.2 (h n rfl))⟩
      rintro _ ⟨⟩ -
      exact ⟨x, rfl, hrounds⟩
  | float x => exact Gives.ok x

theorem value?_neg (a : Number) : a.neg.value? = a.value?.map (- ·) := by
  cases a with
  | int n => exact congrArg some (Int.cast_neg n)
  | float x => exact Decimal.value?_neg x

theorem gives_double (a : Number) : Gives (a.value?.map (2 * ·)) a.double.toFloat := by
  cases a with
  | int n =>
    have hdouble : (Number.int n).value?.map (2 * ·) = (Number.int (n + n)).value? := by
      show some (2 * (n : ℚ)) = some ((n + n : ℤ) : ℚ)
      rw [Int.cast_add, two_mul]
    rw [hdouble]
    exact gives_toFloat _
  | float x =>
    have hsum := Gives.both (r := .ok x) (s := .ok x) rounds_add value?_add_eq_none
    have hdouble : ((Number.float x).value?.map (2 * ·)) =
        (valueOf? (.ok x)).bind fun a => (valueOf? (.ok x)).map (a + ·) := by
      show (Decimal.value? x).map (2 * ·) = (Decimal.value? x).bind fun a => (Decimal.value? x).map (a + ·)
      cases Decimal.value? x with
      | none => rfl
      | some v => exact congrArg some (two_mul v)
    rw [hdouble]
    exact hsum

/-- The product of two numbers as it is before it is rounded: the exact one if both are integers, and otherwise the
product of two floats. -/
def product? : Number → Number → Option ℚ
  | .int m, .int n => some (m * n)
  | a, b => (valueOf? a.toFloat).bind fun x => (valueOf? b.toFloat).map (x * ·)

theorem product?_float (a : Number) (u : Float) :
    a.product? (.float u) = (valueOf? a.toFloat).bind fun x => (Decimal.value? u).map (x * ·) := by cases a <;> rfl

theorem gives_mul (a b : Number) : Gives (a.product? b) (a.mul b >>= toFloat) := by
  have hfloats : Gives ((valueOf? a.toFloat).bind fun x => (valueOf? b.toFloat).map (x * ·))
      (do return (← a.toFloat) * (← b.toFloat)) := Gives.both rounds_mul value?_mul_eq_none
  cases a with
  | float x =>
    cases b with
    | float y => exact hfloats
    | int n =>
      have hsame : ((Number.float x).mul (.int n) >>= toFloat) = do
          return (← (Number.float x).toFloat) * (← (Number.int n).toFloat) := by
        show ((do return Number.float (x * (← (Number.int n).toFloat))) >>= toFloat) = _
        cases (Number.int n).toFloat <;> rfl
      rw [hsame]
      exact hfloats
  | int m =>
    cases b with
    | float y =>
      have hsame : ((Number.int m).mul (.float y) >>= toFloat) = do
          return (← (Number.int m).toFloat) * (← (Number.float y).toFloat) := by
        rw [mul_float]
        cases (Number.int m).toFloat <;> rfl
      rw [hsame]
      exact hfloats
    | int n =>
      have hproduct : (Number.int m).product? (.int n) = (Number.int (m * n)).value? :=
        congrArg some (Int.cast_mul m n).symm
      rw [hproduct]
      exact gives_toFloat _

theorem value?_of_isZero {a : Number} (h : a.isZero = true) : a.value? = some 0 := by
  cases a with
  | int n =>
    change (n == 0) = true at h
    rw [eq_of_beq h]
    exact congrArg some Int.cast_zero
  | float x => exact value?_of_beq_zero h

end Number

end Flowchart.Position
