import Mathlib.Algebra.Order.Field.Power
import Mathlib.Algebra.Order.Field.Rat
import Mathlib.Tactic.Linarith
import Mathlib.Tactic.Positivity
import Mathlib.Tactic.Ring

/-!
# Rounding to the nearest

A mantissa that is shifted to the right keeps two bits of what it loses, and these are enough to tell the nearest whole
number (`Shows.nearest`). A magnitude is rounded to a whole number of units in its last place (`RoundsTo`). The result
is finite exactly if the magnitude lies below a limit that is no float itself (`RoundsTo.isSome_iff`).
-/

namespace Flowchart.Decimal

open Float.Model Float.Model.UnpackedFloat

/-- The whole number next to `x`; of two that are equally near, the even one. -/
structure Nearest (n : ℕ) (x : ℚ) : Prop where
  near : |x - n| ≤ 1 / 2
  even : |x - n| = 1 / 2 → Even n

namespace Nearest

variable {n k : ℕ} {x : ℚ}

theorem le_of_le (h : Nearest n x) (hk : x ≤ k) : n ≤ k := by
  have hnear := (abs_le.1 h.near).1
  have hlt : (n : ℚ) < k + 1 := by linarith
  exact Nat.lt_succ_iff.1 (by exact_mod_cast hlt)

theorem ge_of_ge (h : Nearest n x) (hk : k ≤ x) : k ≤ n := by
  have hnear := (abs_le.1 h.near).2
  have hlt : (k : ℚ) < n + 1 := by linarith
  exact Nat.lt_succ_iff.1 (by exact_mod_cast hlt)

/-- What lies halfway below an even number is rounded up to it. -/
theorem lt_iff (h : Nearest n x) (hk : Even k) : n < k ↔ x < k - 1 / 2 := by
  constructor
  · intro hn
    have hn' : (n : ℚ) + 1 ≤ k := by exact_mod_cast hn
    have hle : x ≤ n + 1 / 2 := by linarith [(abs_le.1 h.near).2]
    refine lt_of_le_of_ne (by linarith) fun heq => ?_
    -- a tie, with an odd number
    have htie : x - n = 1 / 2 := by linarith
    have hsucc : k = n + 1 := by
      have : (k : ℚ) = n + 1 := by linarith
      exact_mod_cast this
    have heven := h.even (by rw [htie]; norm_num)
    rw [hsucc] at hk
    exact absurd heven (by rw [Nat.even_add_one] at hk; exact hk)
  · intro hx
    have hlt : (n : ℚ) < k := by linarith [(abs_le.1 h.near).1]
    exact_mod_cast hlt

end Nearest

/-! ## Shifting -/

/-- Whether `x` has a whole part and, behind it, what two bits say of the rest: whether it is at least a half, and
whether it is something else than zero or a half. -/
def Shows : ExtendedMantissa → ℚ → Prop
  | ⟨m, false, false⟩, x => x = m
  | ⟨m, false, true⟩, x => m < x ∧ x < m + 1 / 2
  | ⟨m, true, false⟩, x => x = m + 1 / 2
  | ⟨m, true, true⟩, x => m + 1 / 2 < x ∧ x < m + 1

namespace Shows

variable {em : ExtendedMantissa} {x : ℚ}

theorem nearest (h : Shows em x) : Nearest em.roundedMantissa x := by
  obtain ⟨m, _ | _, _ | _⟩ := em
  · show Nearest m x
    obtain rfl : x = m := h
    exact ⟨by simp, by norm_num⟩
  · show Nearest m x
    obtain ⟨hlow, hhigh⟩ := h
    have habs : |x - m| = x - m := abs_of_nonneg (by linarith)
    exact ⟨by linarith, fun htie => by linarith⟩
  · show Nearest (m + m % 2) x
    obtain rfl : x = m + 1 / 2 := h
    obtain heven | hodd := Nat.even_or_odd m
    · rw [Nat.even_iff.1 heven]
      exact ⟨by rw [abs_of_nonneg (by norm_num)]; norm_num, fun _ => heven⟩
    · rw [Nat.odd_iff.1 hodd]
      refine ⟨?_, fun _ => hodd.add_one⟩
      rw [abs_of_nonpos (by push_cast; norm_num)]
      push_cast
      linarith
  · show Nearest (m + 1) x
    obtain ⟨hlow, hhigh⟩ := h
    have habs : |x - (m + 1 : ℕ)| = m + 1 - x := by
      rw [abs_of_neg (by push_cast; linarith)]
      push_cast
      ring
    exact ⟨by linarith, fun htie => by linarith⟩

theorem bounds (h : Shows em x) : em.mantissa ≤ x ∧ x < em.mantissa + 1 := by
  obtain ⟨m, _ | _, _ | _⟩ := em <;> dsimp only [Shows] at h ⊢ <;> constructor <;> linarith

theorem shiftRightOne (h : Shows em x) : Shows em.shiftRightOne (x / 2) := by
  obtain ⟨m, round, sticky⟩ := em
  have hparts : (m : ℚ) = 2 * (m / 2 : ℕ) + (m % 2 : ℕ) := by exact_mod_cast (Nat.div_add_mod m 2).symm
  unfold ExtendedMantissa.shiftRightOne
  obtain hbit | hbit := Nat.mod_two_eq_zero_or_one m <;>
  · rw [hbit] at hparts ⊢
    push_cast at hparts
    cases round <;> cases sticky <;> simp [Shows] at h ⊢ <;> (try constructor) <;> linarith

theorem shiftRight (h : Shows em x) (k : ℕ) : Shows (em >>> k) (x / 2 ^ k) := by
  induction k with
  | zero => simpa [HShiftRight.hShiftRight, Nat.repeat] using h
  | succ k ih =>
    rw [pow_succ, ← div_div]
    exact ih.shiftRightOne

end Shows

/-! ## Magnitudes -/

/-- The least magnitude that is not rounded to a finite float. It lies halfway between the greatest float and the next
number of 53 bits. -/
def limit : ℚ := 2 ^ 1024 - 2 ^ 970

theorem two_pow_eq {a b : ℕ} {t : ℤ} (h : (a : ℤ) = b + t) : (2 : ℚ) ^ a = 2 ^ b * 2 ^ t := by
  rw [← zpow_natCast, ← zpow_natCast, ← zpow_add₀ two_ne_zero, h]

theorem limit_eq : limit = (2 ^ 53 - 1 / 2) * 2 ^ (971 : ℤ) := by
  have hhalf : (2 : ℚ) ^ (971 : ℤ) = 2 ^ (970 : ℤ) * 2 := zpow_add_one₀ two_ne_zero 970
  have hcast : (2 : ℚ) ^ 970 = 2 ^ (970 : ℤ) := (zpow_natCast 2 970).symm
  unfold limit
  rw [two_pow_eq (show ((1024 : ℕ) : ℤ) = (53 : ℕ) + 971 from rfl), hcast, hhalf]
  generalize (2 : ℚ) ^ (970 : ℤ) = u
  ring

theorem two_pow_lt_limit {p : ℕ} (h : p ≤ 1023) : (2 : ℚ) ^ p < limit := by
  have hp : (2 : ℚ) ^ p ≤ 2 ^ 1023 := pow_le_pow_right₀ one_le_two h
  have hlast : (2 : ℚ) ^ 970 < 2 ^ 1023 := pow_lt_pow_right₀ one_lt_two (by decide)
  have htop : (2 : ℚ) ^ 1024 = 2 ^ 1023 * 2 := pow_succ 2 1023
  unfold limit
  rw [htop]
  generalize (2 : ℚ) ^ 1023 = u at *
  generalize (2 : ℚ) ^ 970 = w at *
  linarith

/-- The magnitude `q` is rounded to a multiple of a power of two that leaves it 53 bits, or fewer if it is so small
that the least exponent is reached. The result is `v`, or infinite if `v` is `none`. -/
def RoundsTo (q : ℚ) (v : Option ℚ) : Prop :=
  ∃ (n : ℕ) (t : ℤ), -1074 ≤ t ∧ q < 2 ^ 53 * 2 ^ t ∧ (2 ^ 52 * 2 ^ t ≤ q ∨ t = -1074) ∧ Nearest n (q / 2 ^ t) ∧
    v = if (n : ℚ) * 2 ^ t < 2 ^ 1024 then some ((n : ℚ) * 2 ^ t) else none

namespace RoundsTo

variable {q r : ℚ} {v : Option ℚ}

theorem zero : RoundsTo 0 (some 0) := by
  refine ⟨0, -1074, le_rfl, by positivity, Or.inr rfl, ⟨by simp, fun _ => Even.zero⟩, ?_⟩
  rw [Nat.cast_zero, zero_mul, if_pos (by positivity)]

theorem isSome_iff (h : RoundsTo q v) : v.isSome = true ↔ q < limit := by
  obtain ⟨n, t, -, hlt, hfull, hn, rfl⟩ := h
  have hpos : (0 : ℚ) < 2 ^ t := zpow_pos two_pos t
  have hsome : ∀ r : ℚ, (if r < 2 ^ 1024 then some r else none).isSome = true ↔ r < 2 ^ 1024 := by
    intro r
    split_ifs with hif <;> simp [hif]
  have htop : (2 : ℚ) ^ 1024 = 2 ^ 53 * 2 ^ (971 : ℤ) := two_pow_eq rfl
  rw [hsome, limit_eq, htop]
  obtain hsmall | rfl | hlarge := lt_trichotomy t 971
  · -- both sides hold
    have hn' : (n : ℚ) ≤ 2 ^ 53 := by
      exact_mod_cast hn.le_of_le (k := 2 ^ 53) (by push_cast; exact ((div_lt_iff₀ hpos).2 hlt).le)
    have hstep : (2 : ℚ) ^ t * 2 ≤ 2 ^ (971 : ℤ) := by
      rw [← zpow_add_one₀ two_ne_zero]
      exact zpow_le_zpow_right₀ one_le_two (by omega)
    generalize (2 : ℚ) ^ (971 : ℤ) = u at hstep ⊢
    generalize (2 : ℚ) ^ t = w at *
    exact iff_of_true (by nlinarith) (by nlinarith)
  · have heven := hn.lt_iff (k := 2 ^ 53) (by decide)
    rw [mul_lt_mul_iff_left₀ hpos, ← div_lt_iff₀ hpos]
    generalize q / 2 ^ (971 : ℤ) = x at heven ⊢
    exact_mod_cast heven
  · -- neither side holds
    have hq := hfull.resolve_right (by omega)
    have hn' : (2 : ℚ) ^ 52 ≤ n := by
      exact_mod_cast hn.ge_of_ge (k := 2 ^ 52) (by push_cast; exact (le_div_iff₀ hpos).2 hq)
    have hstep : (2 : ℚ) ^ (971 : ℤ) * 2 ≤ 2 ^ t := by
      rw [← zpow_add_one₀ two_ne_zero]
      exact zpow_le_zpow_right₀ one_le_two (by omega)
    have hpos' : (0 : ℚ) < 2 ^ (971 : ℤ) := zpow_pos two_pos _
    generalize (2 : ℚ) ^ (971 : ℤ) = u at hstep hpos' ⊢
    generalize (2 : ℚ) ^ t = w at *
    exact iff_of_false (not_lt.2 (by nlinarith)) (not_lt.2 (by nlinarith))

theorem le_two_pow (h : RoundsTo q (some r)) {p : ℕ} (hq : q ≤ 2 ^ p) : r ≤ 2 ^ p := by
  obtain ⟨n, t, ht, -, hfull, hn, hr⟩ := h
  have hpos : (0 : ℚ) < 2 ^ t := zpow_pos two_pos t
  obtain ⟨-, hr⟩ := Option.ite_none_right_eq_some.1 hr.symm
  obtain rfl := Option.some.inj hr
  by_cases htp : t ≤ p
  · obtain ⟨k, hk⟩ := Int.le.dest htp
    have hpow : (2 : ℚ) ^ p = 2 ^ k * 2 ^ t := two_pow_eq (by omega)
    rw [hpow] at hq ⊢
    have hn' := hn.le_of_le (k := 2 ^ k) (by push_cast; exact (div_le_iff₀ hpos).2 hq)
    gcongr
    exact_mod_cast hn'
  · -- then a multiple of `2 ^ t` with 53 bits exceeds `2 ^ p`
    have hlarge := hfull.resolve_right (by omega)
    have hstep : (2 : ℚ) ^ p < 2 ^ t := by
      rw [← zpow_natCast]
      exact zpow_lt_zpow_right₀ one_lt_two (by omega)
    generalize (2 : ℚ) ^ t = w at *
    nlinarith

end RoundsTo

end Flowchart.Decimal
