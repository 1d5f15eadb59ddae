import Flowchart.Decimal.Basic
import Flowchart.Proofs.Decimal.Rounded

/-!
# Arithmetic on floats

A sum, a product or a quotient of finite floats is the exact one rounded (`rounds_add`, `rounds_mul`, `rounds_div`), and
an operation on a float that is not finite gives none that is.
-/

namespace Flowchart.Decimal

open Float.Model Float.Model.UnpackedFloat

/-! ## Values that are floats already -/

/-- A magnitude of at most 53 bits is not changed by rounding. -/
theorem RoundsTo.exact {k : ℕ} {e : ℤ} {v : Option ℚ} (h : RoundsTo (k * 2 ^ e) v) (hk : k < 2 ^ 53) (he : -1074 ≤ e) :
    v = if (k : ℚ) * 2 ^ e < 2 ^ 1024 then some ((k : ℚ) * 2 ^ e) else none := by
  obtain ⟨n, t, ht, -, hfull, hn, rfl⟩ := h
  have hte : t ≤ e := by
    by_contra hlt
    have hlarge := hfull.resolve_right (by omega)
    have hk' : (k : ℚ) < 2 ^ 53 := by exact_mod_cast hk
    have hstep : (2 : ℚ) ^ e * 2 ≤ 2 ^ t := by
      rw [← zpow_add_one₀ two_ne_zero]
      exact zpow_le_zpow_right₀ one_le_two (by omega)
    have hpos : (0 : ℚ) < 2 ^ e := zpow_pos two_pos e
    nlinarith
  obtain ⟨d, hd⟩ := Int.le.dest hte
  have hpos : (0 : ℚ) < 2 ^ t := zpow_pos two_pos t
  have hsplit : (k : ℚ) * 2 ^ e = (k * 2 ^ d : ℕ) * 2 ^ t := by
    rw [← hd, zpow_add₀ two_ne_zero, zpow_natCast]
    push_cast
    ring
  rw [hsplit, mul_div_cancel_right₀ _ hpos.ne'] at hn
  obtain rfl : n = k * 2 ^ d := le_antisymm (hn.le_of_le le_rfl) (hn.ge_of_ge le_rfl)
  rw [hsplit]

namespace Rounds

variable {q v : ℚ} {x : Float}

/-- What a number is rounded to is finite exactly if the number lies below the limit. -/
theorem exists_value_iff (h : Rounds q x) : (∃ v, value? x = some v) ↔ |q| < limit := by
  rw [← h.magnitude.isSome_iff, Option.isSome_map, Option.isSome_iff_exists]

theorem abs_le_two_pow (h : Rounds q x) (hv : value? x = some v) {p : ℕ} (hq : |q| ≤ 2 ^ p) : |v| ≤ 2 ^ p := by
  have hmagnitude := h.magnitude
  rw [hv] at hmagnitude
  exact hmagnitude.le_two_pow hq

theorem value_of_exact (h : Rounds q x) {k : ℕ} {e : ℤ} (hq : |q| = k * 2 ^ e) (hk : k < 2 ^ 53) (he : -1074 ≤ e)
    (hlt : |q| < 2 ^ 1024) : value? x = some q := by
  have hmagnitude := h.magnitude
  rw [hq] at hmagnitude hlt
  have habs := hmagnitude.exact hk he
  rw [if_pos hlt, ← hq] at habs
  obtain ⟨v, hv, hvq⟩ := Option.map_eq_some_iff.1 habs
  rw [hv]
  obtain rfl | rfl := abs_eq_abs.1 hvq
  · rfl
  · have hsign := h.sign _ hv
    have hzero : q = 0 := by nlinarith
    rw [hzero, neg_zero]

/-- A whole number of at most 53 bits is a float. -/
theorem value_of_natCast {n : ℕ} (h : Rounds n x) (hn : n < 2 ^ 53) : value? x = some (n : ℚ) := by
  refine h.value_of_exact (k := n) (e := 0) (by simp) hn (by decide) ?_
  rw [Nat.abs_cast]
  calc (n : ℚ) < 2 ^ 53 := by exact_mod_cast hn
    _ < 2 ^ 1024 := pow_lt_pow_right₀ one_lt_two (by decide)

theorem nonneg (h : Rounds q x) (hv : value? x = some v) (hq : 0 ≤ q) : 0 ≤ v := by
  obtain rfl | hpos := hq.eq_or_lt
  · have hzero := h.value_of_exact (k := 0) (e := 0) (by simp) (by decide) (by decide) (by simp)
    exact (Option.some.inj (hv.symm.trans hzero)).ge
  · exact nonneg_of_mul_nonneg_right (h.sign v hv) hpos

theorem nonpos (h : Rounds q x) (hv : value? x = some v) (hq : q ≤ 0) : v ≤ 0 := by
  obtain rfl | hneg := hq.eq_or_lt
  · have hzero := h.value_of_exact (k := 0) (e := 0) (by simp) (by decide) (by decide) (by simp)
    exact (Option.some.inj (hv.symm.trans hzero)).le
  · exact nonpos_of_mul_nonneg_right (h.sign v hv) hneg

end Rounds

/-- A float whose value is known is a zero or has the form in which floats are stored. -/
theorem unpack_of_value {x : Float} {v : ℚ} (h : value? x = some v) :
    (∃ s, x.toModel.unpack = .zero s ∧ v = 0) ∨
      ∃ s m e hm, x.toModel.unpack = .finite s m e hm ∧ Canonical m e ∧ e ≤ 971 ∧ v = signed s (m * 2 ^ e) := by
  unfold value? at h
  cases hx : x.toModel.unpack with
  | infinity s | notANumber =>
    rw [hx] at h
    cases h
  | zero s =>
    rw [hx] at h
    exact Or.inl ⟨s, rfl, (Option.some.inj h).symm⟩
  | finite s m e hm =>
    rw [hx] at h
    obtain ⟨hcanonical, he⟩ := canonical_of_unpack hx
    exact Or.inr ⟨s, m, e, hm, rfl, hcanonical, he, (Option.some.inj h).symm⟩

/-- A float is what its value is rounded to. -/
theorem rounds_of_value {x : Float} {v : ℚ} (h : value? x = some v) : Rounds v x := by
  refine ⟨?_, fun w hw => ?_, ?_⟩
  · rw [h, Option.map_some]
    obtain ⟨s, -, rfl⟩ | ⟨s, m, e, -, -, hcanonical, he, rfl⟩ := unpack_of_value h
    · rw [abs_zero]
      exact RoundsTo.zero
    · have hpos : (0 : ℚ) < 2 ^ e := zpow_pos two_pos e
      have hm : (m : ℚ) < 2 ^ 53 := by exact_mod_cast hcanonical.lt
      rw [abs_signed s (mul_nonneg (Nat.cast_nonneg m) hpos.le)]
      refine ⟨m, e, hcanonical.least, mul_lt_mul_of_pos_right hm hpos, hcanonical.full.imp_left fun hfull => ?_, ?_, ?_⟩
      · exact mul_le_mul_of_nonneg_right (by exact_mod_cast hfull) hpos.le
      · rw [mul_div_cancel_right₀ _ hpos.ne']
        exact ⟨by simp, by norm_num⟩
      · rw [if_pos (hcanonical.mul_lt he)]
  · rw [h] at hw
    obtain rfl := Option.some.inj hw
    exact mul_self_nonneg v
  · show x.toModel.unpack.isNaN = false
    obtain ⟨s, hx, -⟩ | ⟨s, m, e, hm, hx, -⟩ := unpack_of_value h <;> rw [hx] <;> rfl

/-- The magnitude of a finite float lies below the limit. -/
theorem abs_lt_limit {x : Float} {v : ℚ} (h : value? x = some v) : |v| < limit :=
  (rounds_of_value h).exists_value_iff.1 ⟨v, h⟩

/-- What rounding leaves of a number: its sign, and the powers of two that bound it. -/
structure Keeps (q v : ℚ) : Prop where
  nonneg : 0 ≤ q → 0 ≤ v
  nonpos : q ≤ 0 → v ≤ 0
  lt_limit : |v| < limit
  le_two_pow : ∀ p : ℕ, |q| ≤ 2 ^ p → |v| ≤ 2 ^ p

theorem Rounds.keeps {x : Float} {q v : ℚ} (h : Rounds q x) (hv : value? x = some v) : Keeps q v where
  nonneg := h.nonneg hv
  nonpos := h.nonpos hv
  lt_limit := abs_lt_limit hv
  le_two_pow := fun _ => h.abs_le_two_pow hv

/-- What is added to a float does not reach the limit if it is at most a quarter of the last bit of the greatest. -/
theorem abs_add_lt_limit {x : Float} {v r : ℚ} (h : value? x = some v) (hr : |r| ≤ 2 ^ 969) : |v + r| < limit := by
  have hquarter : (2 : ℚ) ^ 969 = 2 ^ (971 : ℤ) / 4 := by
    rw [eq_div_iff four_ne_zero, two_pow_eq (show ((969 : ℕ) : ℤ) = (0 : ℕ) + 969 from rfl),
      show (971 : ℤ) = 969 + 2 from rfl, zpow_add₀ two_ne_zero]
    norm_num
  have hgreatest : |v| ≤ (2 ^ 53 - 1) * 2 ^ (971 : ℤ) := by
    obtain ⟨s, -, rfl⟩ | ⟨s, m, e, -, -, hcanonical, he, rfl⟩ := unpack_of_value h
    · rw [abs_zero]
      exact mul_nonneg (by norm_num) (zpow_pos two_pos _).le
    · have hm : (m : ℚ) ≤ 2 ^ 53 - 1 := by
        have hlt : m + 1 ≤ 2 ^ 53 := hcanonical.lt
        exact le_sub_iff_add_le.2 (by exact_mod_cast hlt)
      rw [abs_signed s (mul_nonneg (Nat.cast_nonneg m) (zpow_pos two_pos e).le)]
      exact mul_le_mul hm (zpow_le_zpow_right₀ one_le_two he) (zpow_pos two_pos e).le (by norm_num)
  have hpos : (0 : ℚ) < 2 ^ (971 : ℤ) := zpow_pos two_pos _
  rw [hquarter] at hr
  rw [limit_eq]
  generalize (2 : ℚ) ^ (971 : ℤ) = u at hr hgreatest hpos ⊢
  linarith only [abs_add_le v r, hr, hgreatest, hpos]

/-! ## Mantissas of any length -/

theorem rounds_zero (s : Sign) : Rounds 0 (.ofModel (.pack (.zero s))) := by
  have hvalue : value? (.ofModel (.pack (.zero s))) = some 0 := by
    show unpackedValue? (Float.Model.pack (.zero s)).unpack = some 0
    rw [unpack_pack_zero]
    rfl
  exact rounds_of_value hvalue

theorem shiftLeft_mul_zpow (m k : ℕ) (e : ℤ) : ((m <<< k : ℕ) : ℚ) * 2 ^ (e - k) = m * 2 ^ e := by
  have hpow : (2 : ℚ) ^ e = 2 ^ k * 2 ^ (e - k) := by
    rw [← zpow_natCast, ← zpow_add₀ two_ne_zero, add_sub_cancel]
  rw [Nat.shiftLeft_eq, hpow]
  push_cast
  exact mul_assoc _ _ _

theorem rounds_round (s : Sign) {m : ℕ} (hm : m ≠ 0) (e : ℤ) :
    Rounds (signed s (m * 2 ^ e)) (.ofModel (.pack (round .binary64 s m e))) := by
  unfold UnpackedFloat.round decreaseExponent
  dsimp only
  rw [targetExponent_totalExponent]
  obtain ⟨k, hk⟩ : ∃ k, k = (e - max ((m.log2 : ℤ) + e - 52) (-1074)).toNat := ⟨_, rfl⟩
  rw [← hk, ← shiftLeft_mul_zpow m k e]
  refine rounds_roundWithAccuracy rfl ?_
  by_cases hleast : e - k ≤ -1074
  · exact Or.inr hleast
  · left
    rw [Nat.shiftLeft_eq]
    calc 2 ^ 52 ≤ 2 ^ (m.log2 + k) := Nat.pow_le_pow_right two_pos (by omega)
      _ = 2 ^ m.log2 * 2 ^ k := pow_add 2 _ _
      _ ≤ m * 2 ^ k := Nat.mul_le_mul_right _ (Nat.log2_self_le hm)

theorem rounds_normalize (m e : ℤ) (s : Sign) : Rounds (m * 2 ^ e) (.ofModel (.pack (normalize .binary64 m e s))) := by
  unfold UnpackedFloat.normalize
  obtain hneg | rfl | hpos := lt_trichotomy m 0
  · have hcast : (m : ℚ) = -((-m).toNat : ℕ) := by
      rw [eq_neg_iff_add_eq_zero]
      exact_mod_cast (by omega : m + ((-m).toNat : ℤ) = 0)
    rw [Int.compare_eq_lt.2 hneg, hcast, neg_mul]
    exact rounds_round .negative (by omega) e
  · rw [Int.cast_zero, zero_mul]
    exact rounds_zero s
  · have hcast : (m : ℚ) = (m.toNat : ℕ) := by exact_mod_cast (by omega : m = (m.toNat : ℤ))
    rw [Int.compare_eq_gt.2 hpos, hcast]
    exact rounds_round .positive (by omega) e

/-! ## Operations -/

variable {x y : Float} {a b : ℚ}

theorem unpack_neg (x : Float) : (-x).toModel.unpack = x.toModel.unpack.neg := by
  show (Float.Model.pack x.toModel.unpack.neg).unpack = x.toModel.unpack.neg
  cases hx : x.toModel.unpack with
  | infinity s => exact unpack_pack_infinity _
  | notANumber => rfl
  | zero s => exact unpack_pack_zero _
  | finite s m e hm =>
    obtain ⟨hcanonical, he⟩ := canonical_of_unpack hx
    exact unpack_pack_finite hcanonical he

theorem value?_neg (x : Float) : value? (-x) = (value? x).map (- ·) := by
  unfold value?
  rw [unpack_neg]
  cases x.toModel.unpack with
  | infinity s | notANumber => rfl
  | zero s => exact congrArg some neg_zero.symm
  | finite s m e hm =>
    cases s
    · exact congrArg some (neg_neg _).symm
    · rfl

theorem Rounds.neg {q : ℚ} (h : Rounds q x) : Rounds (-q) (-x) := by
  refine ⟨?_, fun v hv => ?_, ?_⟩
  · have habs : ((value? x).map (- ·)).map (|·|) = (value? x).map (|·|) := by
      rw [Option.map_map]
      congr 1
      funext v
      exact abs_neg v
    rw [value?_neg, habs, abs_neg]
    exact h.magnitude
  · rw [value?_neg] at hv
    obtain ⟨w, hw, rfl⟩ := Option.map_eq_some_iff.1 hv
    rw [neg_mul_neg]
    exact h.sign w hw
  · have hnumber := h.number
    change x.toModel.unpack.isNaN = false at hnumber
    show (-x).toModel.unpack.isNaN = false
    rw [unpack_neg]
    cases hx : x.toModel.unpack with
    | notANumber =>
      rw [hx] at hnumber
      cases hnumber
    | infinity s | zero s | finite s m e hm => rfl

/-- A mantissa that is written with a smaller exponent. -/
theorem signed_decreaseExponent (s : Sign) (m : ℕ) {e least : ℤ} (h : least ≤ e) :
    ((s.apply (m <<< (e - least).toNat : ℕ) : ℤ) : ℚ) * 2 ^ least = signed s (m * 2 ^ e) := by
  have hleast : least = e - ((e - least).toNat : ℤ) := by omega
  rw [cast_apply, signed_mul]
  conv_lhs => rw [hleast]
  rw [show (e - (e - ((e - least).toNat : ℤ))).toNat = (e - least).toNat by omega, shiftLeft_mul_zpow]

theorem rounds_add (hx : value? x = some a) (hy : value? y = some b) : Rounds (a + b) (x + y) := by
  show Rounds (a + b) (.ofModel (.pack (UnpackedFloat.add .binary64 x.toModel.unpack y.toModel.unpack)))
  have hxpack := ofModel_pack_unpack x
  have hypack := ofModel_pack_unpack y
  obtain ⟨s, hxs, rfl⟩ | ⟨s, m, e, hm, hxs, -, -, rfl⟩ := unpack_of_value hx <;>
    obtain ⟨s', hys, rfl⟩ | ⟨s', m', e', hm', hys, -, -, rfl⟩ := unpack_of_value hy
  · rw [hxs, hys, add_zero]
    unfold UnpackedFloat.add
    dsimp only
    split_ifs <;> exact rounds_zero _
  · rw [hys] at hypack
    rw [hxs, hys, zero_add]
    show Rounds _ (.ofModel (.pack (.finite s' m' e' hm')))
    rw [hypack]
    exact rounds_of_value hy
  · rw [hxs] at hxpack
    rw [hxs, hys, add_zero]
    show Rounds _ (.ofModel (.pack (.finite s m e hm)))
    rw [hxpack]
    exact rounds_of_value hx
  · rw [hxs, hys, ← signed_decreaseExponent s m (min_le_left e e'), ← signed_decreaseExponent s' m' (min_le_right e e'),
      ← add_mul, ← Int.cast_add]
    exact rounds_normalize _ _ _

theorem rounds_mul (hx : value? x = some a) (hy : value? y = some b) : Rounds (a * b) (x * y) := by
  show Rounds (a * b) (.ofModel (.pack (UnpackedFloat.mul .binary64 x.toModel.unpack y.toModel.unpack)))
  obtain ⟨s, hxs, rfl⟩ | ⟨s, m, e, hm, hxs, hxc, -, rfl⟩ := unpack_of_value hx <;>
    obtain ⟨s', hys, rfl⟩ | ⟨s', m', e', hm', hys, hyc, -, rfl⟩ := unpack_of_value hy
  · rw [hxs, hys, zero_mul]
    exact rounds_zero _
  · rw [hxs, hys, zero_mul]
    exact rounds_zero _
  · rw [hxs, hys, mul_zero]
    exact rounds_zero _
  · have hproduct : (m : ℚ) * 2 ^ e * (m' * 2 ^ e') = (m * m' : ℕ) * 2 ^ (e + e') := by
      rw [zpow_add₀ two_ne_zero]
      push_cast
      ring
    rw [hxs, hys, signed_mul_signed, hproduct]
    refine rounds_roundWithAccuracy rfl ?_
    obtain hfull | hleast := hxc.full
    · exact Or.inl (hfull.trans (Nat.le_mul_of_pos_right m hm'))
    obtain hfull | hleast' := hyc.full
    · exact Or.inl (hfull.trans (Nat.le_mul_of_pos_left m' hm))
    · exact Or.inr (by omega)

/-! ## Quotients -/

/-- The remainder of a division says how far the quotient lies above its whole part. -/
theorem shows_div (m : ℕ) {d : ℕ} (hd : 0 < d) :
    Shows (ExtendedMantissa.ofMantissaAndAccuracy (m / d) (accuracyOfFraction (m % d) d)) (m / d : ℚ) := by
  have hd' : (0 : ℚ) < d := by exact_mod_cast hd
  have hsplit : (m : ℚ) / d = (m / d : ℕ) + (m % d : ℕ) / d := by
    rw [eq_comm, eq_div_iff hd'.ne', add_mul, div_mul_cancel₀ _ hd'.ne', mul_comm]
    exact_mod_cast Nat.div_add_mod m d
  have hlt : ((m % d : ℕ) : ℚ) < d := by exact_mod_cast Nat.mod_lt m hd
  unfold accuracyOfFraction
  rw [hsplit]
  generalize m % d = r at hlt ⊢
  by_cases hr : r = 0
  · rw [if_pos hr, hr, Nat.cast_zero, zero_div, add_zero]
    rfl
  have hpos : (0 : ℚ) < r / d := div_pos (by exact_mod_cast Nat.pos_of_ne_zero hr) hd'
  rw [if_neg hr]
  cases hcompare : compare (2 * r) d with
  | lt =>
    have hhalf : (r : ℚ) / d < 1 / 2 := by
      rw [div_lt_iff₀ hd']
      have : (2 * r : ℚ) < d := by exact_mod_cast Nat.compare_eq_lt.1 hcompare
      linarith
    exact ⟨by linarith, by linarith⟩
  | eq =>
    have hhalf : (r : ℚ) / d = 1 / 2 := by
      rw [div_eq_iff hd'.ne']
      have : (2 * r : ℚ) = d := by exact_mod_cast Nat.compare_eq_eq.1 hcompare
      linarith
    exact congrArg _ hhalf
  | gt =>
    have hhalf : 1 / 2 < (r : ℚ) / d := by
      rw [lt_div_iff₀ hd']
      have : (d : ℚ) < 2 * r := by exact_mod_cast Nat.compare_eq_gt.1 hcompare
      linarith
    exact ⟨by linarith, by linarith [(div_lt_one hd').2 hlt]⟩

/-- A quotient is computed with a mantissa that has enough bits, or with the least exponent. -/
theorem le_div_or_exponent_le {m m' k : ℕ} {e t : ℤ} (hm : m ≠ 0) (hm' : 0 < m')
    (ht : t = min e (max ((m.log2 : ℤ) - m'.log2 + e - 53) (-1074))) (hk : t + k = e) :
    2 ^ 52 ≤ (m <<< k) / m' ∨ t ≤ -1074 := by
  by_cases hleast : t ≤ -1074
  · exact Or.inr hleast
  · left
    rw [Nat.le_div_iff_mul_le hm', Nat.shiftLeft_eq]
    calc 2 ^ 52 * m' ≤ 2 ^ 52 * 2 ^ (m'.log2 + 1) := Nat.mul_le_mul_left _ Nat.lt_log2_self.le
      _ = 2 ^ (52 + (m'.log2 + 1)) := (pow_add 2 _ _).symm
      _ ≤ 2 ^ (m.log2 + k) := Nat.pow_le_pow_right two_pos (by omega)
      _ = 2 ^ m.log2 * 2 ^ k := pow_add 2 _ _
      _ ≤ m * 2 ^ k := Nat.mul_le_mul_right _ (Nat.log2_self_le hm)

theorem rounds_div (hx : value? x = some a) (hy : value? y = some b) (hb : b ≠ 0) : Rounds (a / b) (x / y) := by
  show Rounds (a / b) (.ofModel (.pack (UnpackedFloat.div .binary64 x.toModel.unpack y.toModel.unpack)))
  obtain ⟨s', hys, rfl⟩ | ⟨s', m', e', hm', hys, -, -, rfl⟩ := unpack_of_value hy
  · exact absurd rfl hb
  obtain ⟨s, hxs, rfl⟩ | ⟨s, m, e, hm, hxs, -, -, rfl⟩ := unpack_of_value hx
  · rw [hxs, hys, zero_div]
    exact rounds_zero _
  · rw [hxs, hys, signed_div_signed]
    show Rounds _ (.ofModel (.pack (roundWithAccuracy .binary64 (s / s') (divCore .binary64 m e m' e').1
      (divCore .binary64 m e m' e').2.1 (divCore .binary64 m e m' e').2.2)))
    unfold divCore
    dsimp only
    rw [targetExponent_eq]
    obtain ⟨t, ht⟩ : ∃ t, t = min (e - e') (max (totalExponent m e - totalExponent m' e' - 53) (-1074)) := ⟨_, rfl⟩
    obtain ⟨k, hk⟩ := Int.le.dest (show t ≤ e - e' by omega)
    have hvalue : (m : ℚ) * 2 ^ e / (m' * 2 ^ e') = ((m <<< k : ℕ) : ℚ) / m' * 2 ^ t := by
      have hexp : (m : ℚ) * 2 ^ (e - e') = (m <<< k : ℕ) * 2 ^ t := by
        rw [← shiftLeft_mul_zpow m k, show e - e' - k = t by omega]
      rw [mul_div_mul_comm, ← zpow_sub₀ two_ne_zero, div_mul_eq_mul_div, div_mul_eq_mul_div, hexp]
    rw [← ht, show (e - e' - t).toNat = k by omega, hvalue]
    refine rounds_roundWithAccuracy (shows_div _ hm') ?_
    refine le_div_or_exponent_le hm.ne' hm' ?_ hk
    rw [ht]
    unfold totalExponent
    omega

/-! ## Infinities -/

theorem unpackedValue?_pack_eq_none {u : UnpackedFloat} (h : unpackedValue? u = none) :
    unpackedValue? (Float.Model.pack u).unpack = none := by
  cases u with
  | infinity s => rw [unpack_pack_infinity]; rfl
  | notANumber => rfl
  | zero s | finite s m e hm => cases h

/-- A sum is finite only if both parts are. -/
theorem value?_add_eq_none (h : value? x = none ∨ value? y = none) : value? (x + y) = none := by
  have hadd : ∀ u w : UnpackedFloat, unpackedValue? u = none ∨ unpackedValue? w = none →
      unpackedValue? (UnpackedFloat.add .binary64 u w) = none := by
    rintro (s | _ | s | ⟨s, m, e, hm⟩) (s' | _ | s' | ⟨s', m', e', hm'⟩) h
    · show unpackedValue? (if s == s' then _ else _) = none
      split_ifs <;> rfl
    all_goals first | rfl | obtain h | h := h <;> cases h
  exact unpackedValue?_pack_eq_none (hadd _ _ h)

/-- A product is finite only if both factors are. -/
theorem value?_mul_eq_none (h : value? x = none ∨ value? y = none) : value? (x * y) = none := by
  have hmul : ∀ u w : UnpackedFloat, unpackedValue? u = none ∨ unpackedValue? w = none →
      unpackedValue? (UnpackedFloat.mul .binary64 u w) = none := by
    rintro (s | _ | s | ⟨s, m, e, hm⟩) (s' | _ | s' | ⟨s', m', e', hm'⟩) h
    all_goals first | rfl | obtain h | h := h <;> cases h
  exact unpackedValue?_pack_eq_none (hmul _ _ h)

end Flowchart.Decimal
