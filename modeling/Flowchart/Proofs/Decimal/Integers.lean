import Flowchart.Proofs.Decimal.Arithmetic

/-!
# Integers as floats

An integer is turned into a float by rounding. This fails exactly if its magnitude has reached the limit of the floats,
and otherwise the float is what the integer is rounded to (`floatOfInt?_spec`).
-/

namespace Flowchart.Decimal

open Float.Model Float.Model.UnpackedFloat

theorem value?_one : value? Float.exactlyRepresentablePowersOfTen[0] = some 1 := by
  have hvalue : value? Float.exactlyRepresentablePowersOfTen[0] = some (signed .positive ((2 ^ 52 : ℕ) * 2 ^ (-52 : ℤ))) := rfl
  rw [hvalue, signed]
  norm_num

theorem value?_toUInt64 {n : ℕ} (h : n < 2 ^ 53) : value? n.toUInt64.toFloat = some (n : ℚ) := by
  have hn : n.toUInt64.toNat = n := by
    rw [Nat.toUInt64_eq]
    exact UInt64.toNat_ofNat_of_lt' (by show n < 2 ^ 64; omega)
  have hrounds : Rounds ((n.toUInt64.toNat : ℤ) * 2 ^ (0 : ℤ)) n.toUInt64.toFloat := rounds_normalize _ 0 .positive
  rw [hn, zpow_zero, mul_one, Int.cast_natCast] at hrounds
  exact hrounds.value_of_natCast h

theorem rounds_ofNat (n : ℕ) : Rounds n (Float.ofNat n) := by
  show Rounds n (Float.ofScientific n false 0)
  unfold Float.ofScientific
  by_cases h : n < 2 ^ 53 ∧ 0 ≤ 22
  · have hproduct := rounds_mul (value?_toUInt64 h.1) value?_one
    rw [mul_one] at hproduct
    rw [dif_pos h]
    exact hproduct
  · have hn : n ≠ 0 := by
      rintro rfl
      exact h (by decide)
    rw [dif_neg h]
    show Rounds n (.ofModel (.pack (UnpackedFloat.ofScientific .binary64 n 0)))
    have hvalue : (n : ℚ) = signed (.positive * .positive) (((n <<< 53 * 1 : ℕ) : ℚ) * 2 ^ (-53 + 0 : ℤ)) := by
      have hshift := shiftLeft_mul_zpow n 53 0
      rw [zpow_zero, mul_one] at hshift
      rw [mul_one]
      exact hshift.symm
    have hbits : 2 ^ 52 ≤ n <<< 53 * 1 := by
      rw [Nat.shiftLeft_eq]
      omega
    unfold UnpackedFloat.ofScientific
    rw [dif_neg hn, if_neg (by decide), if_neg (by show ¬ (0 : ℤ) < -(2048 + n.log2); omega), if_pos le_rfl, hvalue]
    exact rounds_roundWithAccuracy (s := .positive * .positive) (m := n <<< 53 * 1) (e := -53 + 0) (a := .exact) rfl
      (Or.inl hbits)

/-- The limit of the floats is a number of at most 309 digits. -/
theorem limit_le_ten_pow : limit ≤ 10 ^ 310 := by
  have hpow : (2 : ℚ) ^ 1024 ≤ 10 ^ 310 := by exact_mod_cast (by decide +kernel : 2 ^ 1024 ≤ 10 ^ 310)
  exact (sub_le_self _ (by positivity)).trans hpow

theorem isInf_iff {x : Float} (h : x.isNaN = false) : x.isInf = true ↔ value? x = none := by
  change x.toModel.unpack.isNaN = false at h
  show x.toModel.unpack.isInf = true ↔ unpackedValue? x.toModel.unpack = none
  cases hx : x.toModel.unpack with
  | notANumber =>
    rw [hx] at h
    cases h
  | infinity s => exact iff_of_true rfl rfl
  | zero s | finite s m e hm => exact iff_of_false nofun nofun

/-- Natural numbers are rounded, and those with too many digits are infinite. -/
theorem toFloat_natCast (n : ℕ) : Rounds n (toFloat ⟨n, 0⟩) ∨ limit ≤ n ∧ toFloat ⟨n, 0⟩ = infinity := by
  unfold toFloat
  dsimp only
  by_cases hzero : n = 0
  · left
    rw [if_pos hzero, hzero, Nat.cast_zero]
    exact rounds_of_value (x := 0.0) rfl
  rw [if_neg hzero, zero_add]
  by_cases hlong : ((digits n).length : ℤ) > 310
  · have hn : 10 ^ 310 ≤ n := by
      by_contra hlt
      have hlength := (Nat.length_toDigits_le_iff (b := 10) (n := n) (k := 310) (by decide) (by decide)).2 (by omega)
      unfold digits at hlong
      omega
    right
    rw [if_pos hlong]
    exact ⟨limit_le_ten_pow.trans (by exact_mod_cast hn), rfl⟩
  · left
    rw [if_neg hlong, if_neg (by omega)]
    exact rounds_ofNat n

/-- An integer is rounded, unless its magnitude has reached the limit. -/
theorem floatOfInt?_spec (n : ℤ) :
    floatOfInt? n = none ∧ limit ≤ |(n : ℚ)| ∨ ∃ x, floatOfInt? n = some x ∧ Rounds n x ∧ |(n : ℚ)| < limit := by
  have habs : |(n : ℚ)| = n.natAbs := by rw [← Int.cast_abs, Int.abs_eq_natAbs, Int.cast_natCast]
  unfold floatOfInt?
  dsimp only
  obtain hx | ⟨hlarge, hx⟩ := toFloat_natCast n.natAbs
  · have hfinite := hx.exists_value_iff
    rw [Nat.abs_cast, ← habs] at hfinite
    by_cases hinf : (toFloat ⟨n.natAbs, 0⟩).isInf = true
    · rw [if_pos hinf]
      refine Or.inl ⟨rfl, not_lt.1 fun hlt => ?_⟩
      obtain ⟨v, hv⟩ := hfinite.2 hlt
      rw [(isInf_iff hx.number).1 hinf] at hv
      cases hv
    · have hlt : |(n : ℚ)| < limit := by
        rw [← hfinite, ← Option.ne_none_iff_exists']
        exact fun hnone => hinf ((isInf_iff hx.number).2 hnone)
      rw [if_neg hinf]
      refine Or.inr ⟨_, rfl, ?_, hlt⟩
      by_cases hneg : n < 0
      · have hn : (n : ℚ) = -(n.natAbs : ℚ) := by
          rw [← habs, abs_of_neg (by exact_mod_cast hneg), neg_neg]
        rw [if_pos hneg, hn]
        exact hx.neg
      · have hn : (n : ℚ) = (n.natAbs : ℚ) := by
          rw [← habs, abs_of_nonneg (by exact_mod_cast not_lt.1 hneg)]
        rw [if_neg hneg, hn]
        exact hx
  · rw [hx, if_pos (by rfl), habs]
    exact Or.inl ⟨rfl, hlarge⟩

theorem floatOfInt?_eq_none_iff {n : ℤ} : floatOfInt? n = none ↔ limit ≤ |(n : ℚ)| := by
  obtain ⟨hnone, hlarge⟩ | ⟨x, hx, -, hlt⟩ := floatOfInt?_spec n
  · exact iff_of_true hnone hlarge
  · rw [hx]
    exact iff_of_false nofun (not_le.2 hlt)

end Flowchart.Decimal
