import Flowchart.Proofs.Decimal.Nearest
import Flowchart.Proofs.Decimal.Packing

/-!
# Rounding to a float

A finite float has a value (`value?`), and a number is rounded to a float with its sign (`Rounds`). All operations end
with a mantissa and two bits of what was lost behind it. If that mantissa has 53 bits, or the least exponent, rounding
it once is enough, and the float is what the exact number is rounded to (`rounds_roundWithAccuracy`).
-/

namespace Flowchart.Decimal

open Float.Model Float.Model.UnpackedFloat

/-! ## Signs -/

/-- A magnitude with a sign. -/
def signed (s : Sign) (q : ℚ) : ℚ :=
  match s with
  | .negative => -q
  | .positive => q

theorem abs_signed (s : Sign) {q : ℚ} (hq : 0 ≤ q) : |signed s q| = q := by
  cases s
  · rw [signed, abs_neg, abs_of_nonneg hq]
  · exact abs_of_nonneg hq

theorem cast_apply (s : Sign) (m : ℕ) : ((s.apply m : ℤ) : ℚ) = signed s m := by
  cases s
  · exact Int.cast_neg _
  · rfl

theorem signed_mul (s : Sign) (q r : ℚ) : signed s q * r = signed s (q * r) := by
  cases s
  · exact neg_mul q r
  · rfl

theorem signed_mul_same (s : Sign) (q r : ℚ) : signed s q * signed s r = q * r := by
  cases s
  · exact neg_mul_neg q r
  · rfl

theorem signed_mul_signed (s s' : Sign) (q r : ℚ) : signed s q * signed s' r = signed (s * s') (q * r) := by
  cases s <;> cases s'
  · exact neg_mul_neg q r
  · exact neg_mul q r
  · exact mul_neg q r
  · rfl

theorem signed_div_signed (s s' : Sign) (q r : ℚ) : signed s q / signed s' r = signed (s / s') (q / r) := by
  cases s <;> cases s'
  · exact neg_div_neg_eq q r
  · exact neg_div r q
  · exact div_neg q
  · rfl

/-! ## Values -/

/-- The value of an unpacked float, if it is finite. -/
def unpackedValue? : UnpackedFloat → Option ℚ
  | .zero _ => some 0
  | .finite s m e _ => some (signed s (m * 2 ^ e))
  | _ => none

/-- The value of a float, if it is finite. -/
def value? (x : Float) : Option ℚ := unpackedValue? x.toModel.unpack

theorem isFinite_iff {x : Float} : x.isFinite = true ↔ ∃ v, value? x = some v := by
  rw [← Option.isSome_iff_exists]
  show UnpackedFloat.isFinite _ = true ↔ (unpackedValue? _).isSome = true
  cases x.toModel.unpack <;> exact Iff.rfl

/-- A float that equals zero has the value zero. -/
theorem value?_of_beq_zero {x : Float} (h : (x == 0.0) = true) : value? x = some 0 := by
  obtain ⟨-, -, rfl | ⟨rfl, -⟩ | ⟨rfl, -⟩⟩ := Float.beq_iff_ne_nan_and_eq.1 h <;> decide +kernel

/-- A float is what a number is rounded to: it has the sign of the number, and its magnitude is rounded to the nearest
or to infinity. -/
structure Rounds (q : ℚ) (x : Float) : Prop where
  magnitude : RoundsTo |q| ((value? x).map (|·|))
  sign : ∀ v, value? x = some v → 0 ≤ q * v
  number : x.isNaN = false

/-! ## Rounding a mantissa -/

theorem targetExponent_eq (total : ℤ) : Format.binary64.targetExponent total = max (total - 53) (-1074) := rfl

theorem targetExponent_totalExponent (m : ℕ) (e : ℤ) :
    Format.binary64.targetExponent (totalExponent m e) = max ((m.log2 : ℤ) + e - 52) (-1074) := by
  rw [targetExponent_eq, totalExponent]
  omega

/-- A mantissa of at most 53 bits is left alone. -/
theorem shiftToTargetExponent_of_lt {n : ℕ} {t : ℤ} (hn : n < 2 ^ 53) (ht : -1074 ≤ t) :
    shiftToTargetExponent .binary64 n t .exact = (⟨n, false, false⟩, t) := by
  have hlog : n.log2 ≤ 52 := by
    by_cases hzero : n = 0
    · simp [hzero]
    · exact Nat.lt_succ_iff.1 ((Nat.log2_lt hzero).2 hn)
  unfold shiftToTargetExponent shiftToExponent
  dsimp only
  rw [targetExponent_totalExponent, show (max ((n.log2 : ℤ) + t - 52) (-1074) - t).toNat = 0 by omega]
  exact Prod.ext rfl (add_zero t)

/-- Of a mantissa that has been rounded up to 54 bits the last one is dropped. -/
theorem shiftToTargetExponent_carry {t : ℤ} (ht : -1074 ≤ t) :
    shiftToTargetExponent .binary64 (2 ^ 53) t .exact = (⟨2 ^ 52, false, false⟩, t + 1) := by
  unfold shiftToTargetExponent shiftToExponent
  dsimp only
  rw [targetExponent_totalExponent, Nat.log2_two_pow, show (max (((53 : ℕ) : ℤ) + t - 52) (-1074) - t).toNat = 1 by omega]
  rfl

/-- The float of a sign, a mantissa that may have been rounded up to 54 bits, and an exponent. -/
def carried (s : Sign) (n : ℕ) (t : ℤ) : UnpackedFloat :=
  if h : n = 0 then .zero s
  else if n < 2 ^ 53 then .finite s n t (Nat.pos_of_ne_zero h)
  else .finite s (2 ^ 52) (t + 1) (by decide)

theorem Canonical.mul_lt {m : ℕ} {e : ℤ} (h : Canonical m e) (he : e ≤ 971) : (m : ℚ) * 2 ^ e < 2 ^ 1024 := by
  have hm : (m : ℚ) < 2 ^ 53 := by exact_mod_cast h.lt
  rw [two_pow_eq (show ((1024 : ℕ) : ℤ) = (53 : ℕ) + 971 from rfl)]
  exact mul_lt_mul hm (zpow_le_zpow_right₀ one_le_two he) (zpow_pos two_pos e) (by positivity)

/-- A stored float is finite exactly if its magnitude lies below `2 ^ 1024`. -/
theorem unpack_pack_canonical {s : Sign} {m : ℕ} {e : ℤ} {hm : 0 < m} (h : Canonical m e) :
    unpackedValue? (Float.Model.pack (.finite s m e hm)).unpack =
        (if (m : ℚ) * 2 ^ e < 2 ^ 1024 then some (signed s (m * 2 ^ e)) else none) ∧
      (Float.Model.pack (.finite s m e hm)).unpack.isNaN = false := by
  by_cases he : e ≤ 971
  · rw [unpack_pack_finite h he, if_pos (h.mul_lt he)]
    exact ⟨rfl, rfl⟩
  · have hle : (2 : ℚ) ^ 1024 ≤ m * 2 ^ e := by
      have hm' : (2 : ℚ) ^ 52 ≤ m := by exact_mod_cast h.full.resolve_right (by omega)
      rw [two_pow_eq (show ((1024 : ℕ) : ℤ) = (52 : ℕ) + 972 from rfl)]
      exact mul_le_mul hm' (zpow_le_zpow_right₀ one_le_two (by omega)) (zpow_pos two_pos _).le (by positivity)
    rw [unpack_pack_of_large (by omega), if_neg (not_lt.2 hle)]
    exact ⟨rfl, rfl⟩

theorem unpack_pack_carried {s : Sign} {n : ℕ} {t : ℤ} (hn : n ≤ 2 ^ 53) (ht : -1074 ≤ t)
    (hfull : 2 ^ 52 ≤ n ∨ t = -1074) :
    unpackedValue? (Float.Model.pack (carried s n t)).unpack =
        (if (n : ℚ) * 2 ^ t < 2 ^ 1024 then some (signed s (n * 2 ^ t)) else none) ∧
      (Float.Model.pack (carried s n t)).unpack.isNaN = false := by
  unfold carried
  by_cases hzero : n = 0
  · rw [dif_pos hzero, unpack_pack_zero, hzero, Nat.cast_zero, zero_mul, if_pos (pow_pos two_pos _)]
    refine ⟨?_, rfl⟩
    cases s
    · exact congrArg some neg_zero.symm
    · rfl
  rw [dif_neg hzero]
  by_cases hlt : n < 2 ^ 53
  · rw [if_pos hlt]
    exact unpack_pack_canonical ⟨hlt, ht, hfull⟩
  · -- rounded up to the next power of two
    obtain rfl : n = 2 ^ 53 := le_antisymm hn (not_lt.1 hlt)
    have hsame : ((2 ^ 52 : ℕ) : ℚ) * 2 ^ (t + 1) = ((2 ^ 53 : ℕ) : ℚ) * 2 ^ t := by
      rw [zpow_add_one₀ two_ne_zero]
      push_cast
      ring
    rw [if_neg hlt, ← hsame]
    exact unpack_pack_canonical ⟨by decide, by omega, Or.inl le_rfl⟩

/-! ## The place of the last bit -/

section

variable {m : ℕ} {e t : ℤ} {a : Accuracy} {x : ℚ}

theorem mantissa_ofMantissaAndAccuracy (m : ℕ) (a : Accuracy) :
    (ExtendedMantissa.ofMantissaAndAccuracy m a).mantissa = m := by
  cases a with
  | exact => rfl
  | inexact o => cases o <;> rfl

/-- In front of its last bit a rounded number has at most 53 bits. -/
theorem lt_of_targetExponent (hx : x < m + 1) (ht : (m.log2 : ℤ) + e - 52 ≤ t) : x * 2 ^ e < 2 ^ 53 * 2 ^ t := by
  have hm : (m : ℚ) + 1 ≤ 2 ^ (m.log2 + 1) := by exact_mod_cast Nat.lt_log2_self
  have hpow : (2 : ℚ) ^ (m.log2 + 1) * 2 ^ e ≤ 2 ^ 53 * 2 ^ t := by
    rw [← zpow_natCast, ← zpow_natCast, ← zpow_add₀ two_ne_zero, ← zpow_add₀ two_ne_zero]
    exact zpow_le_zpow_right₀ one_le_two (by push_cast; omega)
  exact (mul_lt_mul_of_pos_right (hx.trans_le hm) (zpow_pos two_pos e)).trans_le hpow

theorem le_of_targetExponent (hm : m ≠ 0) (hx : m ≤ x) (ht : (m.log2 : ℤ) + e - 52 = t) :
    2 ^ 52 * 2 ^ t ≤ x * 2 ^ e := by
  have hlog : (2 : ℚ) ^ m.log2 ≤ m := by exact_mod_cast Nat.log2_self_le hm
  have hpow : (2 : ℚ) ^ 52 * 2 ^ t = 2 ^ m.log2 * 2 ^ e := by
    rw [← zpow_natCast, ← zpow_natCast, ← zpow_add₀ two_ne_zero, ← zpow_add₀ two_ne_zero, ← ht]
    congr 1
    push_cast
    omega
  rw [hpow]
  exact mul_le_mul_of_nonneg_right (hlog.trans hx) (zpow_pos two_pos e).le

/-- A mantissa that has enough bits is rounded once, and what comes out needs no further rounding. -/
theorem roundWithAccuracy_eq {s : Sign} {k : ℕ} (ht : t = max ((m.log2 : ℤ) + e - 52) (-1074)) (hk : e + k = t)
    {n : ℕ} (hn : (ExtendedMantissa.ofMantissaAndAccuracy m a >>> k).roundedMantissa = n) (hle : n ≤ 2 ^ 53) :
    roundWithAccuracy .binary64 s m e a = carried s n t := by
  have hshift : shiftToTargetExponent .binary64 m e a = (ExtendedMantissa.ofMantissaAndAccuracy m a >>> k, t) := by
    unfold shiftToTargetExponent shiftToExponent
    dsimp only
    rw [targetExponent_totalExponent, ← ht, show (t - e).toNat = k by omega, hk]
  have hleast : -1074 ≤ t := by omega
  unfold roundWithAccuracy carried
  rw [hshift]
  dsimp only
  rw [hn]
  by_cases hlt : n < 2 ^ 53
  · rw [shiftToTargetExponent_of_lt hlt hleast]
    simp only [if_pos hlt]
  · obtain rfl : n = 2 ^ 53 := le_antisymm hle (not_lt.1 hlt)
    rw [shiftToTargetExponent_carry hleast]
    rfl

/-- A number that is rounded at this place has all of the 53 bits, unless the exponent is the least one. -/
theorem full_of_targetExponent (hx : m ≤ x) (ht : t = max ((m.log2 : ℤ) + e - 52) (-1074))
    (hfit : 2 ^ 52 ≤ m ∨ e ≤ -1074) : 2 ^ 52 * 2 ^ t ≤ x * 2 ^ e ∨ t = -1074 := by
  by_cases hm : m = 0
  · subst hm
    exact Or.inr (by change t = max (0 + e - 52) (-1074) at ht; omega)
  · by_cases hleast : t = -1074
    · exact Or.inr hleast
    · exact Or.inl (le_of_targetExponent hm hx (by omega))

/-- What is shifted down to the last bit is counted in units of it. -/
theorem nearest_shiftRight {em : ExtendedMantissa} (hx : Shows em x) {k : ℕ} (hk : e + k = t) :
    Nearest (em >>> k).roundedMantissa (x * 2 ^ e / 2 ^ t) := by
  have hpow : (2 : ℚ) ^ t = 2 ^ e * 2 ^ k := by rw [← hk, zpow_add₀ two_ne_zero, zpow_natCast]
  have hdiv : x / 2 ^ k = x * 2 ^ e / 2 ^ t := by
    rw [hpow, mul_comm x, mul_div_mul_left _ _ (zpow_pos two_pos e).ne']
  rw [← hdiv]
  exact (hx.shiftRight k).nearest

end

/-- A float whose mantissa is the nearest to a magnitude, in units of its last place, is what the magnitude is rounded
to. -/
theorem rounds_carried {s : Sign} {n : ℕ} {t : ℤ} {q : ℚ} (hq : 0 ≤ q) (ht : -1074 ≤ t) (hlt : q < 2 ^ 53 * 2 ^ t)
    (hfull : 2 ^ 52 * 2 ^ t ≤ q ∨ t = -1074) (hn : Nearest n (q / 2 ^ t)) :
    Rounds (signed s q) (.ofModel (.pack (carried s n t))) := by
  have hpos : (0 : ℚ) < 2 ^ t := zpow_pos two_pos t
  have hle : n ≤ 2 ^ 53 := hn.le_of_le (by push_cast; exact ((div_lt_iff₀ hpos).2 hlt).le)
  have hle' : 2 ^ 52 ≤ n ∨ t = -1074 :=
    hfull.imp_left fun hq => hn.ge_of_ge (by push_cast; exact (le_div_iff₀ hpos).2 hq)
  have hr : (0 : ℚ) ≤ n * 2 ^ t := mul_nonneg (Nat.cast_nonneg n) hpos.le
  obtain ⟨hvalue, hnumber⟩ := unpack_pack_carried (s := s) hle ht hle'
  change value? (.ofModel (.pack (carried s n t))) = _ at hvalue
  refine ⟨?_, fun v hv => ?_, hnumber⟩
  · rw [abs_signed s hq, hvalue]
    refine ⟨n, t, ht, hlt, hfull, hn, ?_⟩
    split_ifs
    · exact congrArg some (abs_signed s hr)
    · rfl
  · rw [hvalue] at hv
    obtain ⟨-, hv⟩ := Option.ite_none_right_eq_some.1 hv
    obtain rfl := Option.some.inj hv
    rw [signed_mul_same]
    exact mul_nonneg hq hr

/-- A mantissa that has enough bits, or the least exponent, is rounded to the nearest float. -/
theorem rounds_roundWithAccuracy {s : Sign} {m : ℕ} {e : ℤ} {a : Accuracy} {x : ℚ}
    (hx : Shows (ExtendedMantissa.ofMantissaAndAccuracy m a) x) (hfit : 2 ^ 52 ≤ m ∨ e ≤ -1074) :
    Rounds (signed s (x * 2 ^ e)) (.ofModel (.pack (roundWithAccuracy .binary64 s m e a))) := by
  have hfit' : 52 ≤ m.log2 ∨ e ≤ -1074 := hfit.imp_left fun hm => (Nat.le_log2 (by omega)).2 hm
  obtain ⟨t, ht⟩ : ∃ t, t = max ((m.log2 : ℤ) + e - 52) (-1074) := ⟨_, rfl⟩
  obtain ⟨k, hk⟩ := Int.le.dest (show e ≤ t by omega)
  have hbounds := hx.bounds
  rw [mantissa_ofMantissaAndAccuracy] at hbounds
  have hlt : x * 2 ^ e < 2 ^ 53 * 2 ^ t := lt_of_targetExponent hbounds.2 (by omega)
  have hnear := nearest_shiftRight hx hk
  have hle := hnear.le_of_le (k := 2 ^ 53) (by push_cast; exact ((div_lt_iff₀ (zpow_pos two_pos t)).2 hlt).le)
  rw [roundWithAccuracy_eq ht hk rfl hle]
  exact rounds_carried (mul_nonneg ((Nat.cast_nonneg m).trans hbounds.1) (zpow_pos two_pos e).le) (by omega) hlt
    (full_of_targetExponent hbounds.1 ht hfit) hnear

end Flowchart.Decimal
