import Mathlib

/-!
# How a finite float is stored

A finite float other than zero is a mantissa of at most 53 bits times a power of two. It is stored with a mantissa of
all 53 bits, unless its exponent is the least one, `-1074` (`Canonical`). What is stored in this form comes out again
as it is if the exponent is at most `971`, and as an infinity otherwise.
-/

namespace Flowchart.Decimal

open Float.Model Float.Model.UnpackedFloat

/-- A mantissa and an exponent in the form in which they are stored. -/
structure Canonical (m : ℕ) (e : ℤ) : Prop where
  lt : m < 2 ^ 53
  least : -1074 ≤ e
  full : 2 ^ 52 ≤ m ∨ e = -1074

/-- A mantissa of 53 bits is stored without the first of them. -/
theorem toNat_leadingBit (f : BitVec 52) : (1#1 ++ f).toNat = 2 ^ 52 + f.toNat := by
  rw [BitVec.toNat_append, ← Nat.shiftLeft_add_eq_or_of_lt f.isLt]
  rfl

/-- Whatever is read from a float is in the form in which it is stored. -/
theorem canonical_of_unpack {x : Float.Model} {s : Sign} {m : ℕ} {e : ℤ} {hm : 0 < m}
    (h : x.unpack = .finite s m e hm) : Canonical m e ∧ e ≤ 971 := by
  have hbits : ∀ b : BitVec Format.binary64.numBits, UnpackedFloat.unpack .binary64 b = .finite s m e hm →
      Canonical m e ∧ e ≤ 971 := by
    intro b hb
    have hf := (@unpackMantissa .binary64 b).isLt
    have he := (@unpackExponent .binary64 b).isLt
    unfold UnpackedFloat.unpack at hb
    dsimp only at hb
    change (@unpackMantissa .binary64 b).toNat < 2 ^ 52 at hf
    change (@unpackExponent .binary64 b).toNat < 2048 at he
    split_ifs at hb with hinf _ hzero
    · -- a mantissa of less than 53 bits, with the least exponent
      simp only [UnpackedFloat.finite.injEq] at hb
      obtain ⟨-, rfl, rfl⟩ := hb
      rw [hzero]
      exact ⟨⟨by omega, by decide, Or.inr (by decide)⟩, by decide⟩
    · simp only [UnpackedFloat.finite.injEq, toNat_leadingBit] at hb
      obtain ⟨-, rfl, rfl⟩ := hb
      have hlow : (@unpackExponent .binary64 b).toNat ≠ 0 := fun h => hzero (BitVec.eq_of_toNat_eq h)
      have hhigh : (@unpackExponent .binary64 b).toNat ≠ 2047 := fun h => hinf (BitVec.eq_of_toNat_eq h)
      have hbias : (Format.binary64.exponentBias : ℤ) + ((52 : ℕ) : ℤ) = 1075 := rfl
      rw [hbias]
      exact ⟨⟨by omega, by omega, Or.inl (by omega)⟩, by omega⟩
  exact hbits _ h

theorem unpack_pack_infinity (s : Sign) : (Float.Model.pack (.infinity s)).unpack = .infinity s := by
  cases s <;> rfl

theorem unpack_pack_zero (s : Sign) : (Float.Model.pack (.zero s)).unpack = .zero s := unpack_packedZero

/-- A float that is read and stored again is the same float. -/
theorem ofModel_pack_unpack (x : Float) : Float.ofModel (.pack x.toModel.unpack) = x :=
  Float.toBits_inj.1 (UInt64.toBitVec_inj.1 (pack_unpack_of_valid x.toModel.valid))

variable {s : Sign} {m : ℕ} {e : ℤ} {hm : 0 < m}

/-- The exponent as it is stored. -/
theorem biased_eq (e : ℤ) :
    e + (Format.binary64.exponentBias : ℤ) + (Format.binary64.mantissaBitsWithoutImplicit : ℤ) = e + 1075 := by
  show e + 1023 + 52 = e + 1075
  omega

theorem unpack_pack_of_large (he : 972 ≤ e) : (Float.Model.pack (.finite s m e hm)).unpack = .infinity s := by
  have hpack : UnpackedFloat.pack .binary64 (.finite s m e hm) = UnpackedFloat.pack .binary64 (.infinity s) := by
    unfold UnpackedFloat.pack
    dsimp only
    rw [biased_eq, if_pos (by show 2048 ≤ _; omega)]
  have hsame : Float.Model.pack (.finite s m e hm) = Float.Model.pack (.infinity s) := by
    unfold Float.Model.pack
    simp only [hpack]
  rw [hsame, unpack_pack_infinity]

/-- A mantissa of less than 53 bits is read with the least exponent. -/
theorem unpack_packComponents_zero {f : BitVec 52} (hf : f.toNat = m) :
    UnpackedFloat.unpack .binary64 (packComponents .binary64 s 0#11 f) = .finite s m (-1074) hm := by
  have hne : f ≠ 0#52 := by
    rintro rfl
    exact absurd hf (Nat.ne_of_lt hm)
  subst hf
  unfold UnpackedFloat.unpack
  simp only [unpackMantissa_packComponents, unpackExponent_packComponents, unpackSign_packComponents,
    Sign.ofBitVec_toBitVec]
  rw [if_neg (by decide), if_pos trivial, dif_neg hne]
  rfl

theorem unpack_packComponents {k : BitVec 11} {f : BitVec 52} (hf : 2 ^ 52 + f.toNat = m)
    (hk : (k.toNat : ℤ) = e + 1075) (hlow : -1074 ≤ e) (hhigh : e ≤ 971) :
    UnpackedFloat.unpack .binary64 (packComponents .binary64 s k f) = .finite s m e hm := by
  have hzero : k ≠ 0#11 := by
    rintro rfl
    change (0 : ℤ) = _ at hk
    omega
  have htop : k ≠ -1#11 := by
    rintro rfl
    change (2047 : ℤ) = _ at hk
    omega
  subst hf
  unfold UnpackedFloat.unpack
  simp only [unpackMantissa_packComponents, unpackExponent_packComponents, unpackSign_packComponents,
    Sign.ofBitVec_toBitVec]
  rw [if_neg htop, if_neg hzero]
  simp only [toNat_leadingBit, UnpackedFloat.finite.injEq, true_and]
  show (k.toNat : ℤ) - 1075 = e
  omega

theorem unpack_pack_finite (h : Canonical m e) (he : e ≤ 971) :
    (Float.Model.pack (.finite s m e hm)).unpack = .finite s m e hm := by
  obtain ⟨hlt, hleast, hfull⟩ := h
  show UnpackedFloat.unpack .binary64 (UnpackedFloat.pack .binary64 (.finite s m e hm)) = _
  have hfits : ¬ (2048 : ℕ) ≤ (e + 1075).toNat + 1 := by omega
  have hcut : (BitVec.ofNat 52 m).toNat = m % 2 ^ 52 := BitVec.toNat_ofNat m 52
  unfold UnpackedFloat.pack
  dsimp only
  rw [biased_eq, if_neg (by exact hfits)]
  by_cases hbit : 2 ^ 52 ≤ m
  · have hlog : m.log2 = 52 := (Nat.log2_eq_iff (by omega)).2 ⟨hbit, hlt⟩
    rw [if_pos (by rw [hlog]; rfl)]
    refine unpack_packComponents (by omega) ?_ hleast he
    rw [BitVec.toNat_ofNat]
    omega
  · have hlog : m.log2 < 52 := (Nat.log2_lt (by omega)).2 (by omega)
    obtain rfl : e = -1074 := hfull.resolve_left hbit
    rw [if_neg (by show ¬ m.log2 + 1 = 53; omega)]
    exact unpack_packComponents_zero (by omega)

end Flowchart.Decimal
