import Flowchart.Proofs.Draws
import Flowchart.Proofs.NumberValues

/-!
# The values of coordinates

A coordinate is finite if the product of count and size, twice the jitter, and the sum of corner and offset all lie
below the limit of the floats, and in no other case (`Grid.finite_coordinateFrom_iff`). The offset is the sum of two
floats of opposite signs, so that it cannot be too large by itself; and as long as the jitter is at most `2 ^ 968`, it
is so small that the sum cannot be too large either (`Grid.finiteAt_iff_corner`).
-/

namespace Flowchart.Position

open Decimal

/-! ## Draws -/

theorem Twister.shiftRight_lt (w : UInt32) {k : UInt32} (hk : k.toNat < 32) : (w >>> k).toNat < 2 ^ (32 - k.toNat) := by
  rw [UInt32.toNat_shiftRight, Nat.mod_eq_of_lt hk, Nat.shiftRight_eq_div_pow]
  have hw : w.toNat < 2 ^ 32 := w.toNat_lt
  rw [Nat.div_lt_iff_lt_mul (by positivity), ← pow_add, Nat.sub_add_cancel hk.le]
  exact hw

/-- A fraction of 53 bits is a float. -/
theorem value?_fraction {n : ℕ} (hn : n < 2 ^ 53) :
    ∃ w, value? (Float.ofNat n / 9007199254740992.0) = some w ∧ 0 ≤ w ∧ w ≤ 1 := by
  have hn' : (n : ℚ) < 2 ^ 53 := by exact_mod_cast hn
  have hfloat := (rounds_ofNat n).value_of_natCast hn
  have hrounds := rounds_div hfloat (b := 2 ^ 53) (y := 9007199254740992.0) (by decide +kernel) (by positivity)
  have hle : |(n : ℚ) / 2 ^ 53| ≤ 2 ^ 0 := by
    rw [abs_of_nonneg (by positivity), pow_zero]
    exact (div_le_one (by positivity)).2 hn'.le
  obtain ⟨w, hw⟩ := hrounds.exists_value_iff.2 (hle.trans_lt (two_pow_lt_limit (by decide)))
  refine ⟨w, hw, hrounds.nonneg hw (by positivity), ?_⟩
  have habs := hrounds.abs_le_two_pow hw hle
  rw [pow_zero] at habs
  exact (le_abs_self w).trans habs

/-- A draw lies between zero and one. -/
theorem Twister.value?_draw (t : Twister) (k : ℕ) : ∃ w, value? (t.draw k) = some w ∧ 0 ≤ w ∧ w ≤ 1 := by
  have ha := shiftRight_lt (t.drop k).next.1 (k := 5) (by decide)
  have hb := shiftRight_lt (t.drop k).next.2.next.1 (k := 6) (by decide)
  unfold Twister.draw Twister.unit
  dsimp only
  generalize ((t.drop k).next.1 >>> 5).toNat = a at ha ⊢
  generalize ((t.drop k).next.2.next.1 >>> 6).toNat = b at hb ⊢
  change a < 2 ^ 27 at ha
  change b < 2 ^ 26 at hb
  exact value?_fraction (by omega)

/-! ## Coordinates -/

theorem abs_add_le_max {a b : ℚ} (h : a ≤ 0 ∧ 0 ≤ b ∨ 0 ≤ a ∧ b ≤ 0) : |a + b| ≤ max |a| |b| := by
  have ha := abs_le.1 (le_max_left |a| |b|)
  have hb := abs_le.1 (le_max_right |a| |b|)
  refine abs_le.2 ?_
  obtain ⟨hneg, hpos⟩ | ⟨hpos, hneg⟩ := h
  · exact ⟨by linarith [ha.1], by linarith [hb.2]⟩
  · exact ⟨by linarith [hb.1], by linarith [ha.2]⟩

namespace Grid

variable {g : Grid} {count size : Number} {u : Float} {w j v : ℚ}

/-- An offset is a sum of two floats, the opposite of the jitter and a part of twice the jitter. -/
theorem valueOf?_offsetFrom (h : g.jitter.isZero = false) : valueOf? (g.offsetFrom u) =
    valueOf? (do return (← g.jitter.neg.toFloat) + (← g.jitter.double.mul (.float u) >>= Number.toFloat)) := by
  unfold offsetFrom
  rw [h, if_neg Bool.false_ne_true]
  cases g.jitter.double.mul (.float u) with
  | error f => cases g.jitter.neg.toFloat <;> rfl
  | ok part => rfl

/-- The part of twice the jitter that a draw takes has the sign of the jitter, and is at most twice as large. -/
theorem exists_part (hu : value? u = some w) (hw : 0 ≤ w ∧ w ≤ 1) (hj : g.jitter.value? = some j)
    (hlt : |2 * j| < limit) :
    ∃ p, valueOf? (g.jitter.double.mul (.float u) >>= Number.toFloat) = some p ∧ Keeps (2 * j) p := by
  have hgdouble := g.jitter.gives_double
  rw [hj, Option.map_some] at hgdouble
  obtain ⟨d, hd, hkeepsd⟩ := hgdouble.exists_value hlt
  have hgpart := g.jitter.double.gives_mul (.float u)
  rw [Number.product?_float, hd, hu, Option.bind_some, Option.map_some] at hgpart
  have hle : |d * w| ≤ |d| := by
    rw [abs_mul, abs_of_nonneg hw.1]
    exact mul_le_of_le_one_right (abs_nonneg d) hw.2
  obtain ⟨p, hp, hkeepsp⟩ := hgpart.exists_value (hle.trans_lt hkeepsd.lt_limit)
  exact ⟨p, hp, {
    nonneg := fun h => hkeepsp.nonneg (mul_nonneg (hkeepsd.nonneg h) hw.1)
    nonpos := fun h => hkeepsp.nonpos (mul_nonpos_of_nonpos_of_nonneg (hkeepsd.nonpos h) hw.1)
    lt_limit := hkeepsp.lt_limit
    le_two_pow := fun n hn => hkeepsp.le_two_pow n (hle.trans (hkeepsd.le_two_pow n hn)) }⟩

/-- The offset is finite as soon as twice the jitter is, and it is not much larger than the jitter. -/
theorem exists_offset (h : g.jitter.isZero = false) (hu : value? u = some w) (hw : 0 ≤ w ∧ w ≤ 1)
    (hj : g.jitter.value? = some j) (hlt : |2 * j| < limit) :
    ∃ v, valueOf? (g.offsetFrom u) = some v ∧ ∀ p : ℕ, |j| ≤ 2 ^ p → |v| ≤ 2 ^ (p + 1) := by
  have htwo : |2 * j| = 2 * |j| := by rw [abs_mul, abs_two]
  have hgneg := g.jitter.neg.gives_toFloat
  rw [Number.value?_neg, hj, Option.map_some] at hgneg
  obtain ⟨b, hb, hkeepsb⟩ := hgneg.exists_value (by rw [abs_neg]; linarith [abs_nonneg j])
  obtain ⟨p, hp, hkeepsp⟩ := exists_part hu hw hj hlt
  have hmax : |b + p| ≤ max |b| |p| := by
    refine abs_add_le_max ?_
    obtain hpos | hneg := le_total 0 j
    · exact Or.inl ⟨hkeepsb.nonpos (by linarith), hkeepsp.nonneg (by linarith)⟩
    · exact Or.inr ⟨hkeepsb.nonneg (by linarith), hkeepsp.nonpos (by linarith)⟩
  have hgsum := Gives.both (r := g.jitter.neg.toFloat) (s := g.jitter.double.mul (.float u) >>= Number.toFloat)
    rounds_add value?_add_eq_none
  rw [hb, hp, Option.bind_some, Option.map_some] at hgsum
  obtain ⟨v, hv, hkeeps⟩ := hgsum.exists_value (hmax.trans_lt (max_lt hkeepsb.lt_limit hkeepsp.lt_limit))
  refine ⟨v, (valueOf?_offsetFrom h).trans hv, fun n hn => hkeeps.le_two_pow _ (hmax.trans (max_le ?_ ?_))⟩
  · have hbn : |b| ≤ 2 ^ n := hkeepsb.le_two_pow n (by rw [abs_neg]; exact hn)
    exact hbn.trans (pow_le_pow_right₀ one_le_two n.le_succ)
  · exact hkeepsp.le_two_pow _ (by rw [htwo, pow_succ]; linarith)

theorem valueOf?_offsetFrom_of_isZero (h : g.jitter.isZero = true) : valueOf? (g.offsetFrom u) = some 0 := by
  unfold offsetFrom
  rw [if_pos h]
  rfl

theorem exists_offset_iff (hu : value? u = some w) (hw : 0 ≤ w ∧ w ≤ 1) :
    (∃ v, valueOf? (g.offsetFrom u) = some v) ↔ ∃ j, g.jitter.value? = some j ∧ |2 * j| < limit := by
  cases hzero : g.jitter.isZero with
  | true =>
    refine iff_of_true ⟨0, valueOf?_offsetFrom_of_isZero hzero⟩ ⟨0, Number.value?_of_isZero hzero, ?_⟩
    rw [mul_zero, abs_zero]
    exact (pow_nonneg two_pos.le 0).trans_lt (two_pow_lt_limit (by decide))
  | false =>
    constructor
    · rintro ⟨v, hv⟩
      rw [valueOf?_offsetFrom hzero] at hv
      obtain ⟨q, hq, -⟩ := (Gives.both rounds_add value?_add_eq_none).exists_iff.1 ⟨v, hv⟩
      obtain ⟨b, -, hq⟩ := Option.bind_eq_some_iff.1 hq
      obtain ⟨p, hp, -⟩ := Option.map_eq_some_iff.1 hq
      obtain ⟨m, hm, -⟩ := (g.jitter.double.gives_mul (.float u)).exists_iff.1 ⟨p, hp⟩
      rw [Number.product?_float] at hm
      obtain ⟨d, hd, -⟩ := Option.bind_eq_some_iff.1 hm
      obtain ⟨r, hr, hlt⟩ := g.jitter.gives_double.exists_iff.1 ⟨d, hd⟩
      obtain ⟨j, hj, rfl⟩ := Option.map_eq_some_iff.1 hr
      exact ⟨j, hj, hlt⟩
    · rintro ⟨j, hj, hlt⟩
      obtain ⟨v, hv, -⟩ := exists_offset hzero hu hw hj hlt
      exact ⟨v, hv⟩

theorem abs_offset_le (hu : value? u = some w) (hw : 0 ≤ w ∧ w ≤ 1) (hv : valueOf? (g.offsetFrom u) = some v)
    (hj : g.jitter.value? = some j) {p : ℕ} (hp : |j| ≤ 2 ^ p) : |v| ≤ 2 ^ (p + 1) := by
  cases hzero : g.jitter.isZero with
  | true =>
    rw [valueOf?_offsetFrom_of_isZero hzero] at hv
    obtain rfl := Option.some.inj hv
    rw [abs_zero]
    positivity
  | false =>
    obtain ⟨j', hj', hlt⟩ := (exists_offset_iff hu hw).1 ⟨v, hv⟩
    obtain ⟨v', hv', hbound⟩ := exists_offset hzero hu hw hj' hlt
    obtain rfl := Option.some.inj (hj.symm.trans hj')
    obtain rfl := Option.some.inj (hv.symm.trans hv')
    exact hbound p hp

/-- The corner of a cell, the offset and their sum are finite when they are computed for the count `count`, cells of the
size `size` and the draw `u`. -/
structure FiniteAt (g : Grid) (count size : Number) (u : Float) : Prop where
  corner : ∃ q, count.product? size = some q ∧ |q| < limit
  jitter : ∃ j, g.jitter.value? = some j ∧ |2 * j| < limit
  sum : ∀ c o, valueOf? (count.mul size >>= Number.toFloat) = some c → valueOf? (g.offsetFrom u) = some o →
    |c + o| < limit

theorem valueOf?_coordinateFrom : valueOf? (g.coordinateFrom count size u) =
    valueOf? (do return (← count.mul size >>= Number.toFloat) + (← g.offsetFrom u)) := by
  unfold coordinateFrom
  cases count.mul size with
  | error f => rfl
  | ok corner =>
    cases g.offsetFrom u with
    | error f =>
      show none = valueOf? (corner.toFloat >>= fun _ => .error f)
      cases corner.toFloat <;> rfl
    | ok moved => rfl

theorem finite_coordinateFrom_iff (hu : value? u = some w) (hw : 0 ≤ w ∧ w ≤ 1) :
    (∃ x, g.coordinateFrom count size u = .ok x ∧ x.isFinite = true) ↔ g.FiniteAt count size u := by
  have hcorner := (count.gives_mul size).exists_iff
  have hoffset := exists_offset_iff (g := g) hu hw
  have hsum := (Gives.both (r := count.mul size >>= Number.toFloat) (s := g.offsetFrom u)
    rounds_add value?_add_eq_none).exists_iff
  have hvalue : (∃ x, g.coordinateFrom count size u = .ok x ∧ x.isFinite = true) ↔
      ∃ v, valueOf? (g.coordinateFrom count size u) = some v := by
    simp only [isFinite_iff, valueOf?_eq_some_iff]
    exact ⟨fun ⟨x, hx, v, hv⟩ => ⟨v, x, hx, hv⟩, fun ⟨v, x, hx, hv⟩ => ⟨x, hx, v, hv⟩⟩
  rw [hvalue, valueOf?_coordinateFrom, hsum]
  constructor
  · rintro ⟨q, hq, hlt⟩
    obtain ⟨c, hc, hq⟩ := Option.bind_eq_some_iff.1 hq
    obtain ⟨o, ho, rfl⟩ := Option.map_eq_some_iff.1 hq
    refine ⟨hcorner.1 ⟨c, hc⟩, hoffset.1 ⟨o, ho⟩, fun c' o' hc' ho' => ?_⟩
    obtain rfl := Option.some.inj (hc.symm.trans hc')
    obtain rfl := Option.some.inj (ho.symm.trans ho')
    exact hlt
  · intro h
    obtain ⟨c, hc⟩ := hcorner.2 h.corner
    obtain ⟨o, ho⟩ := hoffset.2 h.jitter
    exact ⟨c + o, by rw [hc, ho]; rfl, h.sum c o hc ho⟩

/-- With a small jitter it depends on the corners alone what is finite. -/
theorem finiteAt_iff_corner (hu : value? u = some w) (hw : 0 ≤ w ∧ w ≤ 1) (hj : g.jitter.value? = some j)
    (hsmall : |j| ≤ 2 ^ 968) :
    g.FiniteAt count size u ↔ ∃ q, count.product? size = some q ∧ |q| < limit := by
  refine ⟨FiniteAt.corner, fun hcorner => ⟨hcorner, ⟨j, hj, ?_⟩, fun c o hc ho => ?_⟩⟩
  · have htwo : |2 * j| ≤ 2 ^ 969 := by
      rw [abs_mul, abs_two, pow_succ', mul_le_mul_iff_right₀ two_pos]
      exact hsmall
    exact htwo.trans_lt (two_pow_lt_limit (by decide))
  · obtain ⟨x, -, hx⟩ := valueOf?_eq_some_iff.1 hc
    exact abs_add_lt_limit hx (abs_offset_le hu hw ho hj hsmall)

end Grid

end Flowchart.Position
