import Flowchart.Proofs.Json.RoundTrip
import Mathlib.Algebra.Group.Nat.Defs
import Mathlib.Data.List.TakeWhile

/-!
# Integers in JSON

An integer is read back from its digits exactly if there are not too many of them (`readsBack_int_iff`). Whatever
integer is read from a text has few enough of them (`readsBack_of_scalar`).
-/

namespace Flowchart.Json

variable {s ds w rest : List Char}

/-! ## Digits -/

theorem digitChar_ne_zero {m : Nat} (hm : m < 10) (h : m ≠ 0) : Nat.digitChar m ≠ '0' := by
  decide +revert

/-- No number but zero starts with a zero. -/
theorem head?_digits {m : Nat} (h : m ≠ 0) : (Decimal.digits m).head? ≠ some '0' := by
  unfold Decimal.digits
  induction m using Nat.strongRecOn with
  | ind m ih =>
    by_cases hm : m < 10
    · rw [Nat.toDigits_of_lt_base hm]
      simpa using digitChar_ne_zero hm h
    · have htens := ih (m / 10) (by omega) (by omega)
      rw [Nat.toDigits_of_base_le (by decide) (by omega), List.head?_append]
      cases hd : (Nat.toDigits 10 (m / 10)).head? with
      | none =>
        rw [List.head?_eq_none_iff] at hd
        exact absurd hd Nat.toDigits_ne_nil
      | some c =>
        rw [hd] at htens
        exact htens

/-- A row of digits denotes a number with no more digits. -/
theorem ofDigits_lt {ds : List Char} (h : ∀ c ∈ ds, c.isDigit = true) : Decimal.ofDigits ds < 10 ^ ds.length := by
  unfold Decimal.ofDigits
  induction ds with
  | nil => decide
  | cons c ds ih =>
    rw [List.forall_mem_cons] at h
    have hc : c.toNat - '0'.toNat ≤ 9 := by
      have hdigit := h.1
      simp only [Char.isDigit, Bool.and_eq_true, decide_eq_true_eq, ge_iff_le, UInt32.le_iff_toNat_le] at hdigit
      change 48 ≤ c.toNat ∧ c.toNat ≤ 57 at hdigit
      show c.toNat - 48 ≤ 9
      omega
    rw [Nat.ofDigitChars_cons, Nat.mul_zero, Nat.zero_add, Nat.ofDigitChars_eq_ofDigitChars_zero, List.length_cons,
      Nat.pow_succ]
    have hfirst : 10 ^ ds.length * (c.toNat - '0'.toNat) ≤ 10 ^ ds.length * 9 := Nat.mul_le_mul_left _ hc
    have hothers := ih h.2
    omega

theorem isDigit_of_mem_wholePart {c : Char} (h : c ∈ (wholePart s).1) : c.isDigit = true := by
  unfold wholePart at h
  split at h
  · obtain rfl := List.mem_singleton.1 h
    rfl
  · exact List.mem_takeWhile_imp h

theorem whole_of_magnitudePart? {negative : Bool} {t : NumberText}
    (h : magnitudePart? negative s = some (t, rest)) : t.whole = (wholePart s).1 := by
  unfold magnitudePart? at h
  dsimp only at h
  split_ifs at h
  cases h
  rfl

/-- The whole part of a number consists of digits. -/
theorem isDigit_of_mem_whole {t : NumberText} (h : numberPart? s = some (t, rest)) {c : Char} (hc : c ∈ t.whole) :
    c.isDigit = true := by
  by_cases hs : s.head? = some '-'
  · obtain ⟨s, rfl⟩ := List.head?_eq_some_iff.1 hs
    rw [whole_of_magnitudePart? h] at hc
    exact isDigit_of_mem_wholePart hc
  · rw [numberPart?_of_ne hs] at h
    rw [whole_of_magnitudePart? h] at hc
    exact isDigit_of_mem_wholePart hc

/-! ## Whole parts -/

theorem takeWhile_digits (hds : ∀ c ∈ ds, c.isDigit = true) (hrest : rest.head?.any Char.isDigit = false) :
    (ds ++ rest).takeWhile Char.isDigit = ds := by
  rw [List.takeWhile_append_of_pos hds]
  cases rest with
  | nil => simp
  | cons c rest =>
    have hc : c.isDigit = false := hrest
    rw [List.takeWhile_cons_of_neg (by simp [hc]), List.append_nil]

theorem dropWhile_digits (hds : ∀ c ∈ ds, c.isDigit = true) (hrest : rest.head?.any Char.isDigit = false) :
    (ds ++ rest).dropWhile Char.isDigit = rest := by
  rw [List.dropWhile_append_of_pos hds]
  cases rest with
  | nil => rfl
  | cons c rest =>
    have hc : c.isDigit = false := hrest
    rw [List.dropWhile_cons_of_neg (by simp [hc])]

theorem head?_any_digits (hds : ∀ c ∈ ds, c.isDigit = true) (hne : ds ≠ []) (rest : List Char) :
    (ds ++ rest).head?.any Char.isDigit = true := by
  cases ds with
  | nil => exact absurd rfl hne
  | cons c ds => exact hds c List.mem_cons_self

/-- The digits of a whole part: no zero stands in front of others. -/
structure IsWhole (w : List Char) : Prop where
  ne_nil : w ≠ []
  isDigit : ∀ c ∈ w, c.isDigit = true
  zero : w.head? = some '0' → w = ['0']

theorem wholePart_append (hw : IsWhole w) (hrest : rest.head?.any Char.isDigit = false) :
    wholePart (w ++ rest) = (w, rest) := by
  by_cases hzero : w.head? = some '0'
  · rw [hw.zero hzero]
    rfl
  · have hhead : (w ++ rest).head? ≠ some '0' := by
      rw [List.head?_append_of_ne_nil _ hw.ne_nil]
      exact hzero
    rw [wholePart_of_ne hhead, takeWhile_digits hw.isDigit hrest, dropWhile_digits hw.isDigit hrest]

theorem isWhole_digits (m : Nat) : IsWhole (Decimal.digits m) where
  ne_nil := Nat.toDigits_ne_nil
  isDigit _ := isDigit_of_mem_digits
  zero h := by
    by_cases hm : m = 0
    · rw [hm]
      rfl
    · exact absurd h (head?_digits hm)

/-! ## Reading printed integers -/

theorem magnitudePart?_digits (negative : Bool) (m : Nat) :
    magnitudePart? negative (Decimal.digits m) = some (⟨negative, Decimal.digits m, [], none⟩, []) := by
  have hwhole : wholePart (Decimal.digits m ++ []) = _ := wholePart_append (isWhole_digits m) rfl
  rw [List.append_nil] at hwhole
  unfold magnitudePart?
  rw [hwhole]
  dsimp only
  rw [if_neg (by simpa using (isWhole_digits m).ne_nil)]
  rfl

theorem numberPart?_signedDigits (n : Int) :
    numberPart? (Decimal.signedDigits n) =
      some (⟨decide (n < 0), Decimal.digits n.natAbs, [], none⟩, []) := by
  unfold Decimal.signedDigits
  by_cases hn : n < 0
  · rw [if_pos hn, numberPart?_minus, magnitudePart?_digits, decide_eq_true hn]
  · have hhead : (Decimal.digits n.natAbs).head? ≠ some '-' := fun h => by
      have hsign : '-' ∈ Decimal.digits n.natAbs := List.mem_of_mem_head? h
      cases isDigit_of_mem_digits hsign
    rw [if_neg hn, numberPart?_of_ne hhead, magnitudePart?_digits, decide_eq_false hn]

theorem toInt_signedDigits (n : Int) :
    NumberText.toInt ⟨decide (n < 0), Decimal.digits n.natAbs, [], none⟩ = n := by
  have hvalue : Decimal.ofDigits (Decimal.digits n.natAbs) = n.natAbs := Nat.ofDigitChars_ten_toDigits
  unfold NumberText.toInt
  dsimp only
  rw [hvalue]
  by_cases hn : n < 0
  · rw [decide_eq_true hn, if_pos rfl]
    omega
  · rw [decide_eq_false hn, if_neg nofun]
    omega

theorem toValue_signedDigits (n : Int) :
    NumberText.toValue ⟨decide (n < 0), Decimal.digits n.natAbs, [], none⟩ =
      if (Decimal.digits n.natAbs).length ≤ maxIntegerDigits then .ok (.int n)
      else .error (Decimal.digits n.natAbs).length := by
  have hinteger : NumberText.isInteger ⟨decide (n < 0), Decimal.digits n.natAbs, [], none⟩ = true := rfl
  unfold NumberText.toValue
  rw [if_pos hinteger, toInt_signedDigits]

/-- The digits of an integer are read as the integer, unless there are too many of them. -/
theorem scalar_signedDigits (n : Int) : scalar (Decimal.signedDigits n) =
    if (Decimal.digits n.natAbs).length ≤ maxIntegerDigits then .ok (.int n, [])
    else .error (.tooManyDigits (Decimal.digits n.natAbs).length) := by
  have hnumber := numberPart?_signedDigits n
  unfold scalar
  rw [find?_words_eq_none (startsNumber_of_numberPart? hnumber), hnumber]
  dsimp only
  rw [toValue_signedDigits]
  by_cases hlen : (Decimal.digits n.natAbs).length ≤ maxIntegerDigits
  · rw [if_pos hlen, if_pos hlen]
  · rw [if_neg hlen, if_neg hlen]

/-- An integer is read back exactly if it does not have too many digits. -/
theorem readsBack_int_iff (n : Int) :
    ReadsBack (.int n) ↔ (Decimal.digits n.natAbs).length ≤ maxIntegerDigits := by
  have hscalar : scalar (print (.int n)) = _ := scalar_signedDigits n
  constructor
  · intro h
    have htext : (print (.int n)).all inScalar = true := inScalar_of_all (all_signedDigits n)
    by_contra hlen
    rw [if_neg hlen, scalar_of_readsBack htext h] at hscalar
    cases hscalar
  · intro hlen
    rw [if_pos hlen] at hscalar
    exact (readsAs_of_scalar (fun _ => rfl) hscalar).parse

/-- Every integer that is read is read back. -/
theorem readsBack_of_scalar {n : Int} (h : scalar s = .ok (.int n, rest)) : ReadsBack (.int n) := by
  rcases of_scalar h with ⟨word, hword, -⟩ | ⟨t, hnumber, hvalue⟩
  · simp [words] at hword
  · unfold NumberText.toValue at hvalue
    split_ifs at hvalue with _ hlen
    · cases hvalue
      have hlt := ofDigits_lt fun c hc => isDigit_of_mem_whole hnumber hc
      have habs : t.toInt.natAbs = Decimal.ofDigits t.whole := by
        unfold NumberText.toInt
        split_ifs <;> omega
      have hpow : 10 ^ t.whole.length ≤ 10 ^ maxIntegerDigits := Nat.pow_le_pow_right (by decide) hlen
      rw [readsBack_int_iff, habs]
      apply (Nat.length_toDigits_le_iff (by decide) (by decide)).2
      omega
    · cases hvalue

end Flowchart.Json
