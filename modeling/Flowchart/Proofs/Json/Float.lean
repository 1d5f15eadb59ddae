import Flowchart.Proofs.Json.Integer

/-!
# Floats in JSON

The text of every float is read as a float (`exists_readsAs_float`): a finite one has a point or an exponent, so it is
not taken for an integer, and the others are words.
-/

namespace Flowchart.Json

/-! ## The digits of a float -/

theorem coefficient_of_onGrid? {b : Decimal.Binary} {k : Int} {d : Decimal} (h : Decimal.onGrid? b k = some d) :
    d.coefficient ≠ 0 := by
  have hsteps : ∀ {p : Bool}, (Decimal.stepsBelow b k != 0 && p) = true → Decimal.stepsBelow b k ≠ 0 := by
    intro p hp
    simpa using (Bool.and_eq_true_iff.1 hp).1
  unfold Decimal.onGrid? at h
  dsimp only at h
  split at h
  · next hbelow _ =>
    split at h
    · cases h
      exact hsteps hbelow
    · cases h
      exact Nat.succ_ne_zero _
    · cases h
      split_ifs
      · exact hsteps hbelow
      · exact Nat.succ_ne_zero _
  · next hbelow _ =>
    cases h
    exact hsteps hbelow
  · cases h
    exact Nat.succ_ne_zero _
  · cases h

theorem coefficient_exact {b : Decimal.Binary} (h : b.mantissa ≠ 0) : (Decimal.exact b).coefficient ≠ 0 := by
  unfold Decimal.exact
  split_ifs
  · exact Nat.mul_ne_zero h (Nat.pow_pos (by decide)).ne'
  · exact Nat.mul_ne_zero h (Nat.pow_pos (by decide)).ne'

/-- Only a zero has no digit but zero, and it is counted in ones. -/
theorem exponent_of_shortest {b : Decimal.Binary} (h : (Decimal.shortest b).coefficient = 0) :
    (Decimal.shortest b).exponent = 0 := by
  unfold Decimal.shortest at h ⊢
  by_cases hb : b.mantissa = 0
  · rw [if_pos hb]
  · rw [if_neg hb] at h
    dsimp only at h
    refine absurd h ?_
    cases hgrid : (List.range 24).findSome? fun (i : Nat) =>
        Decimal.onGrid? b (((b.mantissa.log2 + b.exponent) * 30103).fdiv 100000 + 2 - i) with
    | none => exact coefficient_exact hb
    | some d =>
      obtain ⟨i, -, hi⟩ := List.exists_of_findSome?_eq_some hgrid
      exact coefficient_of_onGrid? hi

/-! ## The parts of a number -/

variable {ds w fr rest : List Char}

theorem fractionPart_append (hfr : ∀ c ∈ fr, c.isDigit = true) (hne : fr ≠ [])
    (hrest : rest.head?.any Char.isDigit = false) : fractionPart ('.' :: (fr ++ rest)) = (fr, rest) := by
  rw [fractionPart, if_pos (head?_any_digits hfr hne rest), takeWhile_digits hfr hrest, dropWhile_digits hfr hrest]

theorem exponentPart_digits (hds : ∀ c ∈ ds, c.isDigit = true) (hne : ds ≠ []) (lead : Int) :
    exponentPart ('e' :: (if lead < 0 then '-' else '+') :: ds) = (some (decide (lead < 0), ds), []) := by
  have hdigits := head?_any_digits hds hne []
  have htake : (ds ++ []).takeWhile Char.isDigit = ds := takeWhile_digits hds rfl
  have hdrop : (ds ++ []).dropWhile Char.isDigit = [] := dropWhile_digits hds rfl
  rw [List.append_nil] at hdigits htake hdrop
  have hsign : signPart ((if lead < 0 then '-' else '+') :: ds) = (decide (lead < 0), ds) := by
    by_cases hlead : lead < 0
    · rw [if_pos hlead, decide_eq_true hlead]
      rfl
    · rw [if_neg hlead, decide_eq_false hlead]
      rfl
  rw [exponentPart, hsign]
  dsimp only
  rw [hdigits, htake, hdrop]
  rfl

/-- Digits behind a point make a float. -/
theorem magnitudePart?_fraction (negative : Bool) (hw : IsWhole w) (hfr : ∀ c ∈ fr, c.isDigit = true) (hne : fr ≠ [])
    {e : Option (Bool × List Char)} (hrest : rest.head?.any Char.isDigit = false)
    (he : exponentPart rest = (e, [])) :
    magnitudePart? negative (w ++ '.' :: (fr ++ rest)) = some (⟨negative, w, fr, e⟩, []) := by
  unfold magnitudePart?
  rw [wholePart_append hw rfl]
  dsimp only
  rw [if_neg (by simpa using hw.ne_nil), fractionPart_append hfr hne hrest]
  dsimp only
  rw [he]

/-- An exponent makes a float. -/
theorem magnitudePart?_exponent (negative : Bool) (hw : IsWhole w) {e : Option (Bool × List Char)}
    (he : exponentPart ('e' :: rest) = (e, [])) :
    magnitudePart? negative (w ++ 'e' :: rest) = some (⟨negative, w, [], e⟩, []) := by
  unfold magnitudePart?
  rw [wholePart_append hw rfl]
  dsimp only
  rw [if_neg (by simpa using hw.ne_nil), fractionPart_of_ne (by simp)]
  dsimp only
  rw [he]

/-! ## The text of a float -/

/-- Whether a text is read as a number that is a float. -/
def IsFloatText (negative : Bool) (s : List Char) : Prop :=
  ∃ t, magnitudePart? negative s = some (t, []) ∧ t.isInteger = false

theorem isFloatText_fraction (negative : Bool) (hw : IsWhole w) (hfr : ∀ c ∈ fr, c.isDigit = true) (hne : fr ≠ []) :
    IsFloatText negative (w ++ '.' :: fr) := by
  have hnumber : magnitudePart? negative (w ++ '.' :: (fr ++ [])) = _ :=
    magnitudePart?_fraction negative hw hfr hne rfl rfl
  rw [List.append_nil] at hnumber
  exact ⟨_, hnumber, by simp [NumberText.isInteger, hne]⟩

theorem isWhole_of_length_one {c : Char} (hc : c.isDigit = true) : IsWhole [c] where
  ne_nil := List.cons_ne_nil c []
  isDigit := List.forall_mem_singleton.2 hc
  zero h := by rw [Option.some.inj h]

theorem isDigit_of_mem_zeros {n : Nat} {c : Char} (h : c ∈ List.replicate n '0') : c.isDigit = true := by
  rw [List.eq_of_mem_replicate h]
  rfl

/-- Digits with a point are a float. If the only digit is zero, it must count ones. -/
theorem isFloatText_positional (negative : Bool) {m : Nat} {lead : Int} (hzero : m = 0 → lead = 0) :
    IsFloatText negative (Decimal.positional (Decimal.digits m) lead) := by
  have hm := isWhole_digits m
  unfold Decimal.positional
  split_ifs with hlead
  · have hdigits : ∀ c ∈ List.replicate (lead.natAbs - 1) '0' ++ Decimal.digits m, c.isDigit = true :=
      fun c hc => (List.mem_append.1 hc).elim isDigit_of_mem_zeros (hm.isDigit c)
    exact isFloatText_fraction negative (isWhole_of_length_one rfl) hdigits (by simp [hm.ne_nil])
  · dsimp only
    split_ifs with hlen
    · have hwhole : IsWhole (Decimal.digits m ++ List.replicate (lead.toNat + 1 - (Decimal.digits m).length) '0') := by
        refine ⟨by simp [hm.ne_nil], fun c hc => (List.mem_append.1 hc).elim (hm.isDigit c) isDigit_of_mem_zeros,
          fun hhead => ?_⟩
        rw [List.head?_append_of_ne_nil _ hm.ne_nil] at hhead
        by_cases h0 : m = 0
        · rw [hzero h0, h0]
          rfl
        · exact absurd hhead (head?_digits h0)
      exact isFloatText_fraction negative hwhole (List.forall_mem_singleton.2 rfl) (List.cons_ne_nil _ _)
    · have hwhole : IsWhole ((Decimal.digits m).take (lead.toNat + 1)) := by
        refine ⟨by simp [hm.ne_nil], fun c hc => hm.isDigit c (List.mem_of_mem_take hc), fun hhead => ?_⟩
        rw [List.head?_take, if_neg (Nat.succ_ne_zero _)] at hhead
        rw [hm.zero hhead] at hlen
        simp at hlen
      exact isFloatText_fraction negative hwhole (fun c hc => hm.isDigit c (List.mem_of_mem_drop hc))
        (by simpa using hlen)

/-- Digits with an exponent are a float. -/
theorem isFloatText_scientific (negative : Bool) (width m : Nat) (lead : Int) :
    IsFloatText negative (Decimal.scientific width (Decimal.digits m) lead) := by
  have hm := isWhole_digits m
  have hexponent : ∀ c ∈ List.replicate (width - (Decimal.digits lead.natAbs).length) '0' ++
      Decimal.digits lead.natAbs, c.isDigit = true :=
    fun c hc => (List.mem_append.1 hc).elim isDigit_of_mem_zeros isDigit_of_mem_digits
  have he := exponentPart_digits hexponent (by simp [(isWhole_digits lead.natAbs).ne_nil]) lead
  unfold Decimal.scientific
  dsimp only
  split
  · next first second more hds =>
    rw [hds] at hm
    have hfirst := List.forall_mem_cons.1 hm.isDigit
    have hnumber := magnitudePart?_fraction negative (isWhole_of_length_one hfirst.1) hfirst.2
      (List.cons_ne_nil _ _) rfl he
    exact ⟨_, by simpa using hnumber, by simp [NumberText.isInteger]⟩
  · have hnumber := magnitudePart?_exponent negative hm he
    exact ⟨_, by simpa using hnumber, by simp [NumberText.isInteger]⟩

theorem isFloatText_magnitude (negative : Bool) (b : Decimal.Binary) :
    IsFloatText negative (floatStyle.magnitude b) := by
  unfold Decimal.Style.magnitude
  dsimp only
  split_ifs
  · apply isFloatText_positional
    intro hzero
    rw [exponent_of_shortest hzero, hzero]
    rfl
  · exact isFloatText_scientific _ _ _ _

theorem scalar_of_isFloat {s : List Char} {t : NumberText} (h : numberPart? s = some (t, rest))
    (ht : t.isInteger = false) : scalar s = .ok (.float t.toFloat, rest) := by
  have hvalue : t.toValue = .ok (.float t.toFloat) := by
    unfold NumberText.toValue
    rw [ht]
    rfl
  unfold scalar
  rw [find?_words_eq_none (startsNumber_of_numberPart? h), h]
  dsimp only
  rw [hvalue]

/-- The text of a float is read as a float. -/
theorem exists_scalar_render (x : Float) : ∃ y, scalar (floatStyle.render x) = .ok (.float y, []) := by
  unfold Decimal.Style.render
  dsimp only
  split
  · exact ⟨_, rfl⟩
  · next negative _ => cases negative <;> exact ⟨_, rfl⟩
  · next negative b _ =>
    obtain ⟨t, hnumber, ht⟩ := isFloatText_magnitude negative b
    cases negative with
    | true => exact ⟨_, scalar_of_isFloat hnumber ht⟩
    | false =>
      have hhead : (floatStyle.magnitude b).head? ≠ some '-' := by
        intro hminus
        have hdigit := head?_of_magnitudePart? hnumber
        rw [hminus] at hdigit
        cases hdigit
      exact ⟨_, scalar_of_isFloat ((numberPart?_of_ne hhead).trans hnumber) ht⟩

/-- A float is read as a float wherever its text stands. -/
theorem exists_readsAs_float (x : Float) : ∃ y, ReadsAs (.float x) (.float y) := by
  obtain ⟨y, hy⟩ := exists_scalar_render x
  exact ⟨y, readsAs_of_scalar (fun _ => rfl) hy⟩

end Flowchart.Json
