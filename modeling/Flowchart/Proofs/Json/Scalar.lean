import Flowchart.Json.Parser
import Mathlib.Data.List.Infix
import Mathlib.Tactic.Common

/-!
# Numbers and words inside a text

A number ends where no character of a number follows, so what is read as a number or as a word when it stands
alone is also read where something else follows it (`scalar_append`).
-/

namespace Flowchart.Json

/-- Whether a character may stand inside a number. -/
def inNumber (c : Char) : Bool :=
  c.isDigit || c == '.' || c == 'e' || c == 'E' || c == '+' || c == '-'

/-- No number goes on into `rest`. -/
def Stops (rest : List Char) : Prop := ∀ c ∈ rest.head?, inNumber c = false

variable {s rest : List Char}

theorem stops_nil : Stops [] := nofun

theorem stops_cons {c : Char} : Stops (c :: rest) ↔ inNumber c = false := by
  simp [Stops]

/-- What starts a text that does not go on a number starts the same text in front of one. -/
theorem Stops.head?_append_ne (h : Stops rest) {d : Char} (hd : inNumber d = true)
    (hs : s.head? ≠ some d) : (s ++ rest).head? ≠ some d := by
  cases s with
  | nil =>
    intro hrest
    have hstop : inNumber d = false := h d (by simpa using hrest)
    rw [hd] at hstop
    cases hstop
  | cons c s => exact hs

theorem Stops.head?_any (h : Stops rest) (s : List Char) :
    (s ++ rest).head?.any Char.isDigit = s.head?.any Char.isDigit := by
  cases s with
  | nil =>
    cases rest with
    | nil => rfl
    | cons c rest =>
      have hc := stops_cons.1 h
      simp only [inNumber, Bool.or_eq_false_iff] at hc
      simpa using hc.1.1.1.1.1
  | cons c s => rfl

/-! ## The parts of a number -/

theorem takeWhile_append_of_stops (h : Stops rest) (s : List Char) :
    (s ++ rest).takeWhile Char.isDigit = s.takeWhile Char.isDigit := by
  induction s with
  | nil =>
    cases rest with
    | nil => rfl
    | cons c rest =>
      have hc : c.isDigit = false := h.head?_any []
      rw [List.nil_append, List.takeWhile_cons_of_neg (by simp [hc])]
      rfl
  | cons c s ih => simp only [List.cons_append, List.takeWhile_cons, ih]

theorem dropWhile_append_of_stops (h : Stops rest) (s : List Char) :
    (s ++ rest).dropWhile Char.isDigit = s.dropWhile Char.isDigit ++ rest := by
  have hall := List.takeWhile_append_dropWhile (p := Char.isDigit) (l := s ++ rest)
  have hpart := List.takeWhile_append_dropWhile (p := Char.isDigit) (l := s)
  rw [takeWhile_append_of_stops h] at hall
  apply (List.append_right_inj (s.takeWhile Char.isDigit)).1
  rw [hall, ← List.append_assoc, hpart]

theorem wholePart_of_ne (h : s.head? ≠ some '0') :
    wholePart s = (s.takeWhile Char.isDigit, s.dropWhile Char.isDigit) :=
  wholePart.eq_2 s (by rintro rest rfl; exact h rfl)

theorem fractionPart_of_ne (h : s.head? ≠ some '.') : fractionPart s = ([], s) :=
  fractionPart.eq_2 s (by rintro rest rfl; exact h rfl)

theorem signPart_of_ne (hminus : s.head? ≠ some '-') (hplus : s.head? ≠ some '+') :
    signPart s = (false, s) :=
  signPart.eq_3 s (by rintro rest rfl; exact hminus rfl) (by rintro rest rfl; exact hplus rfl)

/-- A reader of a part of a number leaves the end of its text, and does not look beyond the number. -/
structure ReadsPart {α : Type} (read : List Char → α × List Char) : Prop where
  append : ∀ {rest}, Stops rest → ∀ s, read (s ++ rest) = ((read s).1, (read s).2 ++ rest)
  suffix : ∀ s, (read s).2 <:+ s

theorem readsPart_whole : ReadsPart wholePart where
  append h s := by
    by_cases hs : s.head? = some '0'
    · obtain ⟨t, rfl⟩ := List.head?_eq_some_iff.1 hs
      rfl
    · rw [wholePart_of_ne hs, wholePart_of_ne (h.head?_append_ne (by decide) hs),
        takeWhile_append_of_stops h, dropWhile_append_of_stops h]
  suffix s := by
    unfold wholePart
    split
    · exact List.suffix_cons _ _
    · exact List.dropWhile_suffix _

theorem readsPart_fraction : ReadsPart fractionPart where
  append h s := by
    by_cases hs : s.head? = some '.'
    · obtain ⟨t, rfl⟩ := List.head?_eq_some_iff.1 hs
      rw [List.cons_append, fractionPart, fractionPart, h.head?_any, takeWhile_append_of_stops h,
        dropWhile_append_of_stops h]
      by_cases ht : t.head?.any Char.isDigit = true
      · rw [if_pos ht, if_pos ht]
      · rw [if_neg ht, if_neg ht]
        rfl
    · rw [fractionPart_of_ne hs, fractionPart_of_ne (h.head?_append_ne (by decide) hs)]
  suffix s := by
    unfold fractionPart
    split
    · split_ifs
      · exact (List.dropWhile_suffix _).trans (List.suffix_cons _ _)
      · exact List.suffix_refl _
    · exact List.suffix_refl _

theorem readsPart_sign : ReadsPart signPart where
  append h s := by
    by_cases hminus : s.head? = some '-'
    · obtain ⟨t, rfl⟩ := List.head?_eq_some_iff.1 hminus
      rfl
    · by_cases hplus : s.head? = some '+'
      · obtain ⟨t, rfl⟩ := List.head?_eq_some_iff.1 hplus
        rfl
      · rw [signPart_of_ne hminus hplus, signPart_of_ne (h.head?_append_ne (by decide) hminus)
          (h.head?_append_ne (by decide) hplus)]
  suffix s := by
    unfold signPart
    split
    · exact List.suffix_cons _ _
    · exact List.suffix_cons _ _
    · exact List.suffix_refl _

theorem readsPart_exponent : ReadsPart exponentPart where
  append {rest} h s := by
    cases s with
    | nil =>
      cases rest with
      | nil => rfl
      | cons c rest =>
        have hlower : c ≠ 'e' := by simpa using h.head?_append_ne (s := []) (d := 'e') rfl nofun
        have hupper : c ≠ 'E' := by simpa using h.head?_append_ne (s := []) (d := 'E') rfl nofun
        simp [exponentPart, hlower, hupper]
    | cons c s =>
      rw [List.cons_append, exponentPart, exponentPart, readsPart_sign.append h]
      dsimp only
      rw [h.head?_any, takeWhile_append_of_stops h, dropWhile_append_of_stops h]
      by_cases hc : ((c == 'e' || c == 'E') && (signPart s).2.head?.any Char.isDigit) = true
      · rw [if_pos hc, if_pos hc]
      · rw [if_neg hc, if_neg hc]
        rfl
  suffix s := by
    cases s with
    | nil => exact List.suffix_refl _
    | cons c s =>
      rw [exponentPart]
      dsimp only
      split_ifs
      · exact ((List.dropWhile_suffix _).trans (readsPart_sign.suffix s)).trans (List.suffix_cons c s)
      · exact List.suffix_refl _

/-! ## Numbers -/

/-- An unsigned number at the start of `s` and what follows it. -/
def magnitudePart? (negative : Bool) (s : List Char) : Option (NumberText × List Char) :=
  let (whole, s) := wholePart s
  if whole.isEmpty then none
  else
    let (fraction, s) := fractionPart s
    let (exponent, s) := exponentPart s
    some (⟨negative, whole, fraction, exponent⟩, s)

theorem numberPart?_minus (s : List Char) : numberPart? ('-' :: s) = magnitudePart? true s := rfl

theorem numberPart?_of_ne (h : s.head? ≠ some '-') : numberPart? s = magnitudePart? false s := by
  unfold numberPart?
  split
  next negative t hsign =>
    split at hsign
    · exact absurd rfl h
    · cases hsign
      rfl

theorem magnitudePart?_append (h : Stops rest) (negative : Bool) (s : List Char) :
    magnitudePart? negative (s ++ rest) =
      (magnitudePart? negative s).map fun (t, r) => (t, r ++ rest) := by
  unfold magnitudePart?
  rw [readsPart_whole.append h]
  dsimp only
  by_cases hw : (wholePart s).1.isEmpty = true
  · rw [if_pos hw, if_pos hw]
    rfl
  · rw [if_neg hw, if_neg hw, readsPart_fraction.append h]
    dsimp only
    rw [readsPart_exponent.append h]
    rfl

theorem suffix_of_magnitudePart? {negative : Bool} {t : NumberText} {r : List Char}
    (h : magnitudePart? negative s = some (t, r)) : r <:+ s := by
  unfold magnitudePart? at h
  dsimp only at h
  split_ifs at h
  cases h
  exact ((readsPart_exponent.suffix _).trans (readsPart_fraction.suffix _)).trans (readsPart_whole.suffix s)

theorem head?_of_magnitudePart? {negative : Bool} {t : NumberText} {r : List Char}
    (h : magnitudePart? negative s = some (t, r)) : s.head?.any Char.isDigit = true := by
  unfold magnitudePart? at h
  dsimp only at h
  split_ifs at h with hw
  cases s with
  | nil => exact absurd rfl hw
  | cons c s =>
    by_contra hc
    have hdigit : c.isDigit = false := by simpa using hc
    have hzero : c ≠ '0' := by
      rintro rfl
      cases hdigit
    refine hw ?_
    rw [wholePart_of_ne (by simpa using hzero)]
    simp [hdigit]

/-- A text starts like a number: with a digit, perhaps behind a minus sign. -/
def StartsNumber (s : List Char) : Prop :=
  s.head?.any Char.isDigit = true ∨ s.head? = some '-' ∧ s.tail.head?.any Char.isDigit = true

theorem startsNumber_of_numberPart? {t : NumberText} {r : List Char} (h : numberPart? s = some (t, r)) :
    StartsNumber s := by
  by_cases hs : s.head? = some '-'
  · obtain ⟨s, rfl⟩ := List.head?_eq_some_iff.1 hs
    exact Or.inr ⟨rfl, head?_of_magnitudePart? h⟩
  · rw [numberPart?_of_ne hs] at h
    exact Or.inl (head?_of_magnitudePart? h)

theorem suffix_of_numberPart? {t : NumberText} {r : List Char} (h : numberPart? s = some (t, r)) :
    r <:+ s := by
  by_cases hs : s.head? = some '-'
  · obtain ⟨s, rfl⟩ := List.head?_eq_some_iff.1 hs
    exact (suffix_of_magnitudePart? h).trans (List.suffix_cons '-' s)
  · rw [numberPart?_of_ne hs] at h
    exact suffix_of_magnitudePart? h

theorem numberPart?_append {t : NumberText} {r : List Char} (hrest : Stops rest)
    (h : numberPart? s = some (t, r)) : numberPart? (s ++ rest) = some (t, r ++ rest) := by
  by_cases hs : s.head? = some '-'
  · obtain ⟨s, rfl⟩ := List.head?_eq_some_iff.1 hs
    rw [numberPart?_minus] at h
    rw [List.cons_append, numberPart?_minus, magnitudePart?_append hrest, h]
    rfl
  · rw [numberPart?_of_ne hs] at h
    rw [numberPart?_of_ne (hrest.head?_append_ne (by decide) hs), magnitudePart?_append hrest, h]
    rfl

/-! ## Scalars -/

/-- No word starts like a number. -/
theorem find?_words_eq_none (h : StartsNumber s) : words.find? (fun w => w.1.isPrefixOf s) = none := by
  have hdigit : ∀ c d : Char, c.isDigit = true → d.isDigit = false → (d == c) = false := by
    intro c d hc hd
    rw [beq_eq_false_iff_ne]
    rintro rfl
    rw [hc] at hd
    cases hd
  rcases h with h | ⟨hs, h⟩
  · cases s with
    | nil => cases h
    | cons c s =>
      have hne := fun d => hdigit c d h
      simp [words, List.isPrefixOf, hne]
  · obtain ⟨s, rfl⟩ := List.head?_eq_some_iff.1 hs
    cases s with
    | nil => cases h
    | cons c s =>
      have hne := fun d => hdigit c d h
      simp [words, List.isPrefixOf, hne]

theorem of_find?_words {w : List Char × Value} (h : words.find? (fun w' => w'.1.isPrefixOf s) = some w) :
    w ∈ words ∧ ∃ t, s = w.1 ++ t := by
  have hpre := List.find?_some h
  obtain ⟨t, ht⟩ := List.isPrefixOf_iff_prefix.1 hpre
  exact ⟨List.mem_of_find?_eq_some h, t, ht.symm⟩

/-- A word starts the same text when more follows it. -/
theorem find?_words_append {w : List Char × Value} (h : w ∈ words) (rest : List Char) :
    words.find? (fun w' => w'.1.isPrefixOf (w.1 ++ rest)) = some w := by
  simp only [words, List.mem_cons, List.not_mem_nil, or_false] at h
  rcases h with rfl | rfl | rfl | rfl | rfl | rfl <;> rfl

/-- A scalar that stands alone is also read where no number goes on behind it. -/
theorem scalar_append {v : Value} (hrest : Stops rest) (h : scalar s = .ok (v, [])) :
    scalar (s ++ rest) = .ok (v, rest) := by
  unfold scalar at h
  split at h
  · next word v' hfind =>
    simp only [Except.ok.injEq, Prod.mk.injEq] at h
    obtain ⟨rfl, hdrop⟩ := h
    obtain ⟨hmem, t, rfl⟩ := of_find?_words hfind
    obtain rfl : t = [] := by simpa using hdrop
    have hword := find?_words_append hmem rest
    unfold scalar
    rw [List.append_nil, hword]
    simp
  · next hfind =>
    split at h
    · cases h
    · next t r hnumber =>
      split at h
      · next v' hvalue =>
        cases h
        have hstart := startsNumber_of_numberPart? (numberPart?_append hrest hnumber)
        unfold scalar
        rw [find?_words_eq_none hstart, numberPart?_append hrest hnumber]
        simp [hvalue]
      · cases h

/-- A scalar is a word or a number. -/
theorem of_scalar {v : Value} {r : List Char} (h : scalar s = .ok (v, r)) :
    (∃ word, (word, v) ∈ words ∧ s = word ++ r) ∨ ∃ t, numberPart? s = some (t, r) ∧ t.toValue = .ok v := by
  unfold scalar at h
  split at h
  · next word w hfind =>
    obtain ⟨hmem, t, rfl⟩ := of_find?_words hfind
    cases h
    exact Or.inl ⟨word, hmem, congrArg (word ++ ·) List.drop_left.symm⟩
  · split at h
    · cases h
    · next t r' hnumber =>
      split at h
      · next hvalue =>
        cases h
        exact Or.inr ⟨t, hnumber, hvalue⟩
      · cases h

theorem suffix_of_scalar {v : Value} {r : List Char} (h : scalar s = .ok (v, r)) : r <:+ s := by
  rcases of_scalar h with ⟨word, -, rfl⟩ | ⟨t, hnumber, -⟩
  · exact List.suffix_append word r
  · exact suffix_of_numberPart? hnumber

/-- Whether a character starts a number or a word. -/
def startsScalar (c : Char) : Bool := c.isDigit || ['-', 'n', 't', 'f', 'N', 'I'].contains c

theorem startsScalar_of_scalar {r : Value × List Char} (h : scalar s = .ok r) :
    ∃ c t, s = c :: t ∧ startsScalar c = true := by
  rcases of_scalar h with ⟨word, hword, rfl⟩ | ⟨t, hnumber, -⟩
  · simp only [words, List.mem_cons, Prod.mk.injEq, List.not_mem_nil, or_false] at hword
    rcases hword with ⟨rfl, -⟩ | ⟨rfl, -⟩ | ⟨rfl, -⟩ | ⟨rfl, -⟩ | ⟨rfl, -⟩ | ⟨rfl, -⟩ <;> exact ⟨_, _, rfl, rfl⟩
  · cases s with
    | nil => rcases startsNumber_of_numberPart? hnumber with h | ⟨h, -⟩ <;> cases h
    | cons c s =>
      refine ⟨c, s, rfl, ?_⟩
      unfold startsScalar
      rcases startsNumber_of_numberPart? hnumber with hc | ⟨hc, -⟩
      · rw [show c.isDigit = true from hc, Bool.true_or]
      · obtain rfl : c = '-' := by simpa using hc
        rfl

end Flowchart.Json
