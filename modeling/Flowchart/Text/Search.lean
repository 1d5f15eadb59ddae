import Flowchart.Text.Basic

/-!
# Splitting a text at an occurrence

`splitFirst pat s` is the pair of texts before and after the first occurrence of `pat` in `s`, and
`splitLast pat s` the pair around the last one. Both are `none` when `pat` does not occur.

The text is put together again from the parts (`eq_append_of_splitFirst`), and nothing but the first
occurrence qualifies: `pat` does not occur in the part before it, even if all but the last character of
`pat` is added to that part (`splitFirst_eq_some_iff`).
-/

namespace Flowchart.Text

/-- The text before and the text after the first occurrence of `pat`. -/
def splitFirst (pat : List CodePoint) (s : List CodePoint) : Option (List CodePoint × List CodePoint) :=
  if pat.isPrefixOf s then some ([], s.drop pat.length)
  else
    match s with
    | [] => none
    | c :: rest => (splitFirst pat rest).map fun (before, after) => (c :: before, after)

/-- The text before and the text after the last occurrence of `pat`. -/
def splitLast (pat : List CodePoint) (s : List CodePoint) : Option (List CodePoint × List CodePoint) :=
  (splitFirst pat.reverse s.reverse).map fun (after, before) => (before.reverse, after.reverse)

/-- Whether `pat` occurs in `s`. -/
def occurs (pat : List CodePoint) (s : List CodePoint) : Bool := (splitFirst pat s).isSome

/-! ## The first occurrence -/

theorem splitFirst_append_self (pat b : List CodePoint) : splitFirst pat (pat ++ b) = some ([], b) := by
  have h : pat.isPrefixOf (pat ++ b) = true :=
    List.isPrefixOf_iff_prefix.2 (List.prefix_append pat b)
  rw [splitFirst.eq_def, if_pos h, List.drop_left]

theorem splitFirst_cons {pat s : List CodePoint} {c : CodePoint} (h : ¬ pat <+: c :: s) :
    splitFirst pat (c :: s) = (splitFirst pat s).map fun (a, b) => (c :: a, b) := by
  have h' : ¬ pat.isPrefixOf (c :: s) = true := mt List.isPrefixOf_iff_prefix.1 h
  rw [splitFirst.eq_def, if_neg h']

theorem eq_append_of_splitFirst {pat s a b : List CodePoint} (h : splitFirst pat s = some (a, b)) :
    s = a ++ pat ++ b := by
  induction s generalizing a b with
  | nil =>
    rw [splitFirst.eq_def] at h
    split at h
    · next hp =>
      rw [List.isPrefixOf_iff_prefix, List.prefix_nil] at hp
      subst hp
      cases h
      rfl
    · cases h
  | cons c s ih =>
    by_cases hp : pat <+: c :: s
    · obtain ⟨r, hr⟩ := hp
      rw [← hr, splitFirst_append_self] at h
      cases h
      simp [hr]
    · rw [splitFirst_cons hp] at h
      obtain ⟨⟨a', b'⟩, hs, he⟩ := Option.map_eq_some_iff.1 h
      cases he
      simp [ih hs]

theorem splitFirst_eq_none_iff {pat s : List CodePoint} : splitFirst pat s = none ↔ ¬ pat <:+: s := by
  induction s with
  | nil =>
    rw [splitFirst.eq_def, List.infix_nil]
    by_cases hp : pat = []
    · simp [hp]
    · have hnot : ¬ pat.isPrefixOf [] = true := by rwa [List.isPrefixOf_iff_prefix, List.prefix_nil]
      rw [if_neg hnot]
      simp [hp]
  | cons c s ih =>
    by_cases hp : pat <+: c :: s
    · obtain ⟨r, hr⟩ := hp
      rw [← hr, splitFirst_append_self]
      simp [(List.prefix_append pat r).isInfix]
    · rw [splitFirst_cons hp, Option.map_eq_none_iff, ih, List.infix_cons_iff]
      simp [hp]

theorem occurs_eq_true_iff {pat s : List CodePoint} : occurs pat s = true ↔ pat <:+: s := by
  rw [occurs, Option.isSome_iff_ne_none, ne_eq, splitFirst_eq_none_iff, Classical.not_not]

/-- A prefix of a text that reaches beyond the part before an occurrence of `pat` by less than `pat` is a
prefix of that part with all but the last character of `pat`. -/
theorem prefix_dropLast {pat a b : List CodePoint} {c : CodePoint} (h : pat <+: c :: (a ++ pat ++ b)) :
    pat <+: c :: (a ++ pat.dropLast) := by
  have hlen : pat.length ≤ (c :: (a ++ pat.dropLast)).length := by simp; omega
  have hpre : c :: (a ++ pat.dropLast) <+: c :: (a ++ pat ++ b) := by
    rw [List.append_assoc]
    refine List.cons_prefix_cons.2 ⟨rfl, (List.prefix_append_right_inj a).2 ?_⟩
    exact List.IsPrefix.trans pat.dropLast_prefix (List.prefix_append pat b)
  exact List.prefix_of_prefix_length_le h hpre hlen

/-- No occurrence starts before the first one. -/
theorem not_infix_of_splitFirst {pat s a b : List CodePoint} (hne : pat ≠ []) (h : splitFirst pat s = some (a, b)) :
    ¬ pat <:+: a ++ pat.dropLast := by
  induction s generalizing a b with
  | nil =>
    have := eq_append_of_splitFirst h
    simp_all
  | cons c s ih =>
    by_cases hp : pat <+: c :: s
    · obtain ⟨r, hr⟩ := hp
      rw [← hr, splitFirst_append_self] at h
      cases h
      intro hi
      have := hi.length_le
      have := List.length_pos_iff.2 hne
      simp at *
      omega
    · rw [splitFirst_cons hp] at h
      obtain ⟨⟨a', b'⟩, hs, he⟩ := Option.map_eq_some_iff.1 h
      cases he
      rw [List.cons_append, List.infix_cons_iff]
      rintro (hi | hi)
      · refine hp (hi.trans ?_)
        rw [eq_append_of_splitFirst hs, List.append_assoc]
        refine List.cons_prefix_cons.2 ⟨rfl, (List.prefix_append_right_inj a').2 ?_⟩
        exact List.IsPrefix.trans pat.dropLast_prefix (List.prefix_append pat _)
      · exact ih hs hi

theorem splitFirst_eq_some {pat a b : List CodePoint} (h : ¬ pat <:+: a ++ pat.dropLast) :
    splitFirst pat (a ++ pat ++ b) = some (a, b) := by
  induction a with
  | nil => exact splitFirst_append_self pat b
  | cons c a ih =>
    rw [List.cons_append, List.infix_cons_iff, not_or] at h
    have hp : ¬ pat <+: c :: (a ++ pat ++ b) := fun hp => h.1 (prefix_dropLast hp)
    rw [List.cons_append, List.cons_append, splitFirst_cons hp, ih h.2]
    rfl

/-- The parts around the first occurrence, and around no other. -/
theorem splitFirst_eq_some_iff {pat s a b : List CodePoint} (hne : pat ≠ []) :
    splitFirst pat s = some (a, b) ↔ s = a ++ pat ++ b ∧ ¬ pat <:+: a ++ pat.dropLast := by
  constructor
  · intro h
    exact ⟨eq_append_of_splitFirst h, not_infix_of_splitFirst hne h⟩
  · rintro ⟨rfl, h⟩
    exact splitFirst_eq_some h

/-! ## The last occurrence -/

theorem eq_append_of_splitLast {pat s a b : List CodePoint} (h : splitLast pat s = some (a, b)) :
    s = a ++ pat ++ b := by
  obtain ⟨⟨b', a'⟩, hs, he⟩ := Option.map_eq_some_iff.1 h
  cases he
  rw [← List.reverse_inj, eq_append_of_splitFirst hs]
  simp

theorem splitLast_eq_none_iff {pat s : List CodePoint} : splitLast pat s = none ↔ ¬ pat <:+: s := by
  rw [splitLast, Option.map_eq_none_iff, splitFirst_eq_none_iff, List.reverse_infix]

end Flowchart.Text
