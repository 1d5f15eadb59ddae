import Flowchart.Text.Search
import Mathlib.Data.List.Infix
import Mathlib.Tactic.Common

/-!
# Occurrences in a text with more around it

What is added in front of a text holds no part of an occurrence if it lacks the first character of the
pattern, and what is added behind it holds none if it lacks the last one. `splitFirst` and `splitLast` then
find what they found in the text alone. A character that does not stand in the pattern separates the
occurrences before it from those behind it (`infix_append_cons_iff`).

The arrow ends with a character that stands nowhere else in it, and so does a single character. An occurrence of such
a pattern is the first one if there is none in what stands before it (`splitFirst_append`).
-/

namespace Flowchart.Text

variable {pat s : List CodePoint}

/-! ## Occurrences -/

theorem infix_of_append_left {a : List CodePoint} (ha : ∀ c ∈ a, pat.head? ≠ some c) (hne : pat ≠ [])
    (h : pat <:+: a ++ s) : pat <:+: s := by
  induction a with
  | nil => exact h
  | cons c a ih =>
    rw [List.cons_append, List.infix_cons_iff] at h
    rcases h with h | h
    · obtain ⟨d, pat, rfl⟩ := List.exists_cons_of_ne_nil hne
      rw [List.cons_prefix_cons] at h
      exact absurd (congrArg some h.1) (ha c List.mem_cons_self)
    · exact ih (fun d hd => ha d (List.mem_cons_of_mem _ hd)) h

theorem infix_of_append_right {b : List CodePoint} (hb : ∀ c ∈ b, pat.getLast? ≠ some c) (hne : pat ≠ [])
    (h : pat <:+: s ++ b) : pat <:+: s := by
  rw [← List.reverse_infix, List.reverse_append] at h
  rw [← List.reverse_infix]
  refine infix_of_append_left ?_ (by simpa using hne) h
  intro c hc
  rw [List.head?_reverse]
  exact hb c (List.mem_reverse.1 hc)

theorem prefix_of_prefix_append_cons {a b : List CodePoint} {c : CodePoint} (hc : c ∉ pat)
    (h : pat <+: a ++ c :: b) : pat <+: a := by
  rcases Nat.lt_or_ge a.length pat.length with hl | hl
  · have hac : a ++ [c] <+: pat := by
      refine List.prefix_of_prefix_length_le ?_ h (by simp; omega)
      exact ⟨b, by simp⟩
    exact absurd (hac.subset (by simp)) hc
  · exact List.prefix_of_prefix_length_le h (List.prefix_append _ _) hl

/-- A character that is not in a pattern separates its occurrences. -/
theorem infix_append_cons_iff {a b : List CodePoint} {c : CodePoint} (hc : c ∉ pat) :
    pat <:+: a ++ c :: b ↔ pat <:+: a ∨ pat <:+: b := by
  constructor
  · intro h
    induction a with
    | nil =>
      rw [List.nil_append, List.infix_cons_iff] at h
      rcases h with h | h
      · exact Or.inl (prefix_of_prefix_append_cons (a := []) hc h).isInfix
      · exact Or.inr h
    | cons d a ih =>
      rw [List.cons_append, List.infix_cons_iff] at h
      rcases h with h | h
      · exact Or.inl (prefix_of_prefix_append_cons (a := d :: a) hc h).isInfix
      · exact (ih h).imp_left fun h => h.trans (List.suffix_cons d a).isInfix
  · rintro (h | h)
    · exact h.trans (List.infix_append' [] a (c :: b))
    · exact h.trans ((List.suffix_cons c b).trans (List.suffix_append a _)).isInfix

/-! ## The first occurrence -/

theorem splitFirst_append_left {a : List CodePoint} (ha : ∀ c ∈ a, pat.head? ≠ some c) (hne : pat ≠ []) :
    splitFirst pat (a ++ s) = (splitFirst pat s).map fun p => (a ++ p.1, p.2) := by
  induction a with
  | nil => simp
  | cons c a ih =>
    have hp : ¬ pat <+: c :: (a ++ s) := by
      intro h
      obtain ⟨d, pat, rfl⟩ := List.exists_cons_of_ne_nil hne
      rw [List.cons_prefix_cons] at h
      exact absurd (congrArg some h.1) (ha c List.mem_cons_self)
    rw [List.cons_append, splitFirst_cons hp, ih fun d hd => ha d (List.mem_cons_of_mem _ hd),
      Option.map_map]
    rfl

theorem splitFirst_append_right {b : List CodePoint} (hb : ∀ c ∈ b, pat.getLast? ≠ some c) (hne : pat ≠ []) :
    splitFirst pat (s ++ b) = (splitFirst pat s).map fun p => (p.1, p.2 ++ b) := by
  cases h : splitFirst pat s with
  | none =>
    rw [splitFirst_eq_none_iff] at h
    rw [Option.map_none, splitFirst_eq_none_iff]
    exact fun hi => h (infix_of_append_right hb hne hi)
  | some p =>
    obtain ⟨x, y⟩ := p
    obtain ⟨rfl, hx⟩ := (splitFirst_eq_some_iff hne).1 h
    rw [Option.map_some, splitFirst_eq_some_iff hne]
    exact ⟨by simp, hx⟩

/-- What stands behind any occurrence stands behind the first one. -/
theorem suffix_of_splitFirst {a b x y : List CodePoint} (hne : pat ≠ [])
    (h : splitFirst pat (a ++ pat ++ b) = some (x, y)) : b <:+ y := by
  obtain ⟨hs, hx⟩ := (splitFirst_eq_some_iff hne).1 h
  have hlen := congrArg List.length hs
  simp only [List.length_append] at hlen
  rcases Nat.lt_or_ge a.length x.length with hl | hl
  · refine absurd (List.IsInfix.trans (List.suffix_append a pat).isInfix (List.IsPrefix.isInfix ?_)) hx
    have hdrop : x ++ pat.dropLast <+: a ++ pat ++ b := by
      rw [hs, List.append_assoc]
      exact (List.prefix_append_right_inj x).2 (List.IsPrefix.trans pat.dropLast_prefix (List.prefix_append _ _))
    refine List.prefix_of_prefix_length_le (List.prefix_append _ _) hdrop ?_
    have := List.length_pos_iff.2 hne
    simp only [List.length_append, List.length_dropLast]
    omega
  · refine List.suffix_of_suffix_length_le (List.suffix_append (a ++ pat) b) ?_ (by omega)
    rw [hs]
    exact List.suffix_append _ _

/-- An occurrence of a pattern whose last character stands nowhere else in it is the first one if there is none in
what stands before it. -/
theorem splitFirst_append {a b : List CodePoint} (hpat : ∀ c ∈ pat.dropLast, pat.getLast? ≠ some c) (hne : pat ≠ [])
    (ha : ¬ pat <:+: a) : splitFirst pat (a ++ pat ++ b) = some (a, b) :=
  splitFirst_eq_some fun h => ha (infix_of_append_right hpat hne h)

/-! ## The last occurrence -/

theorem splitLast_append_right {b : List CodePoint} (hb : ∀ c ∈ b, pat.getLast? ≠ some c) (hne : pat ≠ []) :
    splitLast pat (s ++ b) = (splitLast pat s).map fun p => (p.1, p.2 ++ b) := by
  have hb' : ∀ c ∈ b.reverse, pat.reverse.head? ≠ some c := by
    intro c hc
    rw [List.head?_reverse]
    exact hb c (List.mem_reverse.1 hc)
  unfold splitLast
  rw [List.reverse_append, splitFirst_append_left hb' (by simpa using hne), Option.map_map,
    Option.map_map]
  congr 1
  funext p
  simp

theorem splitLast_of_suffix (pat a : List CodePoint) : splitLast pat (a ++ pat) = some (a, []) := by
  unfold splitLast
  rw [List.reverse_append, splitFirst_append_self]
  simp

/-! ## A single character -/

section Character

variable {c : CodePoint} {a b : List CodePoint}

theorem splitFirst_singleton (ha : c ∉ a) : splitFirst [c] (a ++ c :: b) = some (a, b) := by
  rw [List.append_cons]
  exact splitFirst_append (by simp) (by simp) (mt (List.singleton_infix_iff c a).1 ha)

theorem not_mem_of_splitFirst (h : splitFirst [c] s = some (a, b)) : c ∉ a := by
  have ha := not_infix_of_splitFirst (by simp) h
  rw [List.singleton_infix_iff] at ha
  exact fun hc => ha (List.mem_append_left _ hc)

theorem splitFirst_singleton_eq_none_iff : splitFirst [c] s = none ↔ c ∉ s := by
  rw [splitFirst_eq_none_iff, List.singleton_infix_iff]

/-- The parts around an occurrence that does not stand again behind it. -/
theorem splitLast_singleton (hb : c ∉ b) : splitLast [c] (a ++ c :: b) = some (a, b) := by
  have hb' : ∀ d ∈ b, [c].getLast? ≠ some d := by
    intro d hd h
    obtain rfl := Option.some.inj h
    exact hb hd
  rw [List.append_cons, splitLast_append_right hb' (by simp), splitLast_of_suffix]
  simp

theorem not_mem_of_splitLast (h : splitLast [c] s = some (a, b)) : c ∉ b := by
  obtain ⟨⟨b', a'⟩, hs, he⟩ := Option.map_eq_some_iff.1 h
  cases he
  exact fun hc => not_mem_of_splitFirst hs (List.mem_reverse.1 hc)

theorem splitLast_singleton_eq_none_iff : splitLast [c] s = none ↔ c ∉ s := by
  rw [splitLast_eq_none_iff, List.singleton_infix_iff]

end Character

end Flowchart.Text
