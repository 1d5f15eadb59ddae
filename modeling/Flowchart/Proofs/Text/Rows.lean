import Flowchart.Text.Blank
import Flowchart.Text.Lines
import Mathlib.Data.List.TakeWhile
import Mathlib.Tactic.Common

/-!
# Rows and padding

`lines_rows`: rows without line breaks, each ended by a line feed, are the lines of their text.
`strip_append_left`, `strip_append_right`: blanks around a text do not change what `strip` leaves of it.
-/

namespace Flowchart.Text

open CodePoint (ofChar)

/-! ## Rows -/

theorem isBlank_of_isLineBreak {c : CodePoint} (h : isLineBreak c = true) : isBlank c = true := by
  unfold isLineBreak at h
  unfold isBlank
  simp only [Bool.or_eq_true, Bool.and_eq_true, decide_eq_true_eq, beq_iff_eq] at h ⊢
  omega

theorem isLineBreak_of_not_isBlank {c : CodePoint} (h : isBlank c = false) : isLineBreak c = false := by
  by_contra hb
  rw [isBlank_of_isLineBreak (by simpa using hb)] at h
  cases h

section

variable {α : Type} [DecidableEq α] {carriageReturn lineFeed c : α} {s : List α}

theorem unifyBreaks_cons (hc : c ≠ carriageReturn) (s : List α) :
    unifyBreaks carriageReturn lineFeed (c :: s) = c :: unifyBreaks carriageReturn lineFeed s := by
  rw [unifyBreaks, if_neg fun h => hc h.1, if_neg hc]

theorem unifyBreaks_eq_self (h : carriageReturn ∉ s) : unifyBreaks carriageReturn lineFeed s = s := by
  induction s with
  | nil => rfl
  | cons c s ih =>
    rw [List.mem_cons, not_or] at h
    rw [unifyBreaks_cons (Ne.symm h.1), ih h.2]

end

/-- A line break after a row without any splits the row off. -/
theorem splitAtBreaks_row {row : List CodePoint} (h : ∀ c ∈ row, isLineBreak c = false) (rest : List CodePoint) :
    splitAtBreaks (row ++ ofChar '\n' :: rest) = row :: splitAtBreaks rest := by
  induction row with
  | nil => rfl
  | cons c row ih =>
    have hc : isLineBreak c = false := h c List.mem_cons_self
    rw [List.cons_append, splitAtBreaks, if_neg (by simp [hc]),
      ih fun d hd => h d (List.mem_cons_of_mem _ hd)]

/-- Rows without line breaks are the lines of the text in which each of them ends with a line feed. -/
theorem lines_rows {rows : List (List CodePoint)}
    (h : ∀ row ∈ rows, ∀ c ∈ row, isLineBreak c = false) :
    lines (rows.flatMap (· ++ [ofChar '\n'])) = rows := by
  have hcr : ofChar '\r' ∉ rows.flatMap (· ++ [ofChar '\n']) := by
    intro hm
    obtain ⟨row, hrow, hc⟩ := List.mem_flatMap.1 hm
    rcases List.mem_append.1 hc with hc | hc
    · exact absurd (h row hrow _ hc) (by decide)
    · exact absurd (List.mem_singleton.1 hc) (by decide)
  unfold lines
  rw [unifyBreaks_eq_self hcr]
  clear hcr
  induction rows with
  | nil => rfl
  | cons row rows ih =>
    rw [List.flatMap_cons, List.append_assoc, List.singleton_append,
      splitAtBreaks_row (h row List.mem_cons_self),
      ih fun r hr => h r (List.mem_cons_of_mem _ hr)]

theorem lines_row {row : List CodePoint} (h : ∀ c ∈ row, isLineBreak c = false) (hne : row ≠ []) :
    lines row = [row] := by
  have hcr : ofChar '\r' ∉ row := fun hc => absurd (h _ hc) (by decide)
  unfold lines
  rw [unifyBreaks_eq_self hcr]
  clear hcr
  induction row with
  | nil => exact absurd rfl hne
  | cons c row ih =>
    have hc : isLineBreak c = false := h c List.mem_cons_self
    rw [splitAtBreaks, if_neg (by simp [hc])]
    cases row with
    | nil => rfl
    | cons d row => rw [ih (fun e he => h e (List.mem_cons_of_mem _ he)) (by simp)]

/-! ## Padding -/

theorem strip_append_left {pad : List CodePoint} (h : ∀ c ∈ pad, isBlank c = true) (s : List CodePoint) :
    strip (pad ++ s) = strip s := by
  unfold strip
  rw [List.dropWhile_append_of_pos h]

theorem dropTrailing_append {p : CodePoint → Bool} {pad : List CodePoint} (h : ∀ c ∈ pad, p c = true)
    (s : List CodePoint) : dropTrailing p (s ++ pad) = dropTrailing p s := by
  unfold dropTrailing
  rw [List.reverse_append, List.dropWhile_append_of_pos]
  intro c hc
  exact h c (List.mem_reverse.1 hc)

theorem strip_append_right {pad : List CodePoint} (h : ∀ c ∈ pad, isBlank c = true) (s : List CodePoint) :
    strip (s ++ pad) = strip s := by
  unfold strip
  rw [List.dropWhile_append]
  split_ifs with hs
  · have hpad : pad.dropWhile isBlank = [] := List.dropWhile_eq_nil_iff.2 h
    rw [hpad, List.isEmpty_iff.1 hs]
  · exact dropTrailing_append h _

/-- A text without blanks is left as it is. -/
theorem strip_of_no_blank {s : List CodePoint} (h : ∀ c ∈ s, isBlank c = false) : strip s = s :=
  strip_eq_self (fun c hc => h c (List.mem_of_mem_head? hc))
    (fun c hc => h c (List.mem_of_mem_getLast? hc))

theorem strip_eq_nil_iff {s : List CodePoint} : strip s = [] ↔ ∀ c ∈ s, isBlank c = true := by
  constructor
  · intro h c hc
    by_contra hb
    have hd : s.dropWhile isBlank ≠ [] := fun hd => hb (List.dropWhile_eq_nil_iff.1 hd c hc)
    obtain ⟨d, t, hdt⟩ := List.exists_cons_of_ne_nil hd
    have hdb : isBlank d = false := head?_dropWhile (s := s) (by rw [hdt]; rfl)
    have hall := List.dropWhile_eq_nil_iff.1 (List.reverse_eq_nil_iff.1 h)
    have := hall d (List.mem_reverse.2 (hdt ▸ List.mem_cons_self))
    rw [hdb] at this
    cases this
  · intro h
    have := strip_append_left h []
    rwa [List.append_nil] at this

end Flowchart.Text
