import Flowchart.Text.Basic

/-!
# Lines of a text

A line ends at a line break or at the end of the text; a carriage return and the line feed after it are one
break. The breaks are not part of the lines, and a break at the very end opens no further line.
-/

namespace Flowchart.Text

/-- Line and page breaks, the three larger information separators and the two Unicode separators. -/
def isLineBreak (c : CodePoint) : Bool :=
  let n := c.toNat
  (0x0A ≤ n && n ≤ 0x0D) || (0x1C ≤ n && n ≤ 0x1E) || n == 0x85 || n == 0x2028 || n == 0x2029

/-- A row with line feeds for carriage returns; one that stands before a line feed is left out. -/
def unifyBreaks {α : Type} [DecidableEq α] (carriageReturn lineFeed : α) : List α → List α
  | [] => []
  | c :: rest =>
    if c = carriageReturn ∧ rest.head? = some lineFeed then unifyBreaks carriageReturn lineFeed rest
    else (if c = carriageReturn then lineFeed else c) :: unifyBreaks carriageReturn lineFeed rest

/-- The parts of `s` that end at a break or at the end of `s`. -/
def splitAtBreaks : List CodePoint → List (List CodePoint)
  | [] => []
  | c :: rest =>
    if isLineBreak c then [] :: splitAtBreaks rest
    else
      match splitAtBreaks rest with
      | [] => [[c]]
      | line :: lines => (c :: line) :: lines

/-- The lines of `s`, in order, without their breaks. -/
def lines (s : List CodePoint) : List (List CodePoint) := splitAtBreaks (unifyBreaks '\r' '\n' s)

@[simp] theorem lines_nil : lines [] = [] := rfl

/-- No line holds a break. -/
theorem isLineBreak_of_mem_lines {s l : List CodePoint} {c : CodePoint} (hl : l ∈ lines s) (hc : c ∈ l) :
    isLineBreak c = false := by
  unfold lines at hl
  generalize unifyBreaks _ _ s = t at hl
  induction t generalizing l with
  | nil => cases hl
  | cons d rest ih =>
    by_cases hd : isLineBreak d = true
    · rw [splitAtBreaks, if_pos hd] at hl
      rcases List.mem_cons.1 hl with rfl | hl
      · cases hc
      · exact ih hc hl
    · rw [splitAtBreaks, if_neg hd] at hl
      have hd' : isLineBreak d = false := by simpa using hd
      split at hl
      · obtain rfl := List.mem_singleton.1 hl
        obtain rfl := List.mem_singleton.1 hc
        exact hd'
      · next line lines he =>
        rcases List.mem_cons.1 hl with rfl | hl
        · rcases List.mem_cons.1 hc with rfl | hc
          · exact hd'
          · exact ih hc (he ▸ List.mem_cons_self)
        · exact ih hc (he ▸ List.mem_cons_of_mem _ hl)

end Flowchart.Text
