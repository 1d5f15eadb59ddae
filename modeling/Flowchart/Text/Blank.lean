import Flowchart.Text.Basic

/-!
# Blank characters

`isBlank` is the white space of the Unicode standard, together with the four information separators
`U+001C` to `U+001F`. `strip` removes blanks at both ends of a text: what is left neither starts nor ends
with a blank, and a text without blanks at its ends is left as it is.
-/

namespace Flowchart.Text

/-- White space and the information separators. -/
def isBlank (c : CodePoint) : Bool :=
  let n := c.toNat
  (0x09 ≤ n && n ≤ 0x0D) || (0x1C ≤ n && n ≤ 0x20) || n == 0x85 || n == 0xA0 || n == 0x1680 ||
    (0x2000 ≤ n && n ≤ 0x200A) || n == 0x2028 || n == 0x2029 || n == 0x202F || n == 0x205F ||
    n == 0x3000

/-- `s` without its longest final run of characters that satisfy `p`. -/
def dropTrailing {α : Type} (p : α → Bool) (s : List α) : List α :=
  (s.reverse.dropWhile p).reverse

/-- `s` without the blanks at its two ends. -/
def strip (s : List CodePoint) : List CodePoint := dropTrailing isBlank (s.dropWhile isBlank)

@[simp] theorem strip_nil : strip [] = [] := rfl

/-! ## Ends -/

theorem dropWhile_eq_self {p : CodePoint → Bool} {s : List CodePoint} (h : ∀ c, s.head? = some c → p c = false) :
    s.dropWhile p = s := by
  cases s with
  | nil => rfl
  | cons c s => rw [List.dropWhile_cons, h c rfl]; rfl

theorem head?_dropWhile {p : CodePoint → Bool} {s : List CodePoint} {c : CodePoint}
    (h : (s.dropWhile p).head? = some c) : p c = false := by
  have := List.head?_dropWhile_not p s
  rw [h] at this
  simpa using this

theorem dropTrailing_isPrefix (p : CodePoint → Bool) (s : List CodePoint) : dropTrailing p s <+: s := by
  have := List.reverse_prefix.2 (List.dropWhile_suffix p (l := s.reverse))
  rwa [List.reverse_reverse] at this

theorem dropTrailing_eq_self {p : CodePoint → Bool} {s : List CodePoint}
    (h : ∀ c, s.getLast? = some c → p c = false) : dropTrailing p s = s := by
  rw [dropTrailing, dropWhile_eq_self, List.reverse_reverse]
  intro c hc
  exact h c (by rwa [List.head?_reverse] at hc)

theorem getLast?_dropTrailing {p : CodePoint → Bool} {s : List CodePoint} {c : CodePoint}
    (h : (dropTrailing p s).getLast? = some c) : p c = false := by
  rw [dropTrailing, List.getLast?_reverse] at h
  exact head?_dropWhile h

/-- A stripped text does not end with a blank. -/
theorem getLast?_strip {s : List CodePoint} {c : CodePoint} (h : (strip s).getLast? = some c) :
    isBlank c = false := getLast?_dropTrailing h

/-- A stripped text does not start with a blank. -/
theorem head?_strip {s : List CodePoint} {c : CodePoint} (h : (strip s).head? = some c) :
    isBlank c = false := by
  obtain ⟨t, ht⟩ := dropTrailing_isPrefix isBlank (s.dropWhile isBlank)
  refine head?_dropWhile (s := s) ?_
  have h' : (dropTrailing isBlank (s.dropWhile isBlank)).head? = some c := h
  rw [← ht, List.head?_append, h']
  rfl

theorem strip_eq_self {s : List CodePoint} (hf : ∀ c, s.head? = some c → isBlank c = false)
    (hl : ∀ c, s.getLast? = some c → isBlank c = false) : strip s = s := by
  rw [strip, dropWhile_eq_self hf, dropTrailing_eq_self hl]

/-- Stripping twice is stripping once. -/
@[simp] theorem strip_strip (s : List CodePoint) : strip (strip s) = strip s :=
  strip_eq_self (fun _ => head?_strip) (fun _ => getLast?_strip)

theorem strip_isInfix (s : List CodePoint) : strip s <:+: s :=
  (dropTrailing_isPrefix isBlank _).isInfix.trans (List.dropWhile_suffix isBlank).isInfix

end Flowchart.Text
