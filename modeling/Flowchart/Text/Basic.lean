/-!
# Texts

A `Text` is a row of code points. Unlike the characters of a `String`, a code point may be a surrogate, one of
the halves that UTF-16 makes of a character beyond `U+FFFF`; escapes in a JSON document can spell such a half
alone. Every character is a code point and every `String` a text.
-/

namespace Flowchart

/-- A Unicode code point. -/
structure CodePoint where
  toNat : Nat
  isLt : toNat < 0x110000
  deriving DecidableEq, Repr

namespace CodePoint

/-- A character as a code point. -/
def ofChar (c : Char) : CodePoint :=
  ⟨c.toNat, c.valid.elim (fun h => Nat.lt_trans h (by decide)) fun h => h.2⟩

instance : Coe Char CodePoint := ⟨ofChar⟩

@[simp] theorem toNat_ofChar (c : Char) : (c : CodePoint).toNat = c.toNat := rfl

@[simp] theorem ofChar_inj {c d : Char} : (c : CodePoint) = d ↔ c = d := by
  refine ⟨fun h => ?_, congrArg ofChar⟩
  have h' : c.toNat = d.toNat := congrArg toNat h
  exact Char.ext (UInt32.toNat_inj.1 h')

/-- The code point with a number; a number that is too large stands for `U+0000`. -/
def ofNat (n : Nat) : CodePoint := if h : n < 0x110000 then ⟨n, h⟩ else ⟨0, by decide⟩

theorem ofNat_toNat (c : CodePoint) : ofNat c.toNat = c := dif_pos c.isLt

theorem toNat_ofNat {n : Nat} (h : n < 0x110000) : (ofNat n).toNat = n := congrArg toNat (dif_pos h)

/-- Whether a code point is the first half of a character. -/
def isHigh (c : CodePoint) : Bool := 0xD800 ≤ c.toNat && c.toNat < 0xDC00

/-- Whether a code point is the second half of a character. -/
def isLow (c : CodePoint) : Bool := 0xDC00 ≤ c.toNat && c.toNat < 0xE000

theorem isHigh_iff {c : CodePoint} : c.isHigh = true ↔ 0xD800 ≤ c.toNat ∧ c.toNat < 0xDC00 := by
  simp [isHigh]

theorem isLow_iff {c : CodePoint} : c.isLow = true ↔ 0xDC00 ≤ c.toNat ∧ c.toNat < 0xE000 := by
  simp [isLow]

/-- Whether a code point is no character. -/
def isSurrogate (c : CodePoint) : Bool := c.isHigh || c.isLow

theorem isSurrogate_iff {c : CodePoint} : c.isSurrogate = true ↔ 0xD800 ≤ c.toNat ∧ c.toNat < 0xE000 := by
  rw [isSurrogate, Bool.or_eq_true, isHigh_iff, isLow_iff]
  omega

theorem isSurrogate_ofChar (c : Char) : (c : CodePoint).isSurrogate = false := by
  have hvalid : c.toNat < 0xD800 ∨ 0xDFFF < c.toNat ∧ c.toNat < 0x110000 := c.valid
  rw [Bool.eq_false_iff, ne_eq, isSurrogate_iff, toNat_ofChar]
  omega

/-- The character that a code point is, unless it is a surrogate. -/
def char? (c : CodePoint) : Option Char := if c.isSurrogate then none else some (Char.ofNat c.toNat)

@[simp] theorem char?_ofChar (c : Char) : (c : CodePoint).char? = some c := by
  rw [char?, isSurrogate_ofChar]
  exact congrArg some (Char.ofNat_toNat c)

theorem eq_ofChar_of_char? {c : CodePoint} {d : Char} (h : c.char? = some d) : c = d := by
  unfold char? at h
  split at h
  · cases h
  · next hc =>
    rw [isSurrogate_iff] at hc
    have hlt := c.isLt
    have hvalid : c.toNat.isValidChar := by
      unfold Nat.isValidChar
      omega
    have hval : d = Char.ofNatAux c.toNat hvalid := by
      rw [← Option.some.inj h, Char.ofNat, dif_pos hvalid]
    subst hval
    rfl

/-- A code point, in lower case if it is an ASCII letter. -/
def toLower (c : CodePoint) : CodePoint :=
  if 0x41 ≤ c.toNat ∧ c.toNat ≤ 0x5A then ofNat (c.toNat + 0x20) else c

/-- Whether a code point is an ASCII letter or digit. -/
def isAsciiWord (c : CodePoint) : Bool :=
  (0x30 ≤ c.toNat && c.toNat ≤ 0x39) || (0x41 ≤ c.toNat && c.toNat ≤ 0x5A) || (0x61 ≤ c.toNat && c.toNat ≤ 0x7A)

end CodePoint

/-- A row of code points. -/
structure Text where
  ofList ::
  toList : List CodePoint
  deriving DecidableEq, Repr

namespace Text

/-- A row of characters as a text. -/
def ofChars (cs : List Char) : Text := ofList (cs.map CodePoint.ofChar)

/-- A `String` as a text. -/
def ofString (s : String) : Text := ofChars s.toList

instance : Coe String Text := ⟨ofString⟩

instance : Inhabited Text := ⟨ofList []⟩

instance : Append Text := ⟨fun s t => ofList (s.toList ++ t.toList)⟩

/-- Texts are ordered by their first difference. -/
instance : LT Text := ⟨fun s t => s.toList.map CodePoint.toNat < t.toList.map CodePoint.toNat⟩

instance (s t : Text) : Decidable (s < t) :=
  inferInstanceAs (Decidable (s.toList.map CodePoint.toNat < t.toList.map CodePoint.toNat))

/-- The text of one code point. -/
def singleton (c : CodePoint) : Text := ofList [c]

/-- The characters of a text, unless it holds a surrogate. -/
def chars? (s : Text) : Option (List Char) := s.toList.mapM CodePoint.char?

/-- Texts one behind the other. -/
def join (ts : List Text) : Text := ofList (ts.flatMap toList)

/-- Texts one behind the other, with `separator` between them. -/
def intercalate (separator : Text) (ts : List Text) : Text :=
  ofList (separator.toList.intercalate (ts.map toList))

theorem ofList_toList (s : Text) : ofList s.toList = s := rfl

theorem toList_ofList (cs : List CodePoint) : (ofList cs).toList = cs := rfl

@[simp] theorem toList_empty : toList "" = [] := rfl

theorem ofList_inj {cs ds : List CodePoint} : ofList cs = ofList ds ↔ cs = ds :=
  ⟨congrArg toList, congrArg ofList⟩

theorem toList_inj {s t : Text} : s.toList = t.toList ↔ s = t :=
  ⟨fun h => congrArg ofList h, congrArg toList⟩

@[simp] theorem toList_append (s t : Text) : (s ++ t).toList = s.toList ++ t.toList := rfl

@[simp] theorem toList_ofChars (cs : List Char) : (ofChars cs).toList = cs.map CodePoint.ofChar := rfl

@[simp] theorem toList_ofString (s : String) : (s : Text).toList = s.toList.map CodePoint.ofChar := rfl

@[simp] theorem toList_join (ts : List Text) : (join ts).toList = ts.flatMap toList := rfl

theorem toList_eq_nil_iff {s : Text} : s.toList = [] ↔ s = "" := toList_inj (t := "")

@[simp] theorem ofString_inj {s t : String} : (s : Text) = t ↔ s = t := by
  refine ⟨fun h => ?_, congrArg ofString⟩
  have hmap : s.toList.map CodePoint.ofChar = t.toList.map CodePoint.ofChar := congrArg toList h
  rw [List.map_inj_right fun _ _ => CodePoint.ofChar_inj.1] at hmap
  exact String.toList_inj.1 hmap

end Text

end Flowchart
