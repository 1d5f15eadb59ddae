import Flowchart.Proofs.Json.Scalar
import Flowchart.Json.Printer
import Flowchart.Proofs.Value.Plain

/-!
# The characters of a JSON text

A printed text consists of line feeds and of ASCII characters that are no control characters. The text of a
number consists of digits, letters, points and signs.
-/

namespace Flowchart.Json

/-- Whether a character may stand in a printed text. -/
def isPrinted (c : Char) : Bool := c == '\n' || (0x20 ≤ c.toNat && c.toNat < 0x7F)

/-- Whether a character may stand in the text of a number, infinities and the like included. -/
def inScalar (c : Char) : Bool := inNumber c || "NaInfity".toList.contains c

theorem toNat_of_inScalar {c : Char} (h : inScalar c = true) : 0x2B ≤ c.toNat ∧ c.toNat < 0x7F := by
  simp only [inScalar, inNumber, Char.isDigit, Bool.or_eq_true, Bool.and_eq_true, decide_eq_true_eq, beq_iff_eq,
    ge_iff_le, UInt32.le_iff_toNat_le, List.contains_iff_mem] at h
  rcases h with (((((h | rfl) | rfl) | rfl) | rfl) | rfl) | h
  · change 48 ≤ c.toNat ∧ c.toNat ≤ 57 at h
    omega
  · decide
  · decide
  · decide
  · decide
  · decide
  · have hletters : ("NaInfity".toList.all fun d => 0x2B ≤ d.toNat && d.toNat < 0x7F) = true := by decide
    simpa using List.all_eq_true.1 hletters c h

theorem isPrinted_of_inScalar {c : Char} (h : inScalar c = true) : isPrinted c = true := by
  have hc := toNat_of_inScalar h
  simp only [isPrinted, Bool.or_eq_true, Bool.and_eq_true, decide_eq_true_eq]
  omega

theorem isSpace_of_inScalar {c : Char} (h : inScalar c = true) : isSpace c = false := by
  have hc := toNat_of_inScalar h
  by_contra hspace
  simp only [Bool.not_eq_false, isSpace, Bool.or_eq_true, beq_iff_eq] at hspace
  rcases hspace with ((rfl | rfl) | rfl) | rfl <;> simp at hc

/-! ## Numbers -/

theorem isDigit_of_mem_digits {n : Nat} {c : Char} (h : c ∈ Decimal.digits n) : c.isDigit = true :=
  Nat.isDigit_of_mem_toDigits (by decide) (by decide) h

theorem all_digits (n : Nat) : (Decimal.digits n).all inNumber = true := by
  refine List.all_eq_true.2 fun c hc => ?_
  unfold inNumber
  rw [isDigit_of_mem_digits hc, Bool.true_or]
  rfl

theorem all_signedDigits (n : Int) : (Decimal.signedDigits n).all inNumber = true := by
  unfold Decimal.signedDigits
  split_ifs
  · rw [List.all_cons, all_digits]
    rfl
  · exact all_digits _

theorem all_zeros (n : Nat) : (List.replicate n '0').all inNumber = true := by
  rw [List.all_replicate]
  split_ifs <;> rfl

theorem all_positional {ds : List Char} (hds : ds.all inNumber = true) (lead : Int) :
    (Decimal.positional ds lead).all inNumber = true := by
  have hpoint : inNumber '.' = true := rfl
  have hzero : inNumber '0' = true := rfl
  unfold Decimal.positional
  split_ifs with hlead
  · simp only [List.cons_append, List.all_cons, List.all_append, hds, hpoint, hzero, all_zeros, Bool.and_self]
  · dsimp only
    split_ifs with hlen
    · simp only [List.all_cons, List.all_append, List.all_nil, hds, hpoint, hzero, all_zeros, Bool.and_self]
    · have hparts : ((ds.take (lead.toNat + 1)).all inNumber && (ds.drop (lead.toNat + 1)).all inNumber) =
          true := by
        rw [← List.all_append, List.take_append_drop, hds]
      rw [List.all_append, List.all_cons, hpoint, Bool.true_and, hparts]

theorem all_scientific {ds : List Char} (hds : ds.all inNumber = true) (width : Nat) (lead : Int) :
    (Decimal.scientific width ds lead).all inNumber = true := by
  have hpoint : inNumber '.' = true := rfl
  have hletter : inNumber 'e' = true := rfl
  have hsign : inNumber (if lead < 0 then '-' else '+') = true := by split_ifs <;> rfl
  unfold Decimal.scientific
  dsimp only
  split
  · simp only [List.all_cons, Bool.and_eq_true] at hds
    simp only [List.cons_append, List.all_cons, List.all_append, hpoint, hletter, hsign, hds.1, hds.2.1, hds.2.2,
      all_zeros, all_digits, Bool.and_self]
  · simp only [List.all_cons, List.all_append, hletter, hsign, hds, all_zeros, all_digits, Bool.and_self]

theorem all_magnitude (style : Decimal.Style) (b : Decimal.Binary) :
    (style.magnitude b).all inNumber = true := by
  unfold Decimal.Style.magnitude
  dsimp only
  split_ifs
  · exact all_positional (all_digits _) _
  · exact all_scientific (all_digits _) _ _

theorem inScalar_of_all {s : List Char} (h : s.all inNumber = true) : s.all inScalar = true := by
  refine List.all_eq_true.2 fun c hc => ?_
  unfold inScalar
  rw [List.all_eq_true.1 h c hc, Bool.true_or]

theorem all_render (x : Float) : (floatStyle.render x).all inScalar = true := by
  unfold Decimal.Style.render
  split
  · rfl
  · next negative _ => cases negative <;> rfl
  · next negative b _ =>
    have hb := inScalar_of_all (all_magnitude floatStyle b)
    cases negative
    · exact hb
    · show ('-' :: floatStyle.magnitude b).all inScalar = true
      rw [List.all_cons, hb]
      rfl

/-! ## Whole texts -/

theorem isPrinted_of_all {s : List Char} (h : s.all inScalar = true) : s.all isPrinted = true :=
  List.all_eq_true.2 fun c hc => isPrinted_of_inScalar (List.all_eq_true.1 h c hc)

theorem isPrinted_digitChar {n : Nat} (h : n < 16) : isPrinted (Nat.digitChar n) = true := by
  decide +revert

theorem all_hex (width n : Nat) : (Text.hex width n).all isPrinted = true := by
  induction width generalizing n with
  | zero => rfl
  | succ width ih =>
    rw [Text.hex, List.all_append, ih, List.all_cons, isPrinted_digitChar (Nat.mod_lt n (by decide))]
    rfl

theorem all_unitEscape (n : Nat) : (unitEscape n).all isPrinted = true := by
  rw [unitEscape, List.all_cons, List.all_cons, all_hex]
  rfl

theorem all_escapedUnit (u : CodePoint) : (escapedUnit u).all isPrinted = true := by
  unfold escapedUnit
  split
  · rfl
  · rfl
  · rfl
  · rfl
  · rfl
  · rfl
  · rfl
  · split_ifs with hprint
    · simpa [isPrinted] using Or.inr hprint
    · exact all_unitEscape _
  · exact all_unitEscape _

theorem all_printText (s : Text) : (printText s).all isPrinted = true := by
  have hs : ((s.toList.flatMap CodePoint.units).flatMap escapedUnit).all isPrinted = true := by
    rw [List.all_flatMap]
    exact List.all_eq_true.2 fun u _ => all_escapedUnit u
  rw [printText, List.cons_append, List.all_cons, List.all_append, hs]
  rfl

theorem all_newLine (depth : Nat) : (newLine depth).all isPrinted = true := by
  rw [newLine, List.all_cons, List.all_replicate]
  split_ifs <;> rfl

theorem all_intercalate {sep : List Char} (hsep : sep.all isPrinted = true) {parts : List (List Char)}
    (h : ∀ part ∈ parts, part.all isPrinted = true) : (sep.intercalate parts).all isPrinted = true := by
  induction parts with
  | nil => rfl
  | cons p ps ih =>
    rw [List.forall_mem_cons] at h
    cases ps with
    | nil => rw [List.intercalate_singleton, h.1]
    | cons q ps => rw [List.intercalate_cons_cons, List.all_append, List.all_append, hsep, h.1, ih h.2]; rfl

/-- Printed parts between printed brackets are printed. -/
theorem all_enclose {opening closing : Char} (hopening : isPrinted opening = true)
    (hclosing : isPrinted closing = true) (depth : Nat) {parts : List (List Char)}
    (h : ∀ part ∈ parts, part.all isPrinted = true) :
    (enclose opening closing depth parts).all isPrinted = true := by
  have hsep : (',' :: newLine (depth + 1)).all isPrinted = true := by
    rw [List.all_cons, all_newLine]
    rfl
  unfold enclose
  split_ifs
  · rw [List.all_cons, List.all_cons, hopening, hclosing]
    rfl
  · simp only [List.cons_append, List.all_cons, List.all_append, List.all_nil, hopening, hclosing, all_newLine,
      all_intercalate hsep h, Bool.and_self]

theorem printItems_eq (depth : Nat) (items : List Value) : printItems depth items = items.map (printAt depth) := by
  induction items with
  | nil => rfl
  | cons v vs ih => rw [printItems, ih, List.map_cons]

theorem printEntries_eq (depth : Nat) (t : Value.Table) : printEntries depth t =
    t.map fun e => printText (keyText e.1) ++ ':' :: ' ' :: printAt depth e.2 := by
  induction t with
  | nil => rfl
  | cons e t ih => rw [printEntries, ih, List.map_cons]

/-- Every printed text consists of printed characters. -/
theorem all_printAt (v : Value) (depth : Nat) : (printAt depth v).all isPrinted = true := by
  have hitems : ∀ items : List Value, (∀ v ∈ items, ∀ depth, (printAt depth v).all isPrinted = true) →
      ∀ depth, (enclose '[' ']' depth (printItems (depth + 1) items)).all isPrinted = true := by
    intro items h depth
    rw [printItems_eq]
    exact all_enclose rfl rfl depth (List.forall_mem_map.2 fun v hv => h v hv _)
  induction v generalizing depth with
  | null => rfl
  | bool b => cases b <;> rfl
  | int n => exact isPrinted_of_all (inScalar_of_all (all_signedDigits n))
  | float x => exact isPrinted_of_all (all_render x)
  | text s => exact all_printText s
  | list items ih => exact hitems items ih depth
  | tuple items ih => exact hitems items ih depth
  | table t ih =>
    show (enclose '\x7b' '\x7d' depth (printEntries (depth + 1) t)).all isPrinted = true
    rw [printEntries_eq]
    refine all_enclose rfl rfl depth (List.forall_mem_map.2 fun e he => ?_)
    rw [List.all_append, all_printText, List.all_cons, List.all_cons, (ih e he).2]
    rfl

end Flowchart.Json
