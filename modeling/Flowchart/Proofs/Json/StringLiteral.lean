import Flowchart.Json.Printer
import Flowchart.Json.StringLiteral
import Mathlib.Tactic.Common

/-!
# Strings between quotation marks

A printed string spells the units of a text, each by itself or by an escape. The units are read back one by one
(`unescaped_printed`), and then those that are the halves of a character are joined (`stringPart_printed`).
-/

namespace Flowchart.Json

/-! ## Code units -/

theorem hexValue?_digitChar {n : Nat} (h : n < 16) : Text.hexValue? (Nat.digitChar n) = some n := by
  decide +revert

/-- Four hexadecimal digits give back the number that they were made of. -/
theorem unitOf?_hex {n : Nat} (h : n < 0x10000) :
    ∃ a b c d, Text.hex 4 n = [a, b, c, d] ∧ unitOf? a b c d = some n := by
  refine ⟨_, _, _, _, rfl, ?_⟩
  have hmod : ∀ m : Nat, Text.hexValue? (Nat.digitChar (m % 16)) = some (m % 16) := fun m =>
    hexValue?_digitChar (Nat.mod_lt m (by omega))
  simp only [unitOf?, hmod, Option.bind_eq_bind, Option.bind_some, Option.pure_def, Option.some.injEq]
  omega

/-! ## Spelling -/

/-- The code points `cs` are read from `s`, whatever follows it. A string does not end without its quotation
mark, so something does. -/
def Spells (s : List Char) (cs : List CodePoint) : Prop :=
  ∀ start rest, rest ≠ [] →
    unescaped start (s ++ rest) = (unescaped start rest).map fun (ds, rest) => (cs ++ ds, rest)

theorem spells_unitEscape {u : CodePoint} (h : u.toNat < 0x10000) : Spells (unitEscape u.toNat) [u] := by
  intro start rest hrest
  obtain ⟨a, b, c, d, hhex, hunit⟩ := unitOf?_hex h
  have htext : unitEscape u.toNat ++ rest = '\\' :: 'u' :: a :: b :: c :: d :: rest := by
    rw [unitEscape, hhex]
    rfl
  rw [htext, unescaped, hunit]
  simp [hrest, CodePoint.ofNat_toNat]

theorem spells_shortEscape {e c : Char} (h : shortEscape? e = some c) : Spells ['\\', e] [↑c] := by
  intro start rest _
  have hu : e ≠ 'u' := by
    rintro rfl
    cases h
  show unescaped start ('\\' :: e :: rest) = _
  rw [unescaped.eq_6 start e rest (fun _ _ _ _ _ he _ => hu he) hu, h]
  rfl

theorem spells_self {c : Char} (hquote : c ≠ '\x22') (hslash : c ≠ '\\') (hc : 0x20 ≤ c.toNat) :
    Spells [c] [↑c] := by
  intro start rest _
  show unescaped start (c :: rest) = _
  rw [unescaped.eq_7 start c rest hquote (fun h _ => hslash h) (fun _ _ _ _ _ h _ => hslash h)
    (fun _ h _ => hslash h) (fun _ _ h _ => hslash h), if_neg (by omega)]
  rfl

/-- Every unit is spelled in print. -/
theorem spells_escapedUnit {u : CodePoint} (h : u.toNat < 0x10000) : Spells (escapedUnit u) [u] := by
  have hchar : ∀ {c s}, u.char? = some c → Spells s [↑c] → Spells s [u] := by
    intro c s hc hs
    rwa [CodePoint.eq_ofChar_of_char? hc]
  unfold escapedUnit
  split
  · next hc => exact hchar hc (spells_shortEscape rfl)
  · next hc => exact hchar hc (spells_shortEscape rfl)
  · next hc => exact hchar hc (spells_shortEscape rfl)
  · next hc => exact hchar hc (spells_shortEscape rfl)
  · next hc => exact hchar hc (spells_shortEscape rfl)
  · next hc => exact hchar hc (spells_shortEscape rfl)
  · next hc => exact hchar hc (spells_shortEscape rfl)
  · next hquote hslash _ _ _ _ _ hc =>
    split_ifs with hprint
    · exact hchar hc (spells_self hquote hslash hprint.1)
    · exact spells_unitEscape h
  · exact spells_unitEscape h

/-- The units between the quotation marks are read back up to the second of them. -/
theorem unescaped_printed (start : Nat) {us : List CodePoint} (h : ∀ u ∈ us, u.toNat < 0x10000) (rest : List Char) :
    unescaped start (us.flatMap escapedUnit ++ '\x22' :: rest) = .ok (us, rest) := by
  induction us with
  | nil => rfl
  | cons u us ih =>
    rw [List.forall_mem_cons] at h
    rw [List.flatMap_cons, List.append_assoc, spells_escapedUnit h.1 start _ (by simp), ih h.2]
    rfl

/-- A text between quotation marks is read back up to the second of them, with its halves of characters joined. -/
theorem stringPart_printed (start : Nat) (s : Text) (rest : List Char) :
    stringPart start ((s.toList.flatMap CodePoint.units).flatMap escapedUnit ++ '\x22' :: rest) =
      .ok (s.rejoined, rest) := by
  have hunits : ∀ u ∈ s.toList.flatMap CodePoint.units, u.toNat < 0x10000 := by
    intro u hu
    obtain ⟨c, -, hc⟩ := List.mem_flatMap.1 hu
    exact Text.toNat_lt_of_mem_units hc
  rw [stringPart, unescaped_printed start hunits]
  rfl

end Flowchart.Json
