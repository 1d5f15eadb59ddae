import Flowchart.Text.Basic

/-!
# Halves of characters

UTF-16 has two surrogates for a character beyond `U+FFFF`: its halves. `CodePoint.units` takes such a character
apart, and `Text.joinHalves` puts a first half and the second half behind it together. A text is joined
(`Text.isJoined`) if there are no such two halves in it. What has been put together is joined
(`Text.isJoined_joinHalves`), and exactly the joined texts are the same after they have been taken apart and put
together (`Text.rejoined_eq_iff`).
-/

namespace Flowchart

/-- The units of 16 bits that stand for a code point. -/
def CodePoint.units (c : CodePoint) : List CodePoint :=
  if c.toNat < 0x10000 then [c]
  else [ofNat (0xD800 + (c.toNat - 0x10000) / 0x400), ofNat (0xDC00 + (c.toNat - 0x10000) % 0x400)]

namespace Text

/-- Whether a first half and a second half make a character. -/
def arePair (c d : CodePoint) : Bool := c.isHigh && d.isLow

/-- The character that two halves make. -/
def ofPair (c d : CodePoint) : CodePoint :=
  .ofNat (0x10000 + (c.toNat - 0xD800) * 0x400 + (d.toNat - 0xDC00))

theorem toNat_ofPair {c d : CodePoint} (h : arePair c d = true) :
    (ofPair c d).toNat = 0x10000 + (c.toNat - 0xD800) * 0x400 + (d.toNat - 0xDC00) := by
  rw [arePair, Bool.and_eq_true, CodePoint.isHigh_iff, CodePoint.isLow_iff] at h
  exact CodePoint.toNat_ofNat (by omega)

/-- A row in which the characters stand for their two halves. -/
def joinHalves : List CodePoint → List CodePoint
  | [] => []
  | [c] => [c]
  | c :: d :: s => if arePair c d then ofPair c d :: joinHalves s else c :: joinHalves (d :: s)

/-- Whether the two halves of a character never stand next to each other. -/
def isJoined : List CodePoint → Bool
  | [] => true
  | [_] => true
  | c :: d :: s => ! arePair c d && isJoined (d :: s)

/-! ## Units -/

/-- The halves of a character make it again. -/
theorem units_of_le {c : CodePoint} (h : 0x10000 ≤ c.toNat) :
    ∃ u v, c.units = [u, v] ∧ arePair u v = true ∧ ofPair u v = c := by
  have hlt := c.isLt
  have hu : (CodePoint.ofNat (0xD800 + (c.toNat - 0x10000) / 0x400)).toNat = 0xD800 + (c.toNat - 0x10000) / 0x400 :=
    CodePoint.toNat_ofNat (by omega)
  have hv : (CodePoint.ofNat (0xDC00 + (c.toNat - 0x10000) % 0x400)).toNat = 0xDC00 + (c.toNat - 0x10000) % 0x400 :=
    CodePoint.toNat_ofNat (by omega)
  refine ⟨_, _, if_neg (by omega), ?_, ?_⟩
  · rw [arePair, Bool.and_eq_true, CodePoint.isHigh_iff, CodePoint.isLow_iff, hu, hv]
    omega
  · have hcode : 0x10000 + (0xD800 + (c.toNat - 0x10000) / 0x400 - 0xD800) * 0x400 +
        (0xDC00 + (c.toNat - 0x10000) % 0x400 - 0xDC00) = c.toNat := by omega
    rw [ofPair, hu, hv, hcode, CodePoint.ofNat_toNat]

/-- The first unit of a code point is a second half only if it is the code point itself. -/
theorem exists_units (c : CodePoint) : ∃ u us, c.units = u :: us ∧ (u.isLow = true → u = c) := by
  by_cases h : c.toNat < 0x10000
  · exact ⟨c, [], if_pos h, fun _ => rfl⟩
  · obtain ⟨u, v, hunits, hpair, -⟩ := units_of_le (Nat.le_of_not_lt h)
    refine ⟨u, [v], hunits, fun hlow => ?_⟩
    rw [arePair, Bool.and_eq_true, CodePoint.isHigh_iff] at hpair
    rw [CodePoint.isLow_iff] at hlow
    omega

/-- Every unit has 16 bits. -/
theorem toNat_lt_of_mem_units {c u : CodePoint} (h : u ∈ c.units) : u.toNat < 0x10000 := by
  have hlt := c.isLt
  have hofNat : ∀ n, n < 0x10000 → (CodePoint.ofNat n).toNat < 0x10000 := fun n hn =>
    (CodePoint.toNat_ofNat (Nat.lt_trans hn (by decide))).symm ▸ hn
  unfold CodePoint.units at h
  split at h
  · next hc => exact List.mem_singleton.1 h ▸ hc
  · rcases List.mem_cons.1 h with hu | hu
    · exact hu ▸ hofNat _ (by omega)
    · exact List.mem_singleton.1 hu ▸ hofNat _ (by omega)

/-! ## Joined texts -/

theorem joinHalves_cons {c d : CodePoint} (h : arePair c d = false) (s : List CodePoint) :
    joinHalves (c :: d :: s) = c :: joinHalves (d :: s) := by
  rw [joinHalves, h]
  rfl

theorem isJoined_cons {c : CodePoint} {s : List CodePoint} :
    isJoined (c :: s) = true ↔ (∀ d ∈ s.head?, arePair c d = false) ∧ isJoined s = true := by
  cases s with
  | nil => simp [isJoined]
  | cons d s => simp [isJoined]

/-- A joined text that has been taken apart is put together again. -/
theorem joinHalves_units {s : List CodePoint} (h : isJoined s = true) :
    joinHalves (s.flatMap CodePoint.units) = s := by
  induction s with
  | nil => rfl
  | cons c s ih =>
    obtain ⟨hnext, hs⟩ := isJoined_cons.1 h
    rw [List.flatMap_cons]
    by_cases hc : c.toNat < 0x10000
    · have hunits : c.units = [c] := if_pos hc
      rw [hunits]
      cases s with
      | nil => rfl
      | cons d s =>
        obtain ⟨u, us, hd, hlow⟩ := exists_units d
        have hpair : arePair c u = false := by
          rw [Bool.eq_false_iff]
          intro hpair
          have hboth : c.isHigh = true ∧ u.isLow = true := by simpa [arePair] using hpair
          rw [hlow hboth.2, hnext d rfl] at hpair
          cases hpair
        have hrow : (d :: s).flatMap CodePoint.units = u :: (us ++ s.flatMap CodePoint.units) := by
          rw [List.flatMap_cons, hd]
          rfl
        rw [hrow, List.singleton_append, joinHalves_cons hpair, ← hrow, ih hs]
    · obtain ⟨u, v, hunits, hpair, hjoin⟩ := units_of_le (Nat.le_of_not_lt hc)
      rw [hunits]
      show joinHalves (u :: v :: s.flatMap CodePoint.units) = c :: s
      rw [joinHalves, if_pos hpair, hjoin, ih hs]

/-- The first code point of what has been put together is the first one, or a character that was in two halves. -/
theorem head_joinHalves {c d : CodePoint} {s t : List CodePoint} (h : joinHalves (c :: s) = d :: t) :
    d = c ∨ 0x10000 ≤ d.toNat := by
  cases s with
  | nil => exact Or.inl (List.cons.inj h).1.symm
  | cons e s =>
    rw [joinHalves] at h
    split at h
    · next hpair =>
      rw [← (List.cons.inj h).1, toNat_ofPair hpair]
      omega
    · exact Or.inl (List.cons.inj h).1.symm

/-- What has been put together is joined. -/
theorem isJoined_joinHalves (s : List CodePoint) : isJoined (joinHalves s) = true := by
  induction s using joinHalves.induct with
  | case1 => rfl
  | case2 c => rfl
  | case3 c d s hpair ih =>
    rw [joinHalves, if_pos hpair, isJoined_cons]
    refine ⟨fun e _ => ?_, ih⟩
    have hhigh : (ofPair c d).isHigh = false := by
      rw [Bool.eq_false_iff, ne_eq, CodePoint.isHigh_iff, toNat_ofPair hpair]
      omega
    rw [arePair, hhigh, Bool.false_and]
  | case4 c d s hpair ih =>
    rw [joinHalves, if_neg hpair, isJoined_cons]
    refine ⟨fun e he => ?_, ih⟩
    obtain ⟨t, ht⟩ : ∃ t, joinHalves (d :: s) = e :: t := by
      cases hrow : joinHalves (d :: s) with
      | nil => rw [hrow] at he; cases he
      | cons e' t => rw [hrow] at he; cases he; exact ⟨t, rfl⟩
    rcases head_joinHalves ht with rfl | hlarge
    · exact Bool.eq_false_iff.2 hpair
    · have hlow : e.isLow = false := by
        rw [Bool.eq_false_iff, ne_eq, CodePoint.isLow_iff]
        omega
      rw [arePair, hlow, Bool.and_false]

/-- A text in which the halves of characters have been joined. -/
def rejoined (s : Text) : Text := ofList (joinHalves (s.toList.flatMap CodePoint.units))

/-- A text is the same after it has been taken apart and put together exactly if it is joined. -/
theorem rejoined_eq_iff {s : Text} : s.rejoined = s ↔ isJoined s.toList = true := by
  rw [← toList_inj]
  exact ⟨fun h => h ▸ isJoined_joinHalves _, joinHalves_units⟩

end Text

end Flowchart
