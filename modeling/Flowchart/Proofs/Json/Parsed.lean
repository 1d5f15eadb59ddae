import Flowchart.Proofs.Json.Scalar
import Flowchart.Proofs.Outcome
import Flowchart.Proofs.Value.Plain

/-!
# Values that are read from JSON

A property that holds of everything a single word or number can be read as, and that lists and tables take over from
what they are made of, holds of every value that is read from a text (`Hereditary.of_parse`). Being plain is such a
property: the halves of characters are joined, a key that is given twice takes the place of the first one, and there
is no text for a tuple.
-/

namespace Flowchart.Json

variable {s rest : List Char} {v : Value} {b : Nat} {P : Value → Prop}

/-! ## Texts -/

theorem isJoined_of_stringPart {start : Nat} {name : Text} (h : stringPart start s = .ok (name, rest)) :
    Text.isJoined name.toList = true := by
  obtain ⟨_, -, hr⟩ := of_map_eq_ok h
  cases hr
  exact Text.isJoined_joinHalves _

theorem isJoined_of_propertyPart {name : Text} (h : propertyPart s = .ok (name, rest)) :
    Text.isJoined name.toList = true := by
  unfold propertyPart at h
  split at h
  · obtain ⟨⟨name, r⟩, hname, h⟩ := of_bind_eq_ok h
    dsimp only at h
    split at h
    · cases h
      exact isJoined_of_stringPart hname
    · cases h
  · cases h

/-! ## Properties of what is read -/

/-- A property of scalars that carries over to all values that readers put together. -/
structure Hereditary (P : Value → Prop) : Prop where
  scalar : ∀ {s v rest}, scalar s = .ok (v, rest) → P v
  text : ∀ {s : Text}, Text.isJoined s.toList = true → P (.text s)
  list : ∀ {items}, (∀ v ∈ items, P v) → P (.list items)
  empty : P (.table [])
  insert : ∀ {t : Value.Table} {name v}, P (.table t) → Text.isJoined name.toList = true → P v →
    P (.table (t.insert (.text name) v))

/-- What the three readers of a bound find has a property. -/
structure Finds (P : Value → Prop) (b : Nat) : Prop where
  value : ∀ {s v rest}, valuePart b s = .ok (v, rest) → P v
  items : ∀ {s vs rest}, itemsPart b s = .ok (vs, rest) → ∀ v ∈ vs, P v
  entries : ∀ {s t t' rest}, P (.table t) → entriesPart b t s = .ok (t', rest) → P (.table t')

theorem Finds.value_succ (hP : Hereditary P) (ih : Finds P b) (h : valuePart (b + 1) s = .ok (v, rest)) : P v := by
  unfold valuePart at h
  split at h
  · obtain ⟨_, hs, hr⟩ := of_map_eq_ok h
    cases hr
    exact hP.text (isJoined_of_stringPart hs)
  · split at h
    · cases h
      exact hP.list (List.forall_mem_nil _)
    · obtain ⟨_, hitems, hr⟩ := of_map_eq_ok h
      cases hr
      exact hP.list (ih.items hitems)
  · split at h
    · cases h
      exact hP.empty
    · obtain ⟨_, hentries, hr⟩ := of_map_eq_ok h
      cases hr
      exact ih.entries hP.empty hentries
  · exact hP.scalar h

theorem Finds.items_succ (ih : Finds P b) {vs : List Value} (h : itemsPart (b + 1) s = .ok (vs, rest)) :
    ∀ v ∈ vs, P v := by
  rw [itemsPart] at h
  obtain ⟨⟨v, r⟩, hv, h⟩ := of_bind_eq_ok h
  dsimp only at h
  split at h
  · cases h
    exact List.forall_mem_singleton.2 (ih.value hv)
  · obtain ⟨⟨items, r'⟩, hitems, h⟩ := of_bind_eq_ok h
    cases h
    exact List.forall_mem_cons.2 ⟨ih.value hv, ih.items hitems⟩
  · cases h

theorem Finds.entries_succ (hP : Hereditary P) (ih : Finds P b) {t t' : Value.Table} (ht : P (.table t))
    (h : entriesPart (b + 1) t s = .ok (t', rest)) : P (.table t') := by
  rw [entriesPart] at h
  obtain ⟨⟨name, r⟩, hname, h⟩ := of_bind_eq_ok h
  obtain ⟨⟨v, r'⟩, hv, h⟩ := of_bind_eq_ok h
  dsimp only at h
  have hinsert : P (.table (t.insert (.text name) v)) :=
    hP.insert ht (isJoined_of_propertyPart hname) (ih.value hv)
  split at h
  · cases h
    exact hinsert
  · exact ih.entries hinsert h
  · cases h

theorem Hereditary.finds (hP : Hereditary P) (b : Nat) : Finds P b := by
  induction b with
  | zero => exact ⟨nofun, nofun, nofun⟩
  | succ b ih => exact ⟨ih.value_succ hP, ih.items_succ, ih.entries_succ hP⟩

/-- A text that is read is a value with white space around it. -/
theorem of_parse (h : parse s = .ok v) :
    ∃ rest, valuePart (2 * s.length + 2) (skipSpace s) = .ok (v, rest) ∧ skipSpace rest = [] := by
  unfold parse document at h
  split_ifs at h
  · cases h
  · rcases hvalue : valuePart (2 * s.length + 2) (skipSpace s) with f | ⟨w, rest⟩
    · rw [hvalue] at h
      cases h
    · rw [hvalue, ok_bind] at h
      dsimp only at h
      split_ifs at h with hrest
      · cases h
        exact ⟨rest, rfl, List.isEmpty_iff.1 hrest⟩
      · cases h

/-- Every value that is read from a text has a property that carries over from scalars. -/
theorem Hereditary.of_parse (hP : Hereditary P) (h : parse s = .ok v) : P v := by
  obtain ⟨rest, hvalue, -⟩ := Json.of_parse h
  exact (hP.finds _).value hvalue

/-! ## Plain values -/

theorem isPlain_of_scalar (h : scalar s = .ok (v, rest)) : v.isPlain = true := by
  rcases of_scalar h with ⟨word, hword, -⟩ | ⟨t, -, hvalue⟩
  · have hwords : ∀ w ∈ words, w.2.isPlain = true := by decide
    exact hwords _ hword
  · unfold NumberText.toValue at hvalue
    split_ifs at hvalue <;> cases hvalue <;> rfl

theorem hereditary_isPlain : Hereditary fun v => v.isPlain = true where
  scalar := isPlain_of_scalar
  text h := h
  list := Value.isPlain_list.2
  empty := rfl
  insert ht hname hv := Value.Table.isPlain_insert ht hname hv

/-- Every value that is read from a text is plain. -/
theorem isPlain_of_parse (h : parse s = .ok v) : v.isPlain = true :=
  hereditary_isPlain.of_parse h

end Flowchart.Json
