import Flowchart.Proofs.Json.Float

/-!
# Values that have a text

A plain value can be written exactly if none of its integers has too many digits, and those are the integers that are
not read back. So a plain value whose numbers are read back can be written, and so can every value that has been read
(`readsBack_of_parse`). What has been written can be read, with other floats perhaps (`exists_readsAs`).
-/

namespace Flowchart.Json

variable {v : Value} {t : Value.Table}

theorem unprintableInteger?_eq_none_iff {n : Int} : unprintableInteger? n = none ↔ ReadsBack (.int n) := by
  rw [readsBack_int_iff]
  unfold unprintableInteger?
  split_ifs with h <;> simp [h]

theorem unprintableOfItems?_eq_none_iff {items : List Value} :
    unprintableOfItems? items = none ↔ ∀ v ∈ items, unprintable? v = none := by
  induction items with
  | nil => simp [unprintableOfItems?]
  | cons v vs ih => simp [unprintableOfItems?, ih]

theorem unprintableOfEntries?_eq_none_iff (hplain : t.isPlain = true) :
    unprintableOfEntries? t = none ↔ ∀ e ∈ t, unprintable? e.2 = none := by
  induction t with
  | nil => simp [unprintableOfEntries?]
  | cons e t ih =>
    obtain ⟨k, v⟩ := e
    obtain ⟨name, rfl, -, -, -, ht⟩ := Value.Table.isPlain_cons.1 hplain
    simp [unprintableOfEntries?, unprintableKey?, ih ht]

/-- A plain value can be written exactly if its integers are read back. -/
theorem unprintable?_eq_none_iff (hplain : v.isPlain = true) :
    unprintable? v = none ↔ ∀ n, .int n ∈ v.numbers → ReadsBack (.int n) := by
  induction v with
  | int m =>
    show unprintableInteger? m = none ↔ _
    rw [unprintableInteger?_eq_none_iff]
    simp [Value.numbers]
  | list items ih =>
    show unprintableOfItems? items = none ↔ _
    rw [unprintableOfItems?_eq_none_iff]
    constructor
    · intro h n hn
      obtain ⟨v, hv, hn⟩ := Value.mem_numbers_list.1 hn
      exact (ih v hv (Value.isPlain_list.1 hplain v hv)).1 (h v hv) n hn
    · intro h v hv
      apply (ih v hv (Value.isPlain_list.1 hplain v hv)).2
      exact fun n hn => h n (Value.mem_numbers_list.2 ⟨v, hv, hn⟩)
  | tuple items => cases hplain
  | table t ih =>
    show unprintableOfEntries? t = none ↔ _
    rw [unprintableOfEntries?_eq_none_iff hplain]
    constructor
    · intro h n hn
      obtain ⟨e, he, hn⟩ := Value.mem_numbers_table.1 hn
      exact ((ih e he).2 (Value.Table.isPlain_of_mem hplain he)).1 (h e he) n hn
    · intro h e he
      apply ((ih e he).2 (Value.Table.isPlain_of_mem hplain he)).2
      exact fun n hn => h n (Value.mem_numbers_table.2 ⟨e, he, hn⟩)
  | _ => simp [unprintable?, Value.numbers]

/-- A plain value whose numbers are read back can be written. -/
theorem unprintable?_of_readsBack (hplain : v.isPlain = true) (h : ∀ n ∈ v.numbers, ReadsBack n) :
    unprintable? v = none :=
  (unprintable?_eq_none_iff hplain).2 fun n hn => h (.int n) hn

/-! ## Values that have been read -/

theorem numbers_of_scalar {s rest : List Char} {n : Value} (h : scalar s = .ok (v, rest)) (hn : n ∈ v.numbers) :
    n = v := by
  rcases of_scalar h with ⟨word, hword, -⟩ | ⟨t, -, hvalue⟩
  · have hwords : ∀ w ∈ words, w.2.numbers = [] ∨ w.2.numbers = [w.2] := by decide
    rcases hwords _ hword with hnone | hone
    · rw [hnone] at hn
      cases hn
    · rw [hone] at hn
      exact List.mem_singleton.1 hn
  · unfold NumberText.toValue at hvalue
    split_ifs at hvalue <;> cases hvalue <;> exact List.mem_singleton.1 hn

theorem hereditary_integers : Hereditary fun v => ∀ n, .int n ∈ v.numbers → ReadsBack (.int n) where
  scalar {s v rest} h n hn := by
    obtain rfl := numbers_of_scalar h hn
    exact readsBack_of_scalar h
  text _ _ := nofun
  list h n hn := by
    obtain ⟨v, hv, hn⟩ := Value.mem_numbers_list.1 hn
    exact h v hv n hn
  empty _ := nofun
  insert ht _ hv n hn := by
    obtain ⟨e, he, hne⟩ := Value.mem_numbers_table.1 hn
    rcases Value.Table.mem_of_mem_insert he with he | rfl
    · exact ht n (Value.mem_numbers_table.2 ⟨e, he, hne⟩)
    · exact hv n hne

/-- Every integer in a value that is read from a text is read back. -/
theorem readsBack_of_parse {s : List Char} {n : Int} (h : parse s = .ok v) (hn : .int n ∈ v.numbers) :
    ReadsBack (.int n) :=
  hereditary_integers.of_parse h n hn

/-! ## Values that have been written -/

/-- The text of a plain value is read as the value with other numbers. -/
theorem exists_readsAs (hplain : v.isPlain = true) (h : unprintable? v = none) :
    ∃ f, ReadsAs v (v.mapNumbers f) := by
  have hnumber : ∀ n ∈ v.numbers, ∃ w, ReadsAs n w := by
    intro n hn
    obtain ⟨m, rfl⟩ | ⟨x, rfl⟩ := Value.of_mem_numbers hn
    · exact ⟨_, readsAs_of_readsBack hn ((unprintable?_eq_none_iff hplain).1 h m hn)⟩
    · obtain ⟨y, hy⟩ := exists_readsAs_float x
      exact ⟨_, hy⟩
  choose! f hf using hnumber
  exact ⟨f, readsAs_mapNumbers hplain hf⟩

end Flowchart.Json
