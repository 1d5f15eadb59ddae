import Flowchart.Proofs.Disk
import Flowchart.Proofs.GraphValue
import Flowchart.Proofs.Json.Printable
import Flowchart.Proofs.Text.Rows
import Flowchart.Store.File

/-!
# Tables in documents

A table that has been read from a document is plain. A plain table that is written to a document is read from it
again, if its numbers are read back.
-/

namespace Flowchart

/-! ## Bytes -/

theorem Text.Utf8.lead?_of_lt {b : UInt8} (h : b.toNat < 0x80) : lead? b = some (b.toNat, []) := by
  unfold lead?
  rw [if_pos h]

/-- A text of ASCII characters is decoded from its bytes. -/
theorem Text.Utf8.decode_encode {s : List Char} (h : ∀ c ∈ s, c.toNat < 0x80) : decode (encode s) = .ok s := by
  suffices hfrom : ∀ position done, decodeFrom position done none (encode s) = .ok (done.reverse ++ s) from
    hfrom 0 []
  induction s with
  | nil =>
    intro position done
    rw [List.append_nil]
    rfl
  | cons c s ih =>
    intro position done
    rw [List.forall_mem_cons] at h
    have hcode : c.val.toNat < 0x80 := h.1
    have hsize : c.utf8Size = 1 := by
      rw [Char.utf8Size_eq_one_iff, UInt32.le_iff_toNat_le]
      show c.val.toNat ≤ 127
      omega
    have hbyte : c.val.toUInt8.toNat = c.toNat := by
      rw [UInt32.toNat_toUInt8]
      show c.val.toNat % 256 = c.val.toNat
      omega
    have hencode : encode (c :: s) = c.val.toUInt8 :: encode s := by
      unfold encode
      rw [List.flatMap_cons, String.utf8EncodeChar_eq_singleton hsize]
      rfl
    rw [hencode, decodeFrom, lead?_of_lt (hbyte.trans_lt h.1), hbyte]
    dsimp only
    rw [Char.ofNat_toNat, ih h.2, List.reverse_cons, List.append_assoc]
    rfl

namespace Store

/-! ## Tables -/

/-- A table that a document holds as it is: a plain one whose numbers are read back. -/
structure Storable (t : Value.Table) : Prop where
  plain : t.isPlain = true
  numbers : ∀ n ∈ (Value.table t).numbers, Json.ReadsBack n

variable {t : Value.Table} {v : Value} {name : Text} {path : String} {place : List String} {d : Disk}

theorem Storable.insert (ht : Storable t) (hname : Text.isJoined name.toList = true) (hplain : v.isPlain = true)
    (hnumbers : ∀ n ∈ v.numbers, Json.ReadsBack n) : Storable (t.insert (.text name) v) := by
  refine ⟨Value.Table.isPlain_insert ht.plain hname hplain, fun n hn => ?_⟩
  obtain ⟨e, he, hne⟩ := Value.mem_numbers_table.1 hn
  rcases Value.Table.mem_of_mem_insert he with he | rfl
  · exact ht.numbers n (Value.mem_numbers_table.2 ⟨e, he, hne⟩)
  · exact hnumbers n hne

theorem Storable.erase (ht : Storable t) : Storable (t.erase (.text name)) := by
  refine ⟨Value.Table.isPlain_erase ht.plain, fun n hn => ?_⟩
  obtain ⟨e, he, hne⟩ := Value.mem_numbers_table.1 hn
  exact ht.numbers n (Value.mem_numbers_table.2 ⟨e, (Value.Table.erase_sublist t name).subset he, hne⟩)

theorem Storable.printable (ht : Storable t) : Json.unprintable? (.table t) = none :=
  Json.unprintable?_of_readsBack ht.plain ht.numbers

theorem valueOfText_eq_ok_iff {s : List Char} :
    valueOfText s = .ok v ↔ s = [] ∧ v = .table [] ∨ s ≠ [] ∧ Json.parse s = .ok v := by
  unfold valueOfText
  cases s with
  | nil => simp [eq_comm]
  | cons c s => cases Json.parse (c :: s) <;> simp [Except.mapError]

/-- A table is read where nothing stands, from an empty document, and from one that is a JSON object. -/
theorem readTable_eq_ok_iff : readTable d path = .ok t ↔
    (d.occupied path = .ok false ∧ t = []) ∨
      (d.occupied path = .ok true ∧ ∃ s, readText d path = .ok s ∧
        (s = [] ∧ t = [] ∨ s ≠ [] ∧ Json.parse s = .ok (.table t))) := by
  unfold readTable
  cases d.occupied path with
  | error f => simp
  | ok occupied =>
    cases occupied with
    | false => simp [eq_comm]
    | true =>
      have hvalue : readText d path >>= valueOfText = .ok (.table t) ↔ ∃ s, readText d path = .ok s ∧
          (s = [] ∧ t = [] ∨ s ≠ [] ∧ Json.parse s = .ok (.table t)) := by
        cases readText d path with
        | error cause => simp [error_bind]
        | ok s => simp [ok_bind, valueOfText_eq_ok_iff]
      simp only [reduceCtorEq, false_and, true_and, false_or, Except.ok.injEq, ← hvalue]
      cases readText d path >>= valueOfText with
      | error cause => simp
      | ok v => cases v <;> simp

/-- A document is read as a plain table. -/
theorem isPlain_of_readTable (h : readTable d path = .ok t) : t.isPlain = true := by
  rcases readTable_eq_ok_iff.1 h with ⟨-, rfl⟩ | ⟨-, s, -, ⟨-, rfl⟩ | ⟨-, hparse⟩⟩
  · rfl
  · rfl
  · exact Json.isPlain_of_parse hparse

/-- Every integer in a table that is read from a document is read back. -/
theorem readsBack_of_readTable (h : readTable d path = .ok t) {n : Int} (hn : .int n ∈ (Value.table t).numbers) :
    Json.ReadsBack (.int n) := by
  rcases readTable_eq_ok_iff.1 h with ⟨-, rfl⟩ | ⟨-, s, -, ⟨-, rfl⟩ | ⟨-, hparse⟩⟩
  · cases hn
  · cases hn
  · exact Json.readsBack_of_parse hparse hn

/-- A printed text that has been written to a file is read from it as it is. -/
theorem readText_put (h : d.LeadsToFile path place) {s : List Char} (hs : s.all Json.isPrinted = true) :
    readText (d.put place (.file (Text.Utf8.encode s))) path = .ok s := by
  have hascii : ∀ c ∈ s, c.toNat < 0x80 := by
    intro c hc
    have hpc := List.all_eq_true.1 hs c hc
    simp only [Json.isPrinted, Bool.or_eq_true, beq_iff_eq, Bool.and_eq_true, decide_eq_true_eq] at hpc
    rcases hpc with rfl | hpc
    · decide
    · omega
  have hreturn : '\r' ∉ s := fun hmem => by
    cases List.all_eq_true.1 hs _ hmem
  unfold readText
  rw [Disk.read_put h]
  show (do
    let s ← (Text.Utf8.decode (Text.Utf8.encode s)).mapError Cause.bytes
    return Text.unifyBreaks '\r' '\n' s) = _
  rw [Text.Utf8.decode_encode hascii]
  show Except.ok (Text.unifyBreaks '\r' '\n' s) = _
  rw [Text.unifyBreaks_eq_self hreturn]

/-- A document that has been written is read as the table that its text is read as. -/
theorem readTable_put_of_readsAs (h : d.LeadsToFile path place) {t' : Value.Table}
    (hread : Json.ReadsAs (.table t) (.table t')) :
    readTable (d.put place (.file (bytesOfTable t))) path = .ok t' := by
  have hback := hread.parse
  have hempty : (Json.print (.table t)).isEmpty = false := by
    cases hs : Json.print (.table t) with
    | nil =>
      rw [hs] at hback
      cases hback
    | cons c s => rfl
  have htext : readText (d.put place (.file (bytesOfTable t))) path = .ok (Json.print (.table t)) :=
    readText_put h (Json.all_printAt (.table t) 0)
  unfold readTable
  rw [Disk.occupied_put h, htext, ok_bind]
  unfold valueOfText
  rw [hempty, hback]
  rfl

/-- A document that has been written is read as the table that it was written for, if that holds its numbers as
they are. -/
theorem readTable_put (h : d.LeadsToFile path place) (ht : Storable t) :
    readTable (d.put place (.file (bytesOfTable t))) path = .ok t :=
  readTable_put_of_readsAs h (Json.readsAs_of_numbers ht.plain ht.numbers)

/-! ## Stores -/

theorem get_run (d : Disk) : (get : OnDisk Disk).run d = (.ok d, d) := rfl

namespace File

variable {s : File}

/-- A store reads the table in its document, and leaves the disk alone. -/
theorem table_run (s : File) (d : Disk) : s.table.run d = (readTable d s.place, d) := by
  unfold table
  rw [run_bind_ok (get_run d)]
  cases readTable d s.place <;> rfl

theorem table_run_of_ok (h : readTable d s.place = .ok t) : s.table.run d = (.ok t, d) := by
  rw [table_run, h]

theorem writeTable_run (h : d.LeadsToFile s.place place) (ht : Json.unprintable? (.table t) = none) :
    (s.writeTable t).run d = (.ok (), d.put place (.file (bytesOfTable t))) := by
  unfold writeTable
  rw [ht]
  dsimp only
  rw [run_bind_ok (get_run d), Disk.write_eq h]
  rfl

/-- Saving puts the graph under the key of the store. -/
theorem save_run_eq (hread : readTable d s.place = .ok t) (g : Graph) :
    (s.save g).run d = (s.writeTable (t.insert (.text s.key) g.toValue)).run d := by
  unfold save saveDraft
  rw [run_bind_ok (table_run_of_ok hread), Graph.toValue_draft]

/-- Saving writes the document with the graph under the key of the store. -/
theorem save_run (hread : readTable d s.place = .ok t) (h : d.LeadsToFile s.place place) {g : Graph}
    (hg : Json.unprintable? (.table (t.insert (.text s.key) g.toValue)) = none) :
    (s.save g).run d =
      (.ok (), d.put place (.file (bytesOfTable (t.insert (.text s.key) g.toValue)))) := by
  rw [save_run_eq hread]
  exact writeTable_run h hg

theorem load_run_of_error {f : Flowchart.Fault} (h : readTable d s.place = .error f) :
    s.load.run d = (.error f, d) := by
  unfold load
  rw [run_bind, table_run, h]

theorem load_run_of_absent (h : readTable d s.place = .ok t) (hget : ∀ v, t.get? s.key = some v → v = .null) :
    s.load.run d = (.ok none, d) := by
  unfold load
  rw [run_bind_ok (table_run_of_ok h)]
  cases hv : t.get? s.key with
  | none => rfl
  | some v =>
    obtain rfl := hget v hv
    rfl

theorem load_run_of_entry (h : readTable d s.place = .ok t) {v : Value} (hget : t.get? s.key = some v)
    (hv : v ≠ .null) : s.load.run d = ((s.graphOfEntry v).map some, d) := by
  unfold load
  rw [run_bind_ok (table_run_of_ok h), hget]
  cases v with
  | null => exact absurd rfl hv
  | _ =>
    dsimp only
    cases s.graphOfEntry _ <;> rfl

end File

end Store

end Flowchart
