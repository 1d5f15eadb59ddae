import Flowchart.Proofs.Documents

/-!
# Calls that leave the disk alone

A call on a file store that fails leaves the disk as it was (`Atomic`), and loading always does (`ReadOnly`): a document
is written last, when nothing else can fail. Clearing writes it only to remove an entry, and nothing is loaded
afterwards.
-/

namespace Flowchart.Store

variable {α β : Type} {m : OnDisk α} {f : α → OnDisk β} {s : File} {d d' : Disk} {t : Value.Table}

/-- A run that fails leaves the disk as it was. -/
def Atomic (m : OnDisk α) : Prop := ∀ d f d', m.run d = (.error f, d') → d' = d

/-- Every run leaves the disk as it was. -/
def ReadOnly (m : OnDisk α) : Prop := ∀ d, (m.run d).2 = d

theorem ReadOnly.atomic (h : ReadOnly m) : Atomic m := by
  intro d f d' hrun
  have hd := h d
  rw [hrun] at hd
  exact hd

theorem readOnly_pure (a : α) : ReadOnly (pure a) := fun _ => rfl

theorem readOnly_throw (e : Flowchart.Fault) : ReadOnly (throw e : OnDisk α) := fun _ => rfl

/-- What starts with reading leaves the disk alone if the rest does. -/
theorem ReadOnly.bind (h : ReadOnly m) (hf : ∀ a, ReadOnly (f a)) : ReadOnly (m >>= f) := by
  intro d
  have hd := h d
  rw [run_bind]
  rcases hm : m.run d with ⟨e | a, d'⟩ <;> rw [hm] at hd <;> obtain rfl : d' = d := hd
  · rfl
  · exact hf a d'

/-- What starts with reading is atomic if the rest is. -/
theorem ReadOnly.bind_atomic (h : ReadOnly m) (hf : ∀ a, Atomic (f a)) : Atomic (m >>= f) := by
  intro d e d' hrun
  have hd := h d
  rw [run_bind] at hrun
  rcases hm : m.run d with ⟨e' | a, d''⟩ <;> rw [hm] at hd hrun <;> obtain rfl : d'' = d := hd
  · exact (congrArg Prod.snd hrun).symm
  · exact hf a d'' e d' hrun

namespace File

theorem readOnly_table (s : File) : ReadOnly s.table := fun d => by rw [table_run]

theorem readOnly_load (s : File) : ReadOnly s.load := by
  refine s.readOnly_table.bind fun t => ?_
  split
  · exact readOnly_pure _
  · exact readOnly_pure _
  · split
    · exact readOnly_pure _
    · exact readOnly_throw _

/-- A document is written only if its table has a text and the path leads to a place for a file. -/
theorem writeTable_cases (s : File) (t : Value.Table) (d : Disk) :
    (∃ f, (s.writeTable t).run d = (.error f, d)) ∨
      Json.unprintable? (.table t) = none ∧ ∃ place, d.LeadsToFile s.place place ∧
        (s.writeTable t).run d = (.ok (), d.put place (.file (bytesOfTable t))) := by
  cases ht : Json.unprintable? (.table t) with
  | some f =>
    refine Or.inl ⟨.unprintable f, ?_⟩
    unfold writeTable
    rw [ht]
    rfl
  | none =>
    cases hd : d.write s.place (bytesOfTable t) with
    | ok d' =>
      obtain ⟨place, hplace⟩ := Disk.exists_leadsToFile hd
      exact Or.inr ⟨rfl, place, hplace, writeTable_run hplace ht⟩
    | error f =>
      refine Or.inl ?_
      unfold writeTable
      rw [ht]
      dsimp only
      rw [run_bind_ok (get_run d), hd]
      cases f <;> exact ⟨_, rfl⟩

theorem atomic_writeTable (s : File) (t : Value.Table) : Atomic (s.writeTable t) := by
  intro d f d' hrun
  rcases s.writeTable_cases t d with ⟨f', hfail⟩ | ⟨-, place, -, hok⟩
  · rw [hfail] at hrun
    exact (congrArg Prod.snd hrun).symm
  · rw [hok] at hrun
    cases hrun

theorem atomic_saveDraft (s : File) (g : GraphDraft) : Atomic (s.saveDraft g) := by
  refine s.readOnly_table.bind_atomic fun t => ?_
  split
  · exact s.atomic_writeTable _
  · exact (readOnly_throw _).atomic

theorem atomic_clear (s : File) : Atomic s.clear := by
  refine s.readOnly_table.bind_atomic fun t => ?_
  split
  · exact (readOnly_pure _).atomic
  · exact (readOnly_pure _).atomic
  · exact s.atomic_writeTable _

/-! ## Clearing -/

theorem clear_run_of_absent (h : readTable d s.place = .ok t) (hget : ∀ v, t.get? s.key = some v → v = .null) :
    s.clear.run d = (.ok (), d) := by
  unfold clear
  rw [run_bind_ok (table_run_of_ok h)]
  cases hv : t.get? s.key with
  | none => rfl
  | some v =>
    obtain rfl := hget v hv
    rfl

theorem clear_run_of_entry (h : readTable d s.place = .ok t) {v : Value} (hget : t.get? s.key = some v)
    (hv : v ≠ .null) : s.clear.run d = (s.writeTable (t.erase (.text s.key))).run d := by
  unfold clear
  rw [run_bind_ok (table_run_of_ok h), hget]
  cases v with
  | null => exact absurd rfl hv
  | _ => rfl

theorem clear_run_of_error {f : Flowchart.Fault} (h : readTable d s.place = .error f) :
    s.clear.run d = (.error f, d) := by
  unfold clear
  rw [run_bind, table_run, h]

/-- Clearing that goes through has read the document, and has written it if there was an entry to remove. -/
theorem of_clear_run (h : s.clear.run d = (.ok (), d')) : ∃ t, readTable d s.place = .ok t ∧
    ((∀ v, t.get? s.key = some v → v = .null) ∧ d' = d ∨
      (∃ v, t.get? s.key = some v ∧ v ≠ .null) ∧ Json.unprintable? (.table (t.erase (.text s.key))) = none ∧
        ∃ place, d.LeadsToFile s.place place ∧ d' = d.put place (.file (bytesOfTable (t.erase (.text s.key))))) := by
  cases hread : readTable d s.place with
  | error f =>
    rw [clear_run_of_error hread] at h
    cases h
  | ok t =>
    refine ⟨t, rfl, ?_⟩
    by_cases habsent : ∀ v, t.get? s.key = some v → v = .null
    · rw [clear_run_of_absent hread habsent] at h
      exact Or.inl ⟨habsent, (congrArg Prod.snd h).symm⟩
    · obtain ⟨v, hget, hv⟩ : ∃ v, t.get? s.key = some v ∧ v ≠ .null := by simpa using habsent
      rw [clear_run_of_entry hread hget hv] at h
      rcases s.writeTable_cases (t.erase (.text s.key)) d with ⟨f, hfail⟩ | ⟨hprint, place, hplace, hok⟩
      · rw [hfail] at h
        cases h
      · rw [hok] at h
        exact Or.inr ⟨⟨v, hget, hv⟩, hprint, place, hplace, (congrArg Prod.snd h).symm⟩

/-- Nothing is loaded behind clearing. The document may hold other floats than it did, since it has been written
anew. -/
theorem load_run_of_clear (h : s.clear.run d = (.ok (), d')) : s.load.run d' = (.ok none, d') := by
  obtain ⟨t, hread, ⟨habsent, rfl⟩ | ⟨-, hprint, place, hplace, rfl⟩⟩ := of_clear_run h
  · exact load_run_of_absent hread habsent
  · have hplain := isPlain_of_readTable hread
    have herase : Value.isPlain (.table (t.erase (.text s.key))) = true := Value.Table.isPlain_erase hplain
    obtain ⟨f, hf⟩ := Json.exists_readsAs herase hprint
    rw [Value.mapNumbers_table] at hf
    have hrest := readTable_put_of_readsAs hplace hf
    apply load_run_of_absent hrest
    rw [Value.Table.get?_map, Value.Table.get?_erase_self hplain]
    nofun

/-- Whatever a document holds can be written again. -/
theorem unprintable?_erase (h : readTable d s.place = .ok t) (name : Text) :
    Json.unprintable? (.table (t.erase (.text name))) = none := by
  have hplain : Value.isPlain (.table (t.erase (.text name))) = true :=
    Value.Table.isPlain_erase (isPlain_of_readTable h)
  refine (Json.unprintable?_eq_none_iff hplain).2 fun n hn => ?_
  obtain ⟨e, he, hne⟩ := Value.mem_numbers_table.1 hn
  exact readsBack_of_readTable h (Value.mem_numbers_table.2 ⟨e, (Value.Table.erase_sublist t name).subset he, hne⟩)

/-- A document that can be read and written can be cleared. -/
theorem exists_clear_run (h : readTable d s.place = .ok t) (hwrite : ∃ d', d.write s.place [] = .ok d') :
    ∃ d', s.clear.run d = (.ok (), d') := by
  by_cases habsent : ∀ v, t.get? s.key = some v → v = .null
  · exact ⟨d, clear_run_of_absent h habsent⟩
  · obtain ⟨v, hget, hv⟩ : ∃ v, t.get? s.key = some v ∧ v ≠ .null := by simpa using habsent
    obtain ⟨d₁, hwrite⟩ := hwrite
    obtain ⟨place, hplace⟩ := Disk.exists_leadsToFile hwrite
    rw [clear_run_of_entry h hget hv]
    exact ⟨_, writeTable_run hplace (unprintable?_erase h s.key)⟩

/-! ## All calls -/

/-- Whatever stands on the disk, a call that fails leaves it as it was, also if what is to be saved has values of any
form in it, and loading always does. Clearing changes it only if there is an entry under the key that is not null; if
it goes through, which it does where the document can be read and written, nothing is loaded behind it. -/
theorem failed_calls_keep_disk (s : File) (d : Disk) :
    (∀ (g : Graph) f d', (s.save g).run d = (.error f, d') → d' = d) ∧
      (∀ (g : GraphDraft) f d', (s.saveDraft g).run d = (.error f, d') → d' = d) ∧
      (∀ r d', s.load.run d = (r, d') → d' = d) ∧
      (∀ f d', s.clear.run d = (.error f, d') → d' = d) ∧
      (∀ d', s.clear.run d = (.ok (), d') → d' ≠ d →
        ∃ t v, readTable d s.place = .ok t ∧ t.get? s.key = some v ∧ v ≠ .null) ∧
      (∀ d', s.clear.run d = (.ok (), d') → s.load.run d' = (.ok none, d')) ∧
      (∀ t, readTable d s.place = .ok t → (∃ d', d.write s.place [] = .ok d') →
        ∃ d', s.clear.run d = (.ok (), d')) := by
  refine ⟨fun g => s.atomic_saveDraft g.draft d, fun g => s.atomic_saveDraft g d, fun r d' hload => ?_,
    s.atomic_clear d, fun d' hclear hne => ?_, fun d' => load_run_of_clear, fun t => exists_clear_run⟩
  · have hkept := s.readOnly_load d
    rwa [hload] at hkept
  · obtain ⟨t, hread, ⟨-, hsame⟩ | ⟨⟨v, hget, hv⟩, -⟩⟩ := of_clear_run hclear
    · exact absurd hsame hne
    · exact ⟨t, v, hread, hget, hv⟩

/-- A graph with a tuple as a key is not saved, and an entry that is no graph is not loaded, but is removed. Another
entry is a float that is too large, and is read as infinity. -/
theorem failed_calls_keep_disk_mixed :
    let s : File := ⟨"g.json", "a"⟩
    let d : Disk := ⟨[(["g.json"], .file (Text.Utf8.encode
      "\x7b\"b\": 1e400, \"a\": \x7b\"nodes\": [null]\x7d, \"c\": [-0, -0.0]\x7d".toList))]⟩
    let g : GraphDraft := { viewport := .table [(.text "zoom", .int 2), (.tuple [.int 1], .null)] }
    let t : Value.Table := [(.text "b", .float Decimal.infinity),
      (.text "a", .table [(.text "nodes", .list [.null])]), (.text "c", .list [.int 0, .float (-0.0)])]
    readTable d s.place = .ok t ∧ (∃ d', d.write s.place [] = .ok d') ∧
      (s.saveDraft g).run d = (.error (.unprintable (.key .tuple)), d) ∧
      (∃ f, s.load.run d = (.error f, d)) ∧
      ∃ d', d' ≠ d ∧ s.clear.run d = (.ok (), d') ∧ s.load.run d' = (.ok none, d') := by
  intro s d g t
  have hread : readTable d s.place = .ok t := by decide +kernel
  have hwrite : ∃ d', d.write s.place [] = .ok d' := exists_ok_of_isSome (by decide +kernel)
  have hsaved : ((s.saveDraft g).run d).1 = .error (.unprintable (.key .tuple)) := by decide +kernel
  have hloaded : (s.load.run d).1.toOption.isSome = false := by decide +kernel
  -- from here on, the disk is not computed with
  clear_value d
  obtain ⟨-, hsave, hload, -, -, hafter, hclear⟩ := failed_calls_keep_disk s d
  have hsaves : (s.saveDraft g).run d = (.error (.unprintable (.key .tuple)), ((s.saveDraft g).run d).2) := by
    rw [← hsaved, Prod.eta]
  rw [hsave g _ _ hsaves] at hsaves
  have hload' := hload _ _ (Prod.eta (s.load.run d)).symm
  obtain ⟨d', hd'⟩ := hclear t hread hwrite
  have hnone := hafter d' hd'
  refine ⟨hread, hwrite, hsaves, ?_, d', ?_, hd', hnone⟩
  · cases hf : (s.load.run d).1 with
    | ok g =>
      rw [hf] at hloaded
      cases hloaded
    | error f => exact ⟨f, Prod.ext hf hload'⟩
  · rintro rfl
    rw [hnone] at hloaded
    cases hloaded

end File

end Flowchart.Store
