import Flowchart.Proofs.Decimal.Integers
import Flowchart.Proofs.Documents
import Flowchart.Proofs.GraphValue

/-!
# What a store may answer

A file that cannot be decoded or holds no table, and an entry that is no graph, are faults of the store. There is one
exception: a coordinate that is an integer beyond the range of floats is a fault of its own (`Store.File.load_iff`).

Documents are read here however deep their lists and tables are nested. A program whose stack is limited fails on some
that are nested too deep; of such a failure nothing is said.
-/

namespace Flowchart

/-! ## Integers beyond the range of floats -/

/-- An integer whose magnitude has reached the limit of the floats. -/
def Value.Oversized (v : Value) : Prop := ∃ n : ℤ, v = .int n ∧ Decimal.limit ≤ |(n : ℚ)|

theorem Value.toFloat_eq_tooLarge_iff {v : Value} : v.toFloat = .error .tooLarge ↔ v.Oversized := by
  have hother : (∀ n, v ≠ .int n) → v.toFloat ≠ .error .tooLarge → (v.toFloat = .error .tooLarge ↔ v.Oversized) :=
    fun hint hne => iff_of_false hne fun ⟨n, hn, _⟩ => hint n hn
  cases v with
  | int n =>
    have hsize : (Value.int n).Oversized ↔ Decimal.floatOfInt? n = none := by
      rw [Decimal.floatOfInt?_eq_none_iff]
      constructor
      · rintro ⟨m, hm, hlarge⟩
        obtain rfl := Value.int.inj hm
        exact hlarge
      · exact fun hlarge => ⟨n, rfl, hlarge⟩
    rw [hsize]
    show (Decimal.floatOfInt? n).elim (Except.error .tooLarge) Except.ok = Except.error Fault.tooLarge ↔ _
    cases Decimal.floatOfInt? n with
    | none => exact iff_of_true rfl rfl
    | some x => exact iff_of_false nofun nofun
  | text s =>
    refine hother nofun ?_
    show (s.chars? >>= Decimal.readFloat?).elim (Except.error (Fault.notANumeral s)) Except.ok ≠ _
    cases s.chars? >>= Decimal.readFloat? <;> nofun
  | _ => exact hother nofun nofun

/-- A step that does not fail for the size of a number. -/
def Sizeless {α : Type} (x : Except Value.Fault α) : Prop := x ≠ .error .tooLarge

namespace Sizeless

variable {α β : Type}

theorem bind {x : Except Value.Fault α} {f : α → Except Value.Fault β} (hx : Sizeless x) (hf : ∀ a, Sizeless (f a)) :
    Sizeless (x >>= f) := by
  intro h
  obtain h | ⟨a, -, h⟩ := bind_eq_error_iff.1 h
  · exact hx h
  · exact hf a h

theorem map {x : Except Value.Fault α} (hx : Sizeless x) (f : α → β) : Sizeless (f <$> x) := by
  cases x with
  | error e =>
    intro h
    exact hx (congrArg Except.error (Except.error.inj h))
  | ok a => nofun

theorem lookup (v : Value) (name : Text) (default : Value) : Sizeless (v.lookup name default) := by
  cases v <;> nofun

theorem entry (v : Value) (name : Text) : Sizeless (v.entry name) := by
  cases v with
  | table entries =>
    unfold Value.entry
    dsimp only
    cases Value.Table.get? entries name <;> nofun
  | _ => nofun

theorem items (v : Value) : Sizeless v.items := by
  cases v <;> nofun

theorem entryOfItem (index : ℕ) (v : Value) : Sizeless (Value.entryOfItem index v) := by
  intro h
  unfold Value.entryOfItem at h
  split at h <;> cases h

theorem addEntries (same : Value.KeyRule) (values : List Value) (t : Value.Table) (index : ℕ) :
    Sizeless (Value.addEntries same t index values) := by
  induction values generalizing t index with
  | nil => nofun
  | cons v values ih =>
    unfold Value.addEntries
    refine (entryOfItem index v).bind fun e => ?_
    obtain ⟨key, value⟩ := e
    dsimp only
    split
    · nofun
    · exact ih _ _

theorem toTable (same : Value.KeyRule) (v : Value) : Sizeless (v.toTable same) := by
  cases v with
  | table entries => nofun
  | _ => exact (items _).bind fun values => addEntries same values [] 0

theorem edge (place : Text) (v : Value) : Sizeless (Edge.ofValue place v) :=
  (entry v _).bind fun _ => (entry v _).bind fun _ => (lookup v _ _).bind fun _ => (lookup v _ _).bind fun _ => nofun

theorem edgesOf (vs : List Value) (place : ℕ) : Sizeless (Graph.edgesOf place vs) := by
  induction vs generalizing place with
  | nil => nofun
  | cons v vs ih => exact (edge _ v).bind fun _ => (ih _).bind fun _ => nofun

theorem itemsUnder (name : Text) (v : Value) : Sizeless (Graph.itemsUnder name v) := by
  refine (lookup v _ _).bind fun entry => ?_
  split_ifs
  · exact items entry
  · nofun

theorem viewportOf (same : Value.KeyRule) (v : Value) : Sizeless (Graph.viewportOf same v) := by
  refine (lookup v _ _).bind fun entry => ?_
  split_ifs
  · exact (toTable same entry).map _
  · nofun

theorem labelOf (v : Value) : Sizeless (Node.labelOf v) := by
  refine (lookup v _ _).bind fun label => ?_
  cases label with
  | null =>
    refine (lookup v _ _).bind fun data => ?_
    split_ifs
    · exact lookup data _ _
    · nofun
  | _ => nofun

end Sizeless

/-! ## Nodes -/

namespace Node

/-- What is read of a node before its coordinates are: its mention, and the values of the coordinates. -/
def partsOf (v : Value) : Except Value.Fault (Mention × Value × Value) := do
  let label ← labelOf v
  let position ← v.lookup "position" .null
  let position := if position.isPresent then position else .table []
  let id ← v.entry "id"
  let shape ← v.lookup "type" .null
  let x ← position.lookup "x" (.float 0.0)
  let y ← position.lookup "y" (.float 0.0)
  return (⟨id.toText, .ofValue shape, label.presentText⟩, x, y)

/-- Both coordinates are there as soon as the first is. -/
theorem ofValue_eq (v : Value) :
    ofValue v = (do
      let (m, x, y) ← partsOf v
      return ofMention m (← x.toFloat) (← y.toFloat)) := by
  unfold ofValue partsOf
  simp only [bind_assoc]
  refine bind_congr fun label => bind_congr fun position => bind_congr fun id => bind_congr fun shape => ?_
  generalize (if position.isPresent = true then position else Value.table []) = place
  cases place <;> rfl

theorem sizeless_partsOf (v : Value) : Sizeless (partsOf v) :=
  (Sizeless.labelOf v).bind fun _ => (Sizeless.lookup v _ _).bind fun _ => (Sizeless.entry v _).bind fun _ =>
    (Sizeless.lookup v _ _).bind fun _ => (Sizeless.lookup _ _ _).bind fun _ => (Sizeless.lookup _ _ _).bind fun _ => nofun

/-- A node that can be read but for its coordinates, one of which is too large. The second is looked at only if the
first is a number. -/
def Oversized (v : Value) : Prop :=
  ∃ m x y, partsOf v = .ok (m, x, y) ∧ (x.Oversized ∨ (∃ c, x.toFloat = .ok c) ∧ y.Oversized)

theorem ofValue_eq_tooLarge_iff {v : Value} : ofValue v = .error .tooLarge ↔ Oversized v := by
  rw [ofValue_eq, bind_eq_error_iff, or_iff_right (sizeless_partsOf v)]
  constructor
  · rintro ⟨⟨m, x, y⟩, hparts, h⟩
    refine ⟨m, x, y, hparts, ?_⟩
    obtain hx | ⟨c, hc, h⟩ := bind_eq_error_iff.1 h
    · exact Or.inl (Value.toFloat_eq_tooLarge_iff.1 hx)
    obtain hy | ⟨c', -, h⟩ := bind_eq_error_iff.1 h
    · exact Or.inr ⟨⟨c, hc⟩, Value.toFloat_eq_tooLarge_iff.1 hy⟩
    · cases h
  · rintro ⟨m, x, y, hparts, h⟩
    refine ⟨(m, x, y), hparts, bind_eq_error_iff.2 ?_⟩
    obtain hx | ⟨⟨c, hc⟩, hy⟩ := h
    · exact Or.inl (Value.toFloat_eq_tooLarge_iff.2 hx)
    · exact Or.inr ⟨c, hc, bind_eq_error_iff.2 (Or.inl (Value.toFloat_eq_tooLarge_iff.2 hy))⟩

end Node

/-! ## Graphs -/

namespace Graph

/-- A graph with a node that has too large a coordinate, behind nodes that can all be read. -/
def Oversized (v : Value) : Prop :=
  ∃ before item after, itemsUnder "nodes" v = .ok (before ++ item :: after) ∧
    (∀ b ∈ before, ∃ n, Node.ofValue b = .ok n) ∧ Node.Oversized item

theorem read_eq_tooLarge_iff {same : Value.KeyRule} {v : Value} :
    read same v = .error .tooLarge ↔ Oversized v := by
  have hrest : ∀ nodes : List Node, Sizeless (do
      let edges ← edgesOf 0 (← itemsUnder "edges" v)
      return ⟨nodes, edges, ← viewportOf same v⟩ : Except Value.Fault Graph) := fun nodes =>
    (Sizeless.itemsUnder _ v).bind fun items => (Sizeless.edgesOf items 0).bind fun edges =>
      (Sizeless.viewportOf same v).bind fun view => nofun
  unfold read
  rw [bind_eq_error_iff, or_iff_right (Sizeless.itemsUnder _ v)]
  constructor
  · rintro ⟨items, hitems, h⟩
    obtain h | ⟨nodes, -, h⟩ := bind_eq_error_iff.1 h
    · obtain ⟨before, item, after, rfl, hbefore, hitem⟩ := mapM_eq_error_iff.1 h
      exact ⟨before, item, after, hitems, hbefore, Node.ofValue_eq_tooLarge_iff.1 hitem⟩
    · exact absurd h (hrest nodes)
  · rintro ⟨before, item, after, hitems, hbefore, hitem⟩
    refine ⟨_, hitems, bind_eq_error_iff.2 (Or.inl (mapM_eq_error_iff.2 ?_))⟩
    exact ⟨before, item, after, rfl, hbefore, Node.ofValue_eq_tooLarge_iff.2 hitem⟩

end Graph

/-! ## Stores -/

namespace Store

variable {s : File} {d : Disk} {content : List UInt8} {t : Value.Table}

/-- The faults of reading a file that is there are faults of the store. -/
theorem store_of_readTable {path : String} (h : d.read path = .ok content) {f : Flowchart.Fault}
    (hf : readTable d path = .error f) : ∃ f', f = .store f' := by
  unfold readTable at hf
  rw [Disk.occupied_of_read h] at hf
  dsimp only at hf
  split at hf
  · exact ⟨_, (Except.error.inj hf).symm⟩
  · cases hf
  · exact ⟨_, (Except.error.inj hf).symm⟩

namespace File

/-- The entry of a store is a graph with a node that has too large a coordinate. -/
def EntryOversized (s : File) (d : Disk) : Prop :=
  ∃ t v, readTable d s.place = .ok t ∧ t.get? s.key = some v ∧ Graph.Oversized v

theorem entryOversized_iff (h : readTable d s.place = .ok t) :
    s.EntryOversized d ↔ ∃ v, t.get? s.key = some v ∧ Graph.Oversized v := by
  constructor
  · rintro ⟨t', v, ht', hv⟩
    obtain rfl := Except.ok.inj (h.symm.trans ht')
    exact ⟨v, hv⟩
  · rintro ⟨v, hv⟩
    exact ⟨t, v, h, hv⟩

/-- An entry that has been reached is a graph, is corrupt, or has too large a coordinate. -/
theorem graphOfEntry_cases (s : File) (v : Value) :
    (¬ Graph.Oversized v → (∃ g, s.graphOfEntry v = .ok g) ∨ ∃ f, s.graphOfEntry v = .error (.store f)) ∧
      (Graph.Oversized v → s.graphOfEntry v = .error (.value .tooLarge)) := by
  have hsize : Graph.ofDocument v = .error .tooLarge ↔ Graph.Oversized v := Graph.read_eq_tooLarge_iff
  unfold graphOfEntry
  cases hg : Graph.ofDocument v with
  | ok g =>
    rw [hg] at hsize
    refine ⟨fun _ => Or.inl ⟨g, rfl⟩, fun hv => ?_⟩
    cases hsize.2 hv
  | error f =>
    rw [hg] at hsize
    refine ⟨fun hv => ?_, fun hv => ?_⟩
    · have hf : f ≠ .tooLarge := fun heq => hv (hsize.1 (congrArg Except.error heq))
      cases f with
      | tooLarge => exact absurd rfl hf
      | _ => exact Or.inr ⟨_, rfl⟩
    · obtain rfl := Except.error.inj (hsize.2 hv)
      rfl

theorem not_oversized_null : ¬ Graph.Oversized .null := by
  rintro ⟨before, item, after, h, -⟩
  cases h

theorem load_cases (h : d.read s.place = .ok content) :
    (¬ s.EntryOversized d → (∃ g, (s.load.run d).1 = .ok g) ∨ ∃ f, (s.load.run d).1 = .error (.store f)) ∧
      (s.EntryOversized d → (s.load.run d).1 = .error (.value .tooLarge)) := by
  cases ht : readTable d s.place with
  | error f =>
    obtain ⟨f', rfl⟩ := store_of_readTable h ht
    rw [load_run_of_error ht]
    refine ⟨fun _ => Or.inr ⟨f', rfl⟩, ?_⟩
    rintro ⟨t, v, ht', -⟩
    rw [ht] at ht'
    cases ht'
  | ok t =>
    rw [entryOversized_iff ht]
    by_cases habsent : ∀ v, t.get? s.key = some v → v = .null
    · rw [load_run_of_absent ht habsent]
      refine ⟨fun _ => Or.inl ⟨none, rfl⟩, ?_⟩
      rintro ⟨v, hv, hsize⟩
      rw [habsent v hv] at hsize
      exact absurd hsize not_oversized_null
    · obtain ⟨v, hget, hv⟩ : ∃ v, t.get? s.key = some v ∧ v ≠ .null := by simpa using habsent
      obtain ⟨hfits, hlarge⟩ := graphOfEntry_cases s v
      rw [load_run_of_entry ht hget hv]
      refine ⟨fun hno => ?_, ?_⟩
      · obtain ⟨g, hg⟩ | ⟨f, hf⟩ := hfits fun hsize => hno ⟨v, hget, hsize⟩
        · exact Or.inl ⟨some g, by rw [hg]; rfl⟩
        · exact Or.inr ⟨f, by rw [hf]; rfl⟩
      · rintro ⟨w, hw, hsize⟩
        obtain rfl := Option.some.inj (hget.symm.trans hw)
        rw [hlarge hsize]
        rfl

/-- Loading from a file that is there, whatever its bytes are, gives nothing or a graph or is a fault of the store,
exactly if the entry has no node with too large a coordinate behind nodes that can be read. Otherwise the size of the
coordinate is the fault. No bound is set to the depth of a document: a stack that is full is no fault here. -/
theorem load_iff (h : d.read s.place = .ok content) :
    (((∃ g, (s.load.run d).1 = .ok g) ∨ ∃ f, (s.load.run d).1 = .error (.store f)) ↔ ¬ s.EntryOversized d) ∧
      (s.EntryOversized d → (s.load.run d).1 = .error (.value .tooLarge)) := by
  obtain ⟨hfits, hlarge⟩ := load_cases h
  refine ⟨⟨fun hanswer hsize => ?_, hfits⟩, hlarge⟩
  rw [hlarge hsize] at hanswer
  obtain ⟨g, hg⟩ | ⟨f, hf⟩ := hanswer
  · cases hg
  · cases hf

/-- An entry whose nodes are no list. -/
theorem load_iff_corrupt :
    let s : File := ⟨"g.json", defaultKey⟩
    let content := Text.Utf8.encode "\x7b\"flowchart-state\": \x7b\"nodes\": 5\x7d\x7d".toList
    let d : Disk := ⟨[(["g.json"], .file content)]⟩
    d.read s.place = .ok content ∧ ¬ s.EntryOversized d ∧
      (s.load.run d).1 = .error (.store (.corrupt defaultKey (.notIterable .int))) := by
  intro s content d
  have hread : d.read s.place = .ok content := by decide +kernel
  have hload : (s.load.run d).1 = .error (.store (.corrupt defaultKey (.notIterable .int))) := by decide +kernel
  exact ⟨hread, (load_iff hread).1.1 (Or.inr ⟨_, hload⟩), hload⟩

/-- A coordinate of four hundred digits. -/
theorem not_store_of_load_tooLarge :
    let s : File := ⟨"g.json", defaultKey⟩
    let text := "\x7b\"flowchart-state\": \x7b\"nodes\": [\x7b\"id\": \"A\", \"position\": \x7b\"x\": ".toList ++
      ('1' :: List.replicate 399 '0' ++ "\x7d\x7d]\x7d\x7d".toList)
    let d : Disk := ⟨[(["g.json"], .file (Text.Utf8.encode text))]⟩
    d.read s.place = .ok (Text.Utf8.encode text) ∧
      ¬ ((∃ g, (s.load.run d).1 = .ok g) ∨ ∃ f, (s.load.run d).1 = .error (.store f)) := by
  intro s text d
  have hread : d.read s.place = .ok (Text.Utf8.encode text) := by decide +kernel
  have hload : (s.load.run d).1 = .error (.value .tooLarge) := by decide +kernel
  refine ⟨hread, ?_⟩
  rw [hload]
  rintro (⟨g, hg⟩ | ⟨f, hf⟩)
  · cases hg
  · cases hf

end File

end Store

end Flowchart
