import Flowchart.Proofs.Documents
import Flowchart.Store.Memory
import Mathlib.Logic.Function.Basic

/-!
# Stores in one document

Stores under different keys of one document answer all calls as if each had a memory of its own, and leave the
other entries of the document alone (`File.callAll_eq_memories`). A call on one of them keeps a document and some
memories in step (`InStep`): the entry under each key is what the memory of that key holds.
-/

namespace Flowchart

/-- A graph that a document holds as it is: the texts in its nodes and edges are joined, its viewport is plain, and all
its numbers are read back. -/
structure Graph.Storable (g : Graph) : Prop where
  texts : ∀ s ∈ g.texts, Text.isJoined s.toList = true
  viewport : ∀ t ∈ g.viewport, Value.Table.isPlain t = true
  numbers : ∀ n ∈ g.toValue.numbers, Json.ReadsBack n

namespace Store

/-- A call on a store. -/
inductive Call where
  | save (g : Graph)
  | load
  | clear

/-- Whether a document can hold what a call saves. -/
def Call.Storable : Call → Prop
  | .save g => g.Storable
  | .load | .clear => True

/-- What a call answers. -/
inductive Reply where
  | done
  | loaded (g : Option Graph)
  deriving DecidableEq

/-! ## Calls on files -/

namespace File

/-- The table of a graph holds the graph in its normal form. -/
theorem graphOfEntry_toValue (s : File) (g : Graph) : s.graphOfEntry g.toValue = .ok g.restored := by
  unfold graphOfEntry Graph.ofDocument
  rw [Graph.read_toValue]

/-- Makes a call. -/
def call (s : File) : Call → OnDisk Reply
  | .save g => do
    s.save g
    return .done
  | .load => return .loaded (← s.load)
  | .clear => do
    s.clear
    return .done

/-- Makes calls on the stores in one document, each given with the key of its store. -/
def callAll (path : String) : List (Text × Call) → OnDisk (List Reply)
  | [] => return []
  | (key, c) :: calls => do
    let r ← call ⟨path, key⟩ c
    return r :: (← callAll path calls)

end File

/-! ## Calls on memories -/

namespace Memory

/-- Makes a call; the result is the reply and the memory behind it. -/
def call (m : Memory) : Call → Except Value.Fault (Reply × Memory)
  | .save g => .ok (.done, m.save g)
  | .load => do return (.loaded (← m.load), m)
  | .clear => .ok (.done, m.clear)

/-- Makes calls on a memory for each key. -/
def callAll (ms : Text → Memory) : List (Text × Call) → Except Value.Fault (List Reply)
  | [] => .ok []
  | (key, c) :: calls => do
    let (r, m) ← (ms key).call c
    return r :: (← callAll (Function.update ms key m) calls)

end Memory

/-! ## Steps -/

variable {d : Disk} {path : String} {key : Text} {keys : List Text} {t : Value.Table} {ms : Text → Memory}

/-- A document and some memories in step: the document can be read and written, it holds its table and the keys as they
are, and the entry under each key is the graph in the memory of that key. -/
structure InStep (path : String) (keys : List Text) (d : Disk) (t : Value.Table) (ms : Text → Memory) :
    Prop where
  read : readTable d (Path.plain path) = .ok t
  writable : ∃ place, d.LeadsToFile (Path.plain path) place
  storable : Storable t
  joined : ∀ key ∈ keys, Text.isJoined key.toList = true
  entry : ∀ key ∈ keys, t.get? key = (ms key).saved
  graph : ∀ key ∈ keys, ∀ v, (ms key).saved = some v → ∃ g : Graph, v = g.toValue

theorem InStep.read_at (h : InStep path keys d t ms) (key : Text) :
    readTable d (File.place ⟨path, key⟩) = .ok t :=
  h.read

/-- A table that differs under one key only is written in step with the memory of that key. -/
theorem InStep.write (h : InStep path keys d t ms) {t' : Value.Table} {m : Memory} (ht' : Storable t')
    (hother : ∀ other, other ≠ key → t'.get? other = t.get? other) (hkey : t'.get? key = m.saved)
    (hgraph : ∀ v, m.saved = some v → ∃ g : Graph, v = g.toValue) :
    ∃ d', (File.writeTable ⟨path, key⟩ t').run d = (.ok (), d') ∧
      InStep path keys d' t' (Function.update ms key m) := by
  obtain ⟨place, hplace⟩ := h.writable
  have hfile : d.LeadsToFile (File.place ⟨path, key⟩) place := hplace
  refine ⟨_, File.writeTable_run hfile ht'.printable, readTable_put hplace ht', ⟨place, hplace.put _⟩, ht',
    h.joined, fun other hmem => ?_, fun other hmem => ?_⟩
  · by_cases hne : other = key
    · subst hne
      rw [Function.update_self, hkey]
    · rw [Function.update_of_ne hne, hother other hne, h.entry other hmem]
  · by_cases hne : other = key
    · subst hne
      rw [Function.update_self]
      exact hgraph
    · rw [Function.update_of_ne hne]
      exact h.graph other hmem

theorem InStep.save (h : InStep path keys d t ms) (hkey : key ∈ keys) {g : Graph} (hg : g.Storable) :
    ∃ d' t', (File.save ⟨path, key⟩ g).run d = (.ok (), d') ∧
      InStep path keys d' t' (Function.update ms key ((ms key).save g)) ∧ t'.without keys = t.without keys := by
  have hgraph : ∀ v, ((ms key).save g).saved = some v → ∃ g : Graph, v = g.toValue := by
    rintro v ⟨⟩
    exact ⟨g, rfl⟩
  obtain ⟨d', hwrite, hstep⟩ := h.write
    (h.storable.insert (h.joined key hkey) (Graph.isPlain_toValue hg.texts hg.viewport) hg.numbers)
    (fun other hne => Value.Table.get?_insert_of_ne t hne g.toValue)
    (Value.Table.get?_insert_self t key g.toValue) hgraph
  refine ⟨d', _, ?_, hstep, Value.Table.without_insert hkey⟩
  rw [File.save_run_eq (h.read_at key)]
  exact hwrite

theorem InStep.load (h : InStep path keys d t ms) (hkey : key ∈ keys) :
    ∃ g, (File.load ⟨path, key⟩).run d = (.ok g, d) ∧ (ms key).load = .ok g := by
  have hentry := h.entry key hkey
  unfold Memory.load
  cases hsaved : (ms key).saved with
  | none =>
    have habsent : ∀ v, t.get? key = some v → v = .null := by
      rw [hentry, hsaved]
      nofun
    exact ⟨none, File.load_run_of_absent (h.read_at key) habsent, rfl⟩
  | some v =>
    obtain ⟨g, rfl⟩ := h.graph key hkey v hsaved
    have hmemory : Graph.ofValue g.toValue = .ok g.restored := Graph.read_toValue _ g
    refine ⟨some g.restored, ?_, ?_⟩
    · rw [File.load_run_of_entry (h.read_at key) (hentry.trans hsaved) nofun, File.graphOfEntry_toValue]
      rfl
    · dsimp only
      rw [hmemory]
      rfl

theorem InStep.clear (h : InStep path keys d t ms) (hkey : key ∈ keys) :
    ∃ d' t', (File.clear ⟨path, key⟩).run d = (.ok (), d') ∧
      InStep path keys d' t' (Function.update ms key (ms key).clear) ∧ t'.without keys = t.without keys := by
  have hentry := h.entry key hkey
  unfold File.clear
  rw [run_bind_ok (File.table_run_of_ok (h.read_at key)), hentry]
  cases hsaved : (ms key).saved with
  | none =>
    -- nothing is written, and the memory was clear already
    have hclear : (ms key).clear = ms key := congrArg Memory.mk hsaved.symm
    refine ⟨d, t, rfl, ?_, rfl⟩
    rw [hclear, Function.update_eq_self]
    exact h
  | some v =>
    obtain ⟨g, rfl⟩ := h.graph key hkey v hsaved
    obtain ⟨d', hwrite, hstep⟩ := h.write h.storable.erase
      (fun other hne => Value.Table.get?_erase_of_ne hne)
      (Value.Table.get?_erase_self h.storable.plain : _ = (ms key).clear.saved) nofun
    exact ⟨d', _, hwrite, hstep, Value.Table.without_erase hkey⟩

/-- A call on a store in a document is answered as by the memory of its key, and keeps them in step. -/
theorem InStep.call (h : InStep path keys d t ms) (hkey : key ∈ keys) {c : Call} (hc : c.Storable) :
    ∃ r m d' t', (File.call ⟨path, key⟩ c).run d = (.ok r, d') ∧ (ms key).call c = .ok (r, m) ∧
      InStep path keys d' t' (Function.update ms key m) ∧ t'.without keys = t.without keys := by
  cases c with
  | save g =>
    obtain ⟨d', t', hrun, hstep, hother⟩ := h.save hkey hc
    refine ⟨.done, (ms key).save g, d', t', ?_, rfl, hstep, hother⟩
    unfold File.call
    rw [run_bind_ok hrun]
    rfl
  | load =>
    obtain ⟨g, hrun, hmemory⟩ := h.load hkey
    refine ⟨.loaded g, ms key, d, t, ?_, ?_, ?_, rfl⟩
    · unfold File.call
      rw [run_bind_ok hrun]
      rfl
    · unfold Memory.call
      rw [hmemory]
      rfl
    · rwa [Function.update_eq_self]
  | clear =>
    obtain ⟨d', t', hrun, hstep, hother⟩ := h.clear hkey
    refine ⟨.done, (ms key).clear, d', t', ?_, rfl, hstep, hother⟩
    unfold File.call
    rw [run_bind_ok hrun]
    rfl

/-! ## Runs -/

/-- Calls on the stores in a document are answered as by memories in step with it, and keep them in step. -/
theorem InStep.callAll {calls : List (Text × Call)} (h : InStep path keys d t ms)
    (hkeys : ∀ e ∈ calls, e.1 ∈ keys) (hcalls : ∀ e ∈ calls, e.2.Storable) :
    ∃ replies d' t' ms', (File.callAll path calls).run d = (.ok replies, d') ∧
      Memory.callAll ms calls = .ok replies ∧ InStep path keys d' t' ms' ∧ t'.without keys = t.without keys := by
  induction calls generalizing d t ms with
  | nil => exact ⟨[], d, t, ms, rfl, rfl, h, rfl⟩
  | cons e calls ih =>
    obtain ⟨key, c⟩ := e
    rw [List.forall_mem_cons] at hkeys hcalls
    obtain ⟨r, m, d₁, t₁, hrun, hmemory, hstep, hother⟩ := h.call hkeys.1 hcalls.1
    obtain ⟨replies, d', t', ms', hruns, hmemories, hsteps, hothers⟩ := ih hstep hkeys.2 hcalls.2
    refine ⟨r :: replies, d', t', ms', ?_, ?_, hsteps, hothers.trans hother⟩
    · rw [File.callAll, run_bind_ok hrun, run_bind_ok hruns]
      rfl
    · rw [Memory.callAll, hmemory, ok_bind]
      dsimp only
      rw [hmemories]
      rfl

/-- Stores under different keys of one document answer every row of calls as memories of their own, one for each
key, that are empty at first. No call fails, and all entries under other keys keep their values and their order.
At first the document can be read as a table that has no entry under the keys; its numbers and those of the saved
graphs are taken to be read back, and writing to be possible. The keys and the texts in the graphs must be joined. -/
theorem File.callAll_eq_memories {calls : List (Text × Call)}
    (hread : readTable d (Path.plain path) = .ok t) (habsent : ∀ e ∈ calls, t.get? e.1 = none)
    (hwrite : ∃ d', d.write (Path.plain path) [] = .ok d')
    (hnumbers : ∀ n ∈ (Value.table t).numbers, Json.ReadsBack n)
    (hkeys : ∀ e ∈ calls, Text.isJoined e.1.toList = true) (hcalls : ∀ e ∈ calls, e.2.Storable) :
    ∃ replies d' t', (File.callAll path calls).run d = (.ok replies, d') ∧
      Memory.callAll (fun _ => {}) calls = .ok replies ∧
      readTable d' (Path.plain path) = .ok t' ∧ t'.without (calls.map Prod.fst) = t := by
  obtain ⟨d₀, hd₀⟩ := hwrite
  have hnone : ∀ key ∈ calls.map Prod.fst, t.get? key = none := List.forall_mem_map.2 habsent
  have hstart : InStep path (calls.map Prod.fst) d t fun _ => {} :=
    ⟨hread, Disk.exists_leadsToFile hd₀, ⟨isPlain_of_readTable hread, hnumbers⟩,
      List.forall_mem_map.2 hkeys, hnone, fun _ _ _ => nofun⟩
  obtain ⟨replies, d', t', ms', hrun, hmemories, hstep, hother⟩ :=
    hstart.callAll (fun e he => List.mem_map_of_mem he) hcalls
  exact ⟨replies, d', t', hrun, hmemories, hstep.read, hother.trans (Value.Table.without_of_absent hnone)⟩

/-- Two stores take turns in a document that holds nested entries, an escaped character and numbers of its own. -/
theorem File.callAll_eq_memories_turns :
    let d : Disk := ⟨[(["d"], .directory), (["d", "g"], .file (Text.Utf8.encode
      "\x7b\"k\": [1, \x7b\"\\ud83d\\ude00\": null\x7d], \"f\": -2.5e3, \"f\": NaN\x7d".toList))]⟩
    let t : Value.Table :=
      [(.text "k", .list [.int 1, .table [(.text "😀", .null)]]), (.text "f", .float (0.0 / 0.0))]
    let viewport : Value.Table :=
      [(.text "zoom", .float 0.1), (.text "of", .list [.null, .bool true, .int (-7), .table []])]
    let g : Graph :=
      { nodes := [⟨"a", .action, "x\ny", 1.5, -0.1⟩, ⟨"é", .state, "", 0.0, 1e23⟩]
        edges := [⟨"", "a", "é", "\"\\"⟩]
        viewport := some viewport }
    let calls : List (Text × Call) := [("a", .save g), ("b", .load), ("b", .save {}), ("a", .load), ("a", .clear),
      ("a", .load), ("b", .load), ("b", .clear)]
    readTable d (Path.plain "d//g") = .ok t ∧ (∀ e ∈ calls, t.get? e.1 = none) ∧
      (∃ d', d.write (Path.plain "d//g") [] = .ok d') ∧ (∀ n ∈ (Value.table t).numbers, Json.ReadsBack n) ∧
      (∀ e ∈ calls, Text.isJoined e.1.toList = true) ∧ (∀ e ∈ calls, e.2.Storable) ∧
      ∃ replies d' t', (File.callAll "d//g" calls).run d = (.ok replies, d') ∧
        Memory.callAll (fun _ => {}) calls = .ok replies ∧
        readTable d' (Path.plain "d//g") = .ok t' ∧ t'.without (calls.map Prod.fst) = t := by
  intro d t viewport g calls
  have hread : readTable d (Path.plain "d//g") = .ok t := by decide +kernel
  have habsent : ∀ e ∈ calls, t.get? e.1 = none := by decide +kernel
  have hwrite : ∃ d', d.write (Path.plain "d//g") [] = .ok d' := exists_ok_of_isSome (by decide +kernel)
  have hnumbers : ∀ n ∈ (Value.table t).numbers, Json.ReadsBack n := by decide +kernel
  have hkeys : ∀ e ∈ calls, Text.isJoined e.1.toList = true := by decide +kernel
  have hg : g.Storable := ⟨by decide +kernel, by decide +kernel, by decide +kernel⟩
  have hempty : Graph.Storable {} := ⟨nofun, nofun, nofun⟩
  have hcalls : ∀ e ∈ calls, e.2.Storable := by
    simp only [calls, List.forall_mem_cons]
    exact ⟨hg, trivial, hempty, trivial, trivial, trivial, trivial, trivial, List.forall_mem_nil _⟩
  exact ⟨hread, habsent, hwrite, hnumbers, hkeys, hcalls,
    File.callAll_eq_memories hread habsent hwrite hnumbers hkeys hcalls⟩

/-- The two halves of a character that stand next to each other in a label come back joined from a document, though
not from a memory, and a key of two halves is the key of the character there. Another entry, a number beyond the range
of floats, is read as infinity, and written so. -/
theorem File.not_callAll_eq_memories :
    let halves : Text := .ofList [.ofNat 0xD83D, .ofNat 0xDE00]
    let g (label : Text) : Graph := { nodes := [⟨"A", .state, label, 0.0, 0.0⟩] }
    let label : List (Text × Call) := [("k", .save (g halves)), ("k", .load)]
    let keys : List (Text × Call) := [(halves, .save (g "")), ("😀", .load)]
    let d : Disk := ⟨[(["g"], .file (Text.Utf8.encode "\x7b\"other\": 1E400\x7d".toList))]⟩
    ((File.callAll "g" label).run {}).1 = .ok [.done, .loaded (some (g "😀"))] ∧
      Memory.callAll (fun _ => {}) label = .ok [.done, .loaded (some (g halves))] ∧ g "😀" ≠ g halves ∧
      ((File.callAll "g" keys).run {}).1 = .ok [.done, .loaded (some (g "A"))] ∧
      Memory.callAll (fun _ => {}) keys = .ok [.done, .loaded none] ∧
      ((File.callAll "g" [("k", .save {}), ("k", .clear)]).run d).2.read "g" =
        .ok (Text.Utf8.encode "\x7b\n  \"other\": Infinity\n\x7d".toList) := by
  decide +kernel

end Store

end Flowchart
