import Flowchart.Proofs.NormalForm
import Flowchart.Proofs.Stores

/-!
# Saved graphs are loaded again

A graph whose edges have ids comes back from a memory with its nodes made anew, and without its viewport if that is
empty. So it comes back as it was exactly if each of its nodes can be made of a mention and a position, and its
viewport is not empty (`Memory.load_save_eq_iff`). A store in a file gives such a graph back as it was, to every
store with the same path and key, and all other entries of the document stay as they are (`File.load_save`).
-/

namespace Flowchart

/-! ## What comes back -/

namespace Graph

variable {g : Graph}

theorem restored_of_ids (h : ∀ e ∈ g.edges, e.id ≠ "") :
    g.restored = ⟨g.nodes.map Node.restored, g.edges, g.viewport.filter (! ·.isEmpty)⟩ := by
  unfold restored
  rw [restoredEdges_eq h]

theorem restored_eq_iff (h : ∀ e ∈ g.edges, e.id ≠ "") :
    g.restored = g ↔ (∀ n ∈ g.nodes, ∃ m x y, n = Node.ofMention m x y) ∧ g.viewport ≠ some [] := by
  constructor
  · intro hsame
    refine ⟨fun n hn => ?_, fun hview => ?_⟩
    · rw [← hsame] at hn
      obtain ⟨n', -, rfl⟩ := List.mem_map.1 hn
      exact ⟨_, _, _, rfl⟩
    · have hlost : g.restored.viewport = none := by
        unfold restored
        rw [hview]
        rfl
      rw [hsame, hview] at hlost
      cases hlost
  · rintro ⟨hnodes, hview⟩
    exact restored_eq ⟨fun n hn => Node.isNormal_iff.2 (hnodes n hn), h, hview⟩

end Graph

namespace Store

/-! ## Memories -/

/-- What a memory gives back of a saved graph whose edges have ids: its nodes made anew, its edges, and its viewport
unless that is empty. This is the graph as it was exactly if each of its nodes can be made of a mention and a position,
and its viewport is not empty. -/
theorem Memory.load_save_eq_iff (m : Memory) {g : Graph} (h : ∀ e ∈ g.edges, e.id ≠ "") :
    (m.save g).load =
        .ok (some ⟨g.nodes.map Node.restored, g.edges, g.viewport.filter (! ·.isEmpty)⟩) ∧
      ((m.save g).load = .ok (some g) ↔
        (∀ n ∈ g.nodes, ∃ mention x y, n = Node.ofMention mention x y) ∧ g.viewport ≠ some []) := by
  have hload : (m.save g).load = .ok (some g.restored) := by
    show some <$> Graph.ofValue g.toValue = _
    unfold Graph.ofValue
    rw [Graph.read_toValue]
    rfl
  rw [hload]
  refine ⟨by rw [Graph.restored_of_ids h], ?_⟩
  rw [← Graph.restored_eq_iff h]
  exact ⟨fun hsome => Option.some.inj (Except.ok.inj hsome), fun hsame => by rw [hsame]⟩

/-- Empty labels of an edge and of a node without an id, and a viewport with keys and values of any form. -/
theorem Memory.load_save_eq_iff_edited :
    let viewport : Value.Table := [(.text "", .null), (.int 2, .tuple [.table []]), (.float 0.5, .float (0.0 / 0.0))]
    let g : Graph :=
      { nodes := [⟨"a", .action, "b", 1.5, -0.0⟩, ⟨"", .choice, "", 0.0, 0.0⟩]
        edges := [⟨"e", "a", "", ""⟩, ⟨"e", "", "a", "x"⟩]
        viewport := some viewport }
    (∀ e ∈ g.edges, e.id ≠ "") ∧ (Memory.save {} g).load = .ok (some g) := by
  intro viewport g
  have hids : ∀ e ∈ g.edges, e.id ≠ "" := by decide +kernel
  have hnodes : ∀ n ∈ g.nodes, ∃ mention x y, n = Node.ofMention mention x y := by
    simp only [g, List.forall_mem_cons]
    exact ⟨⟨⟨"a", .action, "b"⟩, _, _, rfl⟩, ⟨⟨"", .choice, ""⟩, _, _, rfl⟩, List.forall_mem_nil _⟩
  have hviewport : g.viewport ≠ some [] := by decide +kernel
  exact ⟨hids, (Memory.load_save_eq_iff {} hids).2.2 ⟨hnodes, hviewport⟩⟩

/-- A viewport without entries is lost. -/
theorem Memory.not_load_save_eq_viewport :
    let g : Graph := { viewport := some [] }
    (∀ e ∈ g.edges, e.id ≠ "") ∧ (Memory.save {} g).load = .ok (some {}) ∧
      (Memory.save {} g).load ≠ .ok (some g) := by
  decide +kernel

/-! ## Files -/

/-- Saving a graph in a file does not fail, and the graph comes back as it was, to every store with the same path and
key. In the document, the graph takes the place of what stood under the key, or else comes last, and all other entries
stay as they are. At first the document can be read as a table; its numbers and those of the graph are taken to be
read back, and writing to be possible. The key and the texts in the graph must be joined, and each node must be as it
is made of a mention and a position. -/
theorem File.load_save {s : File} {d : Disk} {t : Value.Table} {g : Graph}
    (hread : readTable d s.place = .ok t) (hwrite : ∃ d', d.write s.place [] = .ok d')
    (hnumbers : ∀ n ∈ (Value.table t).numbers, Json.ReadsBack n) (hkey : Text.isJoined s.key.toList = true)
    (hg : g.Storable)
    (hnodes : ∀ n ∈ g.nodes, ∃ mention x y, n = Node.ofMention mention x y)
    (hedges : ∀ e ∈ g.edges, e.id ≠ "") (hviewport : g.viewport ≠ some []) :
    ∃ d' t', (s.save g).run d = (.ok (), d') ∧
      (∀ s' : File, s'.place = s.place → s'.key = s.key → s'.load.run d' = (.ok (some g), d')) ∧
      readTable d' s.place = .ok t' ∧
      ((∃ before old after, t = before ++ (.text s.key, old) :: after ∧
          t' = before ++ (.text s.key, g.toValue) :: after) ∨
        t.get? s.key = none ∧ t' = t ++ [(.text s.key, g.toValue)]) := by
  obtain ⟨d₀, hd₀⟩ := hwrite
  obtain ⟨place, hplace⟩ := Disk.exists_leadsToFile hd₀
  have hstorable : Storable (t.insert (.text s.key) g.toValue) :=
    Storable.insert ⟨isPlain_of_readTable hread, hnumbers⟩ hkey (Graph.isPlain_toValue hg.texts hg.viewport)
      hg.numbers
  have hsaved := readTable_put hplace hstorable
  refine ⟨_, _, save_run hread hplace hstorable.printable, fun s' hpath hsame => ?_, hsaved, ?_⟩
  · have hentry : (t.insert (.text s.key) g.toValue).get? s'.key = some g.toValue := by
      rw [hsame, Value.Table.get?_insert_self]
    rw [load_run_of_entry (hpath ▸ hsaved) hentry nofun, graphOfEntry_toValue,
      (Graph.restored_eq_iff hedges).2 ⟨hnodes, hviewport⟩]
    rfl
  · cases hold : t.get? s.key with
    | none => exact Or.inr ⟨rfl, Value.Table.insert_of_get?_eq_none hold⟩
    | some old =>
      obtain ⟨before, after, ht, hinsert⟩ := Value.Table.insert_of_get?_eq_some hold
      exact Or.inl ⟨before, old, after, ht, hinsert⟩

/-- A graph takes the place of a number between two other entries, and is loaded under another spelling of the path. -/
theorem File.load_save_between :
    let s : File := ⟨"d//g", "k"⟩
    let d : Disk := ⟨[(["d"], .directory), (["d", "g"], .file (Text.Utf8.encode
      "\x7b\"a\": [1, \x7b\"\\ud83d\\ude00\": null\x7d], \"k\": 5, \"f\": -2.5e3\x7d".toList))]⟩
    let t : Value.Table :=
      [(.text "a", .list [.int 1, .table [(.text "😀", .null)]]), (.text "k", .int 5), (.text "f", .float (-2500.0))]
    let viewport : Value.Table :=
      [(.text "zoom", .float 0.1), (.text "of", .list [.null, .bool true, .int (-7), .table []])]
    let g : Graph :=
      { nodes := [⟨"a", .action, "x\ny", 0.0 / 0.0, -0.1⟩, ⟨"é", .state, "é", 0.0, 1e23⟩]
        edges := [⟨"e", "a", "é", "\"\\"⟩]
        viewport := some viewport }
    readTable d s.place = .ok t ∧ (∃ d', d.write s.place [] = .ok d') ∧
      (∀ n ∈ (Value.table t).numbers, Json.ReadsBack n) ∧ Text.isJoined s.key.toList = true ∧ g.Storable ∧
      (∀ n ∈ g.nodes, ∃ mention x y, n = Node.ofMention mention x y) ∧
      (∀ e ∈ g.edges, e.id ≠ "") ∧ g.viewport ≠ some [] ∧
      ∃ d', (s.save g).run d = (.ok (), d') ∧ (File.load ⟨"./d/g", "k"⟩).run d' = (.ok (some g), d') := by
  intro s d t viewport g
  have hread : readTable d s.place = .ok t := by decide +kernel
  have hwrite : ∃ d', d.write s.place [] = .ok d' := exists_ok_of_isSome (by decide +kernel)
  have hnumbers : ∀ n ∈ (Value.table t).numbers, Json.ReadsBack n := by decide +kernel
  have hkey : Text.isJoined s.key.toList = true := rfl
  have hg : g.Storable := ⟨by decide +kernel, by decide +kernel, by decide +kernel⟩
  have hnodes : ∀ n ∈ g.nodes, ∃ mention x y, n = Node.ofMention mention x y := by
    simp only [g, List.forall_mem_cons]
    exact ⟨⟨⟨"a", .action, "x\ny"⟩, _, _, rfl⟩, ⟨⟨"é", .state, "é"⟩, _, _, rfl⟩, List.forall_mem_nil _⟩
  have hedges : ∀ e ∈ g.edges, e.id ≠ "" := by decide +kernel
  have hviewport : g.viewport ≠ some [] := by decide +kernel
  have hpath : File.place ⟨"./d/g", "k"⟩ = s.place := by decide +kernel
  obtain ⟨d', -, hsave, hload, -⟩ := File.load_save hread hwrite hnumbers hkey hg hnodes hedges hviewport
  exact ⟨hread, hwrite, hnumbers, hkey, hg, hnodes, hedges, hviewport, d', hsave, hload _ hpath rfl⟩

/-- A node that is labelled anew with the empty text comes back labelled with its id. The two halves of a character that
stand next to each other in a label come back joined, and under a key with such halves nothing is found again. -/
theorem File.not_load_save_relabelled :
    let halves : Text := .ofList [.ofNat 0xD83D, .ofNat 0xDE00]
    let s : File := ⟨"g", "k"⟩
    let g (label : Text) : Graph := { nodes := [⟨"A", .state, label, 0.0, 0.0⟩] }
    (g "A").relabel 0 "" = .ok (g "") ∧ (g "").Storable ∧ ((s.save (g "")).run {}).1 = .ok () ∧
      (s.load.run ((s.save (g "")).run {}).2).1 = .ok (some (g "A")) ∧ g "A" ≠ g "" ∧
      (s.load.run ((s.save (g halves)).run {}).2).1 = .ok (some (g "😀")) ∧ g "😀" ≠ g halves ∧
      ((File.load ⟨"g", halves⟩).run ((File.save ⟨"g", halves⟩ (g "A")).run {}).2).1 = .ok none := by
  intro halves s g
  exact ⟨by decide +kernel, ⟨by decide +kernel, by decide +kernel, by decide +kernel⟩, by decide +kernel⟩

end Store

end Flowchart
