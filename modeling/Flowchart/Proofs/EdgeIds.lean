import Flowchart.Proofs.Building
import Flowchart.Proofs.GraphValue

/-!
# The ids of edges that are read

An edge that is given an id has it as a text. Any other edge has an id that is derived from its place and its ends.
Derived ids differ from one another, since the place can be read off (`derivedId_inj`), but nothing keeps a given id
from being the derived id of another edge. So if the given ids are pairwise different, all ids are exactly if no edge
without a given id derives one that is given to another (`Graph.nodup_edgeIds_iff`).
-/

namespace Flowchart

/-! ## Edges -/

namespace Edge

/-- The id that an edge is given, as a text, if there is one that counts as present. -/
def givenId? (v : Value) : Option Text :=
  match v.lookup "id" .null with
  | .ok id => if id.isPresent then some id.toText else none
  | .error _ => none

/-- Both ends of an edge are given. -/
def HasEnds (v : Value) : Prop := ∃ source target, v.entry "source" = .ok source ∧ v.entry "target" = .ok target

variable {v : Value} {place : Text} {e : Edge}

theorem id_of_ofValue (h : ofValue place v = .ok e) : e.id = (givenId? v).getD (derivedId place e.source e.target) := by
  unfold ofValue at h
  obtain ⟨source, -, h⟩ := of_bind_eq_ok h
  obtain ⟨target, -, h⟩ := of_bind_eq_ok h
  obtain ⟨id, hid, h⟩ := of_bind_eq_ok h
  obtain ⟨label, -, h⟩ := of_bind_eq_ok h
  obtain rfl := Except.ok.inj h
  unfold givenId?
  rw [hid]
  dsimp only
  split_ifs <;> rfl

/-- An edge is read if its two ends are given, and only then. -/
theorem exists_ofValue_iff (place : Text) : (∃ e, ofValue place v = .ok e) ↔ HasEnds v := by
  constructor
  · rintro ⟨e, h⟩
    obtain ⟨source, hsource, h⟩ := of_bind_eq_ok h
    obtain ⟨target, htarget, -⟩ := of_bind_eq_ok h
    exact ⟨source, target, hsource, htarget⟩
  · rintro ⟨source, target, hsource, htarget⟩
    unfold ofValue
    rw [hsource, ok_bind, htarget, ok_bind]
    -- only a table has a named entry, and in a table any name can be looked up
    cases v with
    | table entries => exact ⟨_, rfl⟩
    | _ => cases hsource

end Edge

/-! ## Graphs -/

namespace Graph

variable {v : Value} {items : List Value} {es : List Edge} {place : ℕ}

theorem exists_edgesOf_iff (place : ℕ) :
    (∃ es, edgesOf place items = .ok es) ↔ ∀ item ∈ items, Edge.HasEnds item := by
  induction items generalizing place with
  | nil => exact iff_of_true ⟨[], rfl⟩ (List.forall_mem_nil _)
  | cons item items ih =>
    rw [List.forall_mem_cons, ← Edge.exists_ofValue_iff (toString place), ← ih (place + 1)]
    constructor
    · rintro ⟨es, h⟩
      obtain ⟨e, he, h⟩ := of_bind_eq_ok h
      obtain ⟨es, hes, -⟩ := of_bind_eq_ok h
      exact ⟨⟨e, he⟩, es, hes⟩
    · rintro ⟨⟨e, he⟩, es, hes⟩
      refine ⟨e :: es, ?_⟩
      unfold edgesOf
      rw [he, ok_bind, hes]
      rfl

/-- The edges are read one by one, each at its place. -/
theorem getElem_edgesOf (h : edgesOf place items = .ok es) :
    items.length = es.length ∧ ∀ (i : ℕ) (hi : i < items.length) (he : i < es.length),
      Edge.ofValue (toString (place + i)) items[i] = .ok es[i] := by
  induction items generalizing place es with
  | nil =>
    obtain rfl := Except.ok.inj h
    exact ⟨rfl, fun i hi => absurd hi (Nat.not_lt_zero i)⟩
  | cons item items ih =>
    obtain ⟨e, he, h⟩ := of_bind_eq_ok h
    obtain ⟨rest, hrest, h⟩ := of_bind_eq_ok h
    obtain rfl := Except.ok.inj h
    obtain ⟨hlength, hget⟩ := ih hrest
    refine ⟨congrArg Nat.succ hlength, fun i hi hi' => ?_⟩
    cases i with
    | zero => exact he
    | succ i =>
      have hplace : place + (i + 1) = place + 1 + i := by omega
      rw [hplace]
      exact hget i (Nat.lt_of_succ_lt_succ hi) (Nat.lt_of_succ_lt_succ hi')

/-- A value in the form of a graph with the edges `items`: the nodes and the viewport can be read, and the ends of all
edges are given. -/
structure IsForm (v : Value) (items : List Value) : Prop where
  nodes : ∃ nodes, itemsUnder "nodes" v = .ok nodes ∧ ∀ n ∈ nodes, ∃ node, Node.ofValue n = .ok node
  edges : itemsUnder "edges" v = .ok items
  ends : ∀ item ∈ items, Edge.HasEnds item
  viewport : ∃ viewport, viewportOf Value.sameKey v = .ok viewport

/-- A graph is read from every value in the form of one, and from no other. -/
theorem exists_ofValue_iff : (∃ g, ofValue v = .ok g) ↔ ∃ items, IsForm v items := by
  constructor
  · rintro ⟨g, h⟩
    obtain ⟨nodes, hnodes, h⟩ := of_bind_eq_ok h
    obtain ⟨read, hread, h⟩ := of_bind_eq_ok h
    obtain ⟨items, hitems, h⟩ := of_bind_eq_ok h
    obtain ⟨es, hes, h⟩ := of_bind_eq_ok h
    obtain ⟨viewport, hviewport, -⟩ := of_bind_eq_ok h
    exact ⟨items, ⟨nodes, hnodes, exists_mapM_iff.1 ⟨read, hread⟩⟩, hitems,
      (exists_edgesOf_iff 0).1 ⟨es, hes⟩, viewport, hviewport⟩
  · rintro ⟨items, ⟨nodes, hnodes, hall⟩, hitems, hends, viewport, hviewport⟩
    obtain ⟨read, hread⟩ := exists_mapM_iff.2 hall
    obtain ⟨es, hes⟩ := (exists_edgesOf_iff 0).2 hends
    refine ⟨⟨read, es, viewport⟩, ?_⟩
    unfold ofValue Graph.read
    rw [hnodes, ok_bind, hread, ok_bind, hitems, ok_bind, hes, ok_bind, hviewport]
    rfl

/-! ## Given and derived ids -/

/-- Edges that are read from some items: each has the id it is given or else the one derived for it. -/
structure HasIds (items : List Value) (es : List Edge) : Prop where
  length : items.length = es.length
  id : ∀ (i : ℕ) (hi : i < items.length) (he : i < es.length),
    es[i].id = (Edge.givenId? items[i]).getD (Edge.derivedId (toString i) es[i].source es[i].target)

theorem hasIds_of_ofValue {g : Graph} (h : ofValue v = .ok g) (hitems : itemsUnder "edges" v = .ok items) :
    HasIds items g.edges := by
  obtain ⟨nodes, -, h⟩ := of_bind_eq_ok h
  obtain ⟨read, -, h⟩ := of_bind_eq_ok h
  obtain ⟨items', hitems', h⟩ := of_bind_eq_ok h
  obtain rfl := Except.ok.inj (hitems.symm.trans hitems')
  obtain ⟨es, hes, h⟩ := of_bind_eq_ok h
  obtain ⟨viewport, -, h⟩ := of_bind_eq_ok h
  obtain rfl := Except.ok.inj h
  obtain ⟨hlength, hget⟩ := getElem_edgesOf hes
  refine ⟨hlength, fun i hi he => ?_⟩
  have hread := hget i hi he
  rw [Nat.zero_add] at hread
  exact Edge.id_of_ofValue hread

/-- An edge without a given id derives one that is given to another edge. -/
def Clash (items : List Value) (es : List Edge) : Prop :=
  ∃ (i : ℕ) (hi : i < items.length) (he : i < es.length), Edge.givenId? items[i] = none ∧
    Edge.derivedId (toString i) es[i].source es[i].target ∈ items.filterMap Edge.givenId?

instance (items : List Value) (es : List Edge) : Decidable (Clash items es) :=
  decidable_of_iff (∃ (i : Fin items.length) (he : i < es.length), Edge.givenId? items[i] = none ∧
      Edge.derivedId (toString i.val) es[i].source es[i].target ∈ items.filterMap Edge.givenId?)
    ⟨fun ⟨i, he, h⟩ => ⟨i.val, i.isLt, he, h⟩, fun ⟨i, hi, he, h⟩ => ⟨⟨i, hi⟩, he, h⟩⟩

theorem HasIds.not_nodup_of_clash (h : HasIds items es) (hclash : Clash items es) : ¬ (es.map Edge.id).Nodup := by
  obtain ⟨i, hi, he, hnone, hmem⟩ := hclash
  obtain ⟨item, hitem, hsome⟩ := List.mem_filterMap.1 hmem
  obtain ⟨j, hj, rfl⟩ := List.getElem_of_mem hitem
  have hj' : j < es.length := h.length ▸ hj
  have hsame : es[i].id = es[j].id := by
    rw [h.id i hi he, h.id j hj hj', hnone, hsome]
    rfl
  intro hnodup
  have hplaces : (es.map Edge.id)[i]? = (es.map Edge.id)[j]? := by
    rw [List.getElem?_map, List.getElem?_map, List.getElem?_eq_getElem he, List.getElem?_eq_getElem hj']
    exact congrArg some hsame
  obtain rfl : i = j := (List.getElem?_inj (by rwa [List.length_map]) hnodup).1 hplaces
  rw [hnone] at hsome
  cases hsome

/-- Ids that are both given differ, as do ids that are both derived. -/
theorem HasIds.nodup (h : HasIds items es) (hgiven : (items.filterMap Edge.givenId?).Nodup)
    (hclash : ¬ Clash items es) : (es.map Edge.id).Nodup := by
  have hmixed : ∀ (i j : ℕ) (hi : i < items.length) (hj : j < items.length) (he : i < es.length) (b : Text),
      Edge.givenId? items[i] = none → Edge.givenId? items[j] = some b →
      Edge.derivedId (toString i) es[i].source es[i].target ≠ b := by
    rintro i j hi hj he b hnone hsome rfl
    exact hclash ⟨i, hi, he, hnone, List.mem_filterMap.2 ⟨items[j], List.getElem_mem hj, hsome⟩⟩
  rw [List.nodup_iff_pairwise_ne, List.pairwise_filterMap, List.pairwise_iff_getElem] at hgiven
  rw [List.nodup_iff_pairwise_ne, List.pairwise_map, List.pairwise_iff_getElem]
  intro i j hi hj hlt
  have hi' : i < items.length := h.length ▸ hi
  have hj' : j < items.length := h.length ▸ hj
  rw [h.id i hi' hi, h.id j hj' hj]
  cases hgi : Edge.givenId? items[i] with
  | none =>
    cases hgj : Edge.givenId? items[j] with
    | none => exact fun hsame => Nat.ne_of_lt hlt (derivedId_inj hsame)
    | some b => exact hmixed i j hi' hj' hi b hgi hgj
  | some a =>
    cases hgj : Edge.givenId? items[j] with
    | none => exact (hmixed j i hj' hi' hj a hgj hgi).symm
    | some b => exact hgiven i j hi' hj' hlt a hgi b hgj

/-- From a value in the form of a graph, one is read. If the ids that are given to its edges are pairwise different as
texts, the ids of all its edges are, unless an edge that is given none derives one that is given to another. -/
theorem nodup_edgeIds_iff (h : IsForm v items) (hgiven : (items.filterMap Edge.givenId?).Nodup) :
    ∃ g, ofValue v = .ok g ∧ HasIds items g.edges ∧ ((g.edges.map Edge.id).Nodup ↔ ¬ Clash items g.edges) := by
  obtain ⟨g, hg⟩ := exists_ofValue_iff.2 ⟨items, h⟩
  have hids := hasIds_of_ofValue hg h.edges
  exact ⟨g, hg, hids, fun hnodup hclash => hids.not_nodup_of_clash hclash hnodup, hids.nodup hgiven⟩

/-- A number for an id, an empty id, an absent one, and one that is derived for another place. -/
theorem nodup_edgeIds_iff_mixed :
    let items : List Value := [
      .table [(.text "id", .int 7), (.text "source", .text "A"), (.text "target", .text "B")],
      .table [(.text "id", .text ""), (.text "source", .text "A"), (.text "target", .text "B")],
      .table [(.text "source", .int 1), (.text "target", .text "B")],
      .table [(.text "id", .text "e1-1-B"), (.text "source", .text "A"), (.text "target", .text "A")]]
    let v : Value := .table [(.text "edges", .list items)]
    IsForm v items ∧ (items.filterMap Edge.givenId?).Nodup ∧
      ∃ g, ofValue v = .ok g ∧ HasIds items g.edges ∧ (g.edges.map Edge.id).Nodup := by
  intro items v
  have hends : ∀ item ∈ items, Edge.HasEnds item := by
    simp only [items, List.forall_mem_cons]
    exact ⟨⟨_, _, rfl, rfl⟩, ⟨_, _, rfl, rfl⟩, ⟨_, _, rfl, rfl⟩, ⟨_, _, rfl, rfl⟩,
      List.forall_mem_nil _⟩
  have hform : IsForm v items := ⟨⟨[], rfl, List.forall_mem_nil _⟩, rfl, hends, none, rfl⟩
  have hgiven : (items.filterMap Edge.givenId?).Nodup := by decide +kernel
  obtain ⟨g, hg, hids, hiff⟩ := nodup_edgeIds_iff hform hgiven
  refine ⟨hform, hgiven, g, hg, hids, hiff.2 ?_⟩
  have hread : ofValue v = .ok
      { edges := [⟨"7", "A", "B", ""⟩, ⟨"e1-A-B", "A", "B", ""⟩, ⟨"e2-1-B", "1", "B", ""⟩,
          ⟨"e1-1-B", "A", "A", ""⟩] } := by decide +kernel
  obtain rfl := Except.ok.inj (hg.symm.trans hread)
  decide +kernel

/-- The second edge is given no id, and derives the one that the first is given. -/
theorem not_nodup_edgeIds :
    let items : List Value := [
      .table [(.text "id", .text "e1-A-B"), (.text "source", .text "A"), (.text "target", .text "B")],
      .table [(.text "source", .text "A"), (.text "target", .text "B")]]
    let v : Value := .table [(.text "nodes", .list [.table [(.text "id", .text "A")], .table [(.text "id", .text "B")]]),
      (.text "edges", .list items)]
    (items.filterMap Edge.givenId?).Nodup ∧
      ∃ g, ofValue v = .ok g ∧ ¬ (g.edges.map Edge.id).Nodup := by
  intro items v
  have hread : ofValue v = .ok
      { nodes := [⟨"A", .state, "A", 0.0, 0.0⟩, ⟨"B", .state, "B", 0.0, 0.0⟩]
        edges := [⟨"e1-A-B", "A", "B", ""⟩, ⟨"e1-A-B", "A", "B", ""⟩] } := by decide +kernel
  exact ⟨by decide +kernel, _, hread, by decide⟩

end Graph

end Flowchart
