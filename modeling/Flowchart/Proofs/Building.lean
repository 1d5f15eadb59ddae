import Flowchart.Builder
import Mathlib.Data.List.Nodup
import Mathlib.Tactic.Common

/-!
# What a builder keeps

`Builder.run` does any operations on a builder, one after the other. `Builder.Consistent` ties the three
parts of a builder together: the nodes are entered under their own ids, the ends of the edges are nodes, the
edges have the ids of their places, and the successors of a node are the targets of its edges.

Every run keeps this (`Builder.Consistent.run`). The place of an edge can be read off its id
(`derivedId_inj`), so the ids of the edges are pairwise different.
-/

namespace Flowchart

open CodePoint (ofChar)

/-- The targets of the edges from `id`, in the order of the edges. -/
def targetsFrom (es : List Edge) (id : Text) : List Text :=
  (es.filter (·.source == id)).map Edge.target

theorem targetsFrom_append (es fs : List Edge) (id : Text) :
    targetsFrom (es ++ fs) id = targetsFrom es id ++ targetsFrom fs id := by
  unfold targetsFrom
  rw [List.filter_append, List.map_append]

theorem targetsFrom_singleton (e : Edge) (id : Text) :
    targetsFrom [e] id = if id = e.source then [e.target] else [] := by
  unfold targetsFrom
  by_cases h : id = e.source
  · simp [h]
  · have h' : (e.source == id) = false := by simpa using Ne.symm h
    simp [h, h']

/-! ## Ids of edges -/

theorem hyphen_not_mem_toDigits (n : ℕ) : '-' ∉ Nat.toDigits 10 n := by
  intro h
  have := Nat.isDigit_of_mem_toDigits (by omega) (by omega) h
  exact absurd this (by decide)

theorem toList_derivedId (n : ℕ) (source target : Text) :
    (Edge.derivedId (toString n) source target).toList =
      ofChar 'e' :: ((Nat.toDigits 10 n).map ofChar ++
        ofChar '-' :: (source.toList ++ ofChar '-' :: target.toList)) := by
  unfold Edge.derivedId
  simp

/-- The digits of the place end at the first hyphen, whatever the ends of the edge are. -/
theorem takeWhile_derivedId (n : ℕ) (source target : Text) :
    (Edge.derivedId (toString n) source target).toList.tail.takeWhile (· != ofChar '-') =
      (Nat.toDigits 10 n).map ofChar := by
  rw [toList_derivedId, List.tail_cons, List.takeWhile_append_of_pos]
  · rw [List.takeWhile_cons_of_neg (by simp), List.append_nil]
  · intro c hc
    obtain ⟨d, hd, rfl⟩ := List.mem_map.1 hc
    have hne : d ≠ '-' := fun h => hyphen_not_mem_toDigits n (h ▸ hd)
    simpa using hne

theorem derivedId_inj {m n : ℕ} {source target source' target' : Text}
    (h : Edge.derivedId (toString m) source target = Edge.derivedId (toString n) source' target') :
    m = n := by
  have hd : Nat.toDigits 10 m = Nat.toDigits 10 n := by
    refine (List.map_inj_right fun _ _ => CodePoint.ofChar_inj.1).1 ?_
    rw [← takeWhile_derivedId m source target, h, takeWhile_derivedId]
  rw [← Nat.ofDigitChars_ten_toDigits (n := m), hd, Nat.ofDigitChars_ten_toDigits]

namespace Builder

/-! ## Operations -/

/-- What can be done with a builder. -/
inductive Op where
  | enter (m : Mention)
  | connect (c : Connection)
  | readLine (kind : Line.Kind) (text : Text)
  deriving Repr

/-- The builder after an operation. -/
def step (b : Builder) : Op → Builder
  | .enter m => b.enter m
  | .connect c => b.connect c
  | .readLine kind text => b.readLine kind text

/-- The builder after some operations. -/
def run (b : Builder) (ops : List Op) : Builder := ops.foldl step b

theorem ids_enter (b : Builder) (m : Mention) :
    (b.enter m).nodes.ids = if m.id ∈ b.nodes.ids then b.nodes.ids else b.nodes.ids ++ [m.id] :=
  Entries.ids_add b.nodes m.id m

theorem mem_ids_enter (b : Builder) (m : Mention) : m.id ∈ (b.enter m).nodes.ids := by
  rw [ids_enter]
  split_ifs with h
  · exact h
  · simp

theorem ids_subset_enter (b : Builder) (m : Mention) : b.nodes.ids ⊆ (b.enter m).nodes.ids := by
  rw [ids_enter]
  split_ifs
  · exact fun _ h => h
  · exact List.subset_append_left _ _

theorem mem_nodes_enter {b : Builder} {m : Mention} {e : Text × Mention}
    (h : e ∈ (b.enter m).nodes) : e ∈ b.nodes ∨ e = (m.id, m) := by
  unfold enter Entries.add at h
  dsimp only at h
  split_ifs at h with hm
  · exact Or.inl h
  · exact (List.mem_append.1 h).imp_right List.mem_singleton.1

/-! ## The invariant -/

/-- The nodes, the edges and the successors of a builder belong together. -/
structure Consistent (b : Builder) : Prop where
  nodup : b.nodes.ids.Nodup
  key : ∀ e ∈ b.nodes, e.1 = e.2.id
  ends : ∀ e ∈ b.edges, e.source ∈ b.nodes.ids ∧ e.target ∈ b.nodes.ids
  derived : ∀ (i : ℕ) (e : Edge), b.edges[i]? = some e →
    e.id = Edge.derivedId (toString i) e.source e.target
  targets : ∀ id, (b.successors.get? id).getD [] = targetsFrom b.edges id

theorem consistent_empty : Consistent {} where
  nodup := List.nodup_nil
  key := by intro e he; cases he
  ends := by intro e he; cases he
  derived := by intro i e he; simp at he
  targets := by intro id; rfl

theorem Consistent.enter {b : Builder} (h : b.Consistent) (m : Mention) : (b.enter m).Consistent where
  nodup := by
    rw [ids_enter]
    split_ifs with hm
    · exact h.nodup
    · rw [← List.concat_eq_append]
      exact h.nodup.concat hm
  key := by
    intro e he
    rcases mem_nodes_enter he with he | rfl
    · exact h.key e he
    · rfl
  ends := by
    intro e he
    obtain ⟨hs, ht⟩ := h.ends e he
    exact ⟨ids_subset_enter b m hs, ids_subset_enter b m ht⟩
  derived := h.derived
  targets := h.targets

theorem Consistent.connect {b : Builder} (h : b.Consistent) (c : Connection) :
    (b.connect c).Consistent := by
  have hb := (h.enter c.source).enter c.target
  have hs : c.source.id ∈ ((b.enter c.source).enter c.target).nodes.ids :=
    ids_subset_enter _ _ (mem_ids_enter b c.source)
  have ht := mem_ids_enter (b.enter c.source) c.target
  refine ⟨hb.nodup, hb.key, ?_, ?_, ?_⟩
  · intro e he
    rcases List.mem_append.1 he with he | he
    · exact hb.ends e he
    · obtain rfl := List.mem_singleton.1 he
      exact ⟨hs, ht⟩
  · intro i e he
    change (b.edges ++ [_])[i]? = some e at he
    rcases Nat.lt_or_ge i b.edges.length with hi | hi
    · rw [List.getElem?_append_left hi] at he
      exact h.derived i e he
    · rw [List.getElem?_append_right hi, List.getElem?_singleton] at he
      split_ifs at he with hi'
      obtain rfl := Option.some.inj he
      rw [show i = b.edges.length by omega]
      rfl
  · intro id
    show ((b.successors.set c.source.id _).get? id).getD [] = targetsFrom (b.edges ++ [_]) id
    rw [targetsFrom_append, targetsFrom_singleton, Entries.get?_set, ← h.targets id]
    show _ = _ ++ if id = c.source.id then [c.target.id] else []
    split_ifs with hid
    · subst hid; rfl
    · exact (List.append_nil _).symm

theorem Consistent.enterNamed {b : Builder} (h : b.Consistent) (m : Mention) :
    (b.enterNamed m).Consistent := by
  unfold Builder.enterNamed
  split_ifs
  · exact h
  · exact h.enter m

theorem Consistent.readLine {b : Builder} (h : b.Consistent) (kind : Line.Kind) (text : Text) :
    (b.readLine kind text).Consistent := by
  unfold Builder.readLine
  cases kind with
  | declaration => exact h.enterNamed _
  | connection =>
    dsimp only
    split_ifs
    · exact (h.enterNamed _).enterNamed _
    · exact h.connect _

/-- One operation keeps a builder consistent. -/
theorem Consistent.step {b : Builder} (h : b.Consistent) (op : Op) : (b.step op).Consistent := by
  cases op with
  | enter m => exact h.enter m
  | connect c => exact h.connect c
  | readLine kind text => exact h.readLine kind text

/-- Every run keeps a builder consistent. -/
theorem Consistent.run {b : Builder} (h : b.Consistent) (ops : List Op) : (b.run ops).Consistent := by
  induction ops generalizing b with
  | nil => exact h
  | cons op ops ih => exact ih (h.step op)

/-- The edges of a consistent builder have pairwise different ids. -/
theorem Consistent.nodup_edge_ids {b : Builder} (h : b.Consistent) : (b.edges.map Edge.id).Nodup := by
  rw [List.nodup_iff_injective_getElem]
  rintro ⟨i, hi⟩ ⟨j, hj⟩ hij
  rw [List.length_map] at hi hj
  simp only [List.getElem_map] at hij
  rw [h.derived i _ (List.getElem?_eq_getElem hi), h.derived j _ (List.getElem?_eq_getElem hj)] at hij
  exact Fin.ext (derivedId_inj hij)

/-- Reading lines is a run. -/
theorem readLines_eq_run (b : Builder) (ls : List Line) :
    b.readLines ls = b.run (ls.map fun l => .readLine l.kind l.text) := by
  unfold Builder.readLines Builder.run
  rw [List.foldl_map]
  rfl

/-! ## What has been built -/

theorem ids_blueprint (b : Builder) : b.blueprint.successors.ids = b.nodes.ids := by
  unfold Builder.blueprint Entries.ids
  simp [Function.comp_def]

theorem get?_map_ids (ids : List Text) (f : Text → List Text) {id : Text} (h : id ∈ ids) :
    Entries.get? (ids.map fun i => (i, f i)) id = some (f id) := by
  induction ids with
  | nil => cases h
  | cons i ids ih =>
    rw [List.map_cons, Entries.get?_cons]
    split_ifs with hi
    · rw [hi]
    · exact ih ((List.mem_cons.1 h).resolve_left hi)

/-- The successors that are built are the targets of the edges. -/
theorem Consistent.get?_blueprint {b : Builder} (h : b.Consistent) {id : Text}
    (hid : id ∈ b.nodes.ids) : b.blueprint.successors.get? id = some (targetsFrom b.edges id) := by
  unfold Builder.blueprint
  rw [get?_map_ids _ _ hid, h.targets id]

/-- After any operations on a new builder, the nodes stand under their own ids, the ends of every edge are
nodes, the edges have the ids of their places, which are pairwise different, and what is built gives each
node, in the order of the nodes, the targets of its edges. -/
theorem consistent_after_run (ops : List Op) :
    let b := ({} : Builder).run ops
    (∀ e ∈ b.nodes, e.1 = e.2.id) ∧
    (∀ e ∈ b.edges, e.source ∈ b.nodes.ids ∧ e.target ∈ b.nodes.ids) ∧
    (∀ (i : ℕ) (e : Edge), b.edges[i]? = some e →
      e.id = Edge.derivedId (toString i) e.source e.target) ∧
    (b.edges.map Edge.id).Nodup ∧
    b.nodes.ids.Nodup ∧
    b.blueprint.nodes = b.nodes ∧
    b.blueprint.edges = b.edges ∧
    b.blueprint.successors.ids = b.nodes.ids ∧
    ∀ id ∈ b.nodes.ids, b.blueprint.successors.get? id = some (targetsFrom b.edges id) := by
  intro b
  have h : b.Consistent := consistent_empty.run ops
  exact ⟨h.key, h.ends, h.derived, h.nodup_edge_ids, h.nodup, rfl, rfl, ids_blueprint b,
    fun _ => h.get?_blueprint⟩

end Builder

end Flowchart
