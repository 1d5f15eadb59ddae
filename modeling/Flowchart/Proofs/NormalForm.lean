import Flowchart.Proofs.GraphValue

/-!
# Graphs in normal form

A value may leave out much of a graph, or give it in another form. What is read from it is a graph in normal form:
one that is read back, as it is, from its own table (`Graph.IsNormal`, `Graph.read_toValue_of_isNormal`). In it, no
default comes into play a second time: a label is empty only if the id is, no edge lacks an id, and the viewport, if
there is one, is not empty. Reading any value gives such a graph (`Graph.isNormal_of_read`).
-/

namespace Flowchart

/-! ## The text of a value -/

theorem Decimal.render_ne_nil (x : Float) : Value.floatStyle.render x ≠ [] := by
  have hsigned : ∀ (negative : Bool) (s : List Char), s ≠ [] → (if negative then '-' :: s else s) ≠ [] := by
    intro negative s hs
    cases negative
    · exact hs
    · simp
  unfold Decimal.Style.render
  dsimp only
  cases Decimal.Parts.ofFloat x with
  | nan => decide
  | infinite negative => exact hsigned negative _ (by decide)
  | finite negative b =>
    refine hsigned negative _ ?_
    unfold Decimal.Style.magnitude Decimal.positional Decimal.scientific
    dsimp only
    split_ifs <;> simp

/-- Every value has a written form. -/
theorem Value.toList_literal_ne_nil (v : Value) : v.literal.toList ≠ [] := by
  cases v with
  | null => decide
  | bool b => cases b <;> decide
  | int n =>
    rw [literal, Text.toList_ofChars, ne_eq, List.map_eq_nil_iff]
    unfold Decimal.signedDigits
    split_ifs
    · simp
    · exact Nat.toDigits_ne_nil
  | float x =>
    rw [literal, Text.toList_ofChars, ne_eq, List.map_eq_nil_iff]
    exact Decimal.render_ne_nil x
  | text s =>
    unfold literal Text.quoted Text.quotedChars
    simp
  | list items =>
    unfold literal
    simp
  | tuple items =>
    unfold literal
    split <;> simp
  | table entries =>
    unfold literal
    simp

/-- Only the empty text has an empty text. -/
theorem Value.toText_ne_empty {v : Value} (h : v.isPresent = true) : v.toText ≠ "" := by
  cases v with
  | text s => simpa [Value.isPresent] using h
  | _ => exact fun he => Value.toList_literal_ne_nil _ (Text.toList_eq_nil_iff.2 he)

/-! ## Normal forms -/

/-- A node that has a label if it has an id. -/
def Node.IsNormal (n : Node) : Prop := n.label = "" → n.id = ""

/-- A graph that is read from its own table as it is. -/
structure Graph.IsNormal (g : Graph) : Prop where
  nodes : ∀ n ∈ g.nodes, n.IsNormal
  edges : ∀ e ∈ g.edges, e.id ≠ ""
  viewport : g.viewport ≠ some []

theorem Node.restored_eq {n : Node} (h : n.IsNormal) : n.restored = n := by
  obtain ⟨id, shape, label, x, y⟩ := n
  unfold Node.restored Node.ofMention Node.mention
  by_cases hlabel : label = ""
  · obtain rfl : id = "" := h hlabel
    simp [hlabel]
  · simp [hlabel]

theorem Edge.restored_eq {e : Edge} (h : e.id ≠ "") (place : Text) : e.restored place = e := by
  unfold Edge.restored
  rw [if_neg h]

namespace Graph

theorem restoredEdges_eq {es : List Edge} (h : ∀ e ∈ es, e.id ≠ "") (place : ℕ) : restoredEdges place es = es := by
  induction es generalizing place with
  | nil => rfl
  | cons e es ih =>
    rw [List.forall_mem_cons] at h
    rw [restoredEdges, Edge.restored_eq h.1, ih h.2]

theorem nodes_restored {g : Graph} (hn : ∀ n ∈ g.nodes, n.IsNormal) : g.restored.nodes = g.nodes := by
  show g.nodes.map Node.restored = g.nodes
  conv_rhs => rw [← List.map_id g.nodes]
  exact List.map_congr_left fun n hmem => Node.restored_eq (hn n hmem)

theorem restored_eq {g : Graph} (h : g.IsNormal) : g.restored = g := by
  have hnodes := nodes_restored h.nodes
  obtain ⟨nodes, edges, viewport⟩ := g
  have hviewport : viewport.filter (! ·.isEmpty) = viewport := by
    cases hv : viewport with
    | none => rfl
    | some t =>
      cases t with
      | nil => exact absurd hv h.viewport
      | cons e t => rfl
  show Graph.mk (Graph.restored ⟨nodes, edges, viewport⟩).nodes (restoredEdges 0 edges)
    (viewport.filter (! ·.isEmpty)) = _
  rw [hnodes, restoredEdges_eq h.edges, hviewport]

theorem read_toValue_of_isNormal (same : Value.KeyRule) {g : Graph} (h : g.IsNormal) :
    read same g.toValue = .ok g := by
  rw [read_toValue, restored_eq h]

end Graph

/-! ## What is read -/

theorem Node.isNormal_ofMention (m : Mention) (x y : Float) : (ofMention m x y).IsNormal := by
  show (if m.label == "" then m.id else m.label) = "" → m.id = ""
  by_cases h : m.label = ""
  · simp [h]
  · simp [h]

/-- A node is in normal form if it can be made of a mention and a position. -/
theorem Node.isNormal_iff {n : Node} : n.IsNormal ↔ ∃ m x y, n = ofMention m x y := by
  constructor
  · exact fun h => ⟨n.mention, n.x, n.y, (Node.restored_eq h).symm⟩
  · rintro ⟨m, x, y, rfl⟩
    exact isNormal_ofMention m x y

theorem Node.isNormal_of_ofValue {v : Value} {n : Node} (h : ofValue v = .ok n) : n.IsNormal := by
  unfold ofValue at h
  obtain ⟨label, -, h⟩ := of_bind_eq_ok h
  obtain ⟨position, -, h⟩ := of_bind_eq_ok h
  obtain ⟨id, -, h⟩ := of_bind_eq_ok h
  obtain ⟨shape, -, h⟩ := of_bind_eq_ok h
  obtain ⟨x, -, h⟩ := of_bind_eq_ok h
  obtain ⟨x, -, h⟩ := of_bind_eq_ok h
  obtain ⟨y, -, h⟩ := of_bind_eq_ok h
  obtain ⟨y, -, h⟩ := of_bind_eq_ok h
  obtain rfl := Except.ok.inj h
  exact isNormal_ofMention _ x y

theorem Edge.derivedId_ne_empty (place source target : Text) : derivedId place source target ≠ "" := by
  intro h
  have hlist := congrArg Text.toList h
  simp [derivedId] at hlist

/-- An edge that is read has an id, given or derived. -/
theorem Edge.id_ne_of_ofValue {place : Text} {v : Value} {e : Edge} (h : ofValue place v = .ok e) : e.id ≠ "" := by
  unfold ofValue at h
  obtain ⟨source, -, h⟩ := of_bind_eq_ok h
  obtain ⟨target, -, h⟩ := of_bind_eq_ok h
  obtain ⟨id, -, h⟩ := of_bind_eq_ok h
  obtain ⟨label, -, h⟩ := of_bind_eq_ok h
  obtain rfl := Except.ok.inj h
  show (if id.isPresent then id.toText else derivedId place source.toText target.toText) ≠ ""
  split_ifs with hid
  · exact Value.toText_ne_empty hid
  · exact derivedId_ne_empty _ _ _

theorem Value.Table.insertBy_ne_nil (same : KeyRule) (key value : Value) (t : Table) :
    insertBy same key value t ≠ [] := by
  cases t with
  | nil => simp [insertBy]
  | cons e t =>
    unfold insertBy
    split_ifs <;> simp

theorem Value.addEntries_ne_nil {same : KeyRule} {values : List Value} {index : ℕ} {t t' : Table}
    (h : addEntries same t index values = .ok t') (hne : t ≠ [] ∨ values ≠ []) : t' ≠ [] := by
  induction values generalizing t index with
  | nil =>
    obtain rfl := Except.ok.inj h
    simpa using hne
  | cons v values ih =>
    unfold addEntries at h
    obtain ⟨⟨key, value⟩, -, h⟩ := of_bind_eq_ok h
    dsimp only at h
    split at h
    · cases h
    · exact ih h (Or.inl (Table.insertBy_ne_nil same key value t))

/-- The parts of a value that counts as present. -/
theorem Value.items_ne_nil {v : Value} {vs : List Value} (h : v.items = .ok vs) (hv : v.isPresent = true) : vs ≠ [] := by
  cases v with
  | list items | tuple items =>
    obtain rfl := Except.ok.inj h
    simpa [Value.isPresent] using hv
  | text s =>
    obtain rfl := Except.ok.inj h
    simpa [Value.isPresent, Text.toList_eq_nil_iff] using hv
  | table entries =>
    obtain rfl := Except.ok.inj h
    simpa [Value.isPresent] using hv
  | _ => cases h

theorem Value.toTable_ne_nil {same : KeyRule} {v : Value} {t : Table} (h : v.toTable same = .ok t)
    (hv : v.isPresent = true) : t ≠ [] := by
  have hread : ∀ {w : Value}, (do addEntries same [] 0 (← w.items)) = .ok t → w.isPresent = true → t ≠ [] := by
    intro w hw hpresent
    obtain ⟨vs, hvs, hw⟩ := of_bind_eq_ok hw
    exact addEntries_ne_nil hw (Or.inr (items_ne_nil hvs hpresent))
  cases v with
  | table entries =>
    obtain rfl := Except.ok.inj h
    simpa [Value.isPresent] using hv
  | _ => exact hread h hv

namespace Graph

variable {same : Value.KeyRule} {v : Value}

theorem viewport_ne_of_viewportOf {view : Option Value.Table} (h : viewportOf same v = .ok view) : view ≠ some [] := by
  unfold viewportOf at h
  obtain ⟨entry, -, h⟩ := of_bind_eq_ok h
  split_ifs at h with hpresent
  · obtain ⟨t, ht, rfl⟩ := of_map_eq_ok h
    exact fun he => Value.toTable_ne_nil ht hpresent (Option.some.inj he)
  · obtain rfl := Except.ok.inj h
    nofun

theorem id_ne_of_edgesOf {place : ℕ} {vs : List Value} {es : List Edge} (h : edgesOf place vs = .ok es) :
    ∀ e ∈ es, e.id ≠ "" := by
  induction vs generalizing place es with
  | nil =>
    obtain rfl := Except.ok.inj h
    exact List.forall_mem_nil _
  | cons v vs ih =>
    unfold edgesOf at h
    obtain ⟨e, he, h⟩ := of_bind_eq_ok h
    obtain ⟨rest, hrest, h⟩ := of_bind_eq_ok h
    obtain rfl := Except.ok.inj h
    exact List.forall_mem_cons.2 ⟨Edge.id_ne_of_ofValue he, ih hrest⟩

/-- Whatever a graph is read from, it is in normal form. -/
theorem isNormal_of_read {g : Graph} (h : read same v = .ok g) : g.IsNormal := by
  unfold read at h
  obtain ⟨nodeItems, -, h⟩ := of_bind_eq_ok h
  obtain ⟨nodes, hnodes, h⟩ := of_bind_eq_ok h
  obtain ⟨edgeItems, -, h⟩ := of_bind_eq_ok h
  obtain ⟨edges, hedges, h⟩ := of_bind_eq_ok h
  obtain ⟨view, hview, h⟩ := of_bind_eq_ok h
  obtain rfl := Except.ok.inj h
  refine ⟨fun n hn => ?_, id_ne_of_edgesOf hedges, viewport_ne_of_viewportOf hview⟩
  obtain ⟨item, -, hitem⟩ := exists_of_mem_mapM hnodes hn
  exact Node.isNormal_of_ofValue hitem

/-- A graph that has been read from any value is read, the same in all its parts, from its own table. So the table is
what a graph that is read from it is turned into. -/
theorem ofValue_toValue_of_ofValue {g : Graph} (h : ofValue v = .ok g) :
    ofValue g.toValue = .ok g ∧ (ofValue g.toValue).map toValue = .ok g.toValue := by
  have hback : ofValue g.toValue = .ok g := read_toValue_of_isNormal Value.sameKey (isNormal_of_read h)
  rw [hback]
  exact ⟨rfl, rfl⟩

/-- Ids that are no texts, a label under `data`, a position in other forms, an edge without an id, and a viewport that
is given as a row of entries. -/
theorem ofValue_toValue_of_ofValue_canvas :
    let v : Value := .table [
      (.text "nodes", .list [
        .table [(.text "id", .int 7), (.text "label", .null), (.text "data", .table [(.text "label", .text "Start")]),
          (.text "position", .table [(.text "x", .text " 1.5"), (.text "y", .bool true)])],
        .table [(.text "id", .null), (.text "type", .text "choice"), (.text "label", .text "")]]),
      (.text "edges", .list [.table [(.text "source", .int 7), (.text "target", .null), (.text "id", .int 0)]]),
      (.text "viewport", .list [.list [.text "zoom", .int 2], .text "x1", .tuple [.float 2.0, .null]])]
    let g : Graph :=
      { nodes := [⟨"7", .state, "Start", 1.5, 1.0⟩, ⟨"None", .choice, "None", 0.0, 0.0⟩]
        edges := [⟨"e0-7-None", "7", "None", ""⟩]
        viewport := some [(.text "zoom", .int 2), (.text "x", .text "1"), (.float 2.0, .null)] }
    ofValue v = .ok g ∧ ofValue g.toValue = .ok g ∧ (ofValue g.toValue).map toValue = .ok g.toValue := by
  intro v g
  have h : ofValue v = .ok g := by decide +kernel
  exact ⟨h, ofValue_toValue_of_ofValue h⟩

end Graph

end Flowchart
