import Flowchart.Proofs.Outcome
import Flowchart.Proofs.Rendering
import Flowchart.Session

/-!
# Parsed graphs

Everything that a text says about a graph is a part of one of its lines. So the nodes that are read from a
text have ids and labels without line breaks and without blanks at their ends (`Mention.Legible`), and its
links can be written as lines (`Link.Legible`).

A parsed graph has the nodes and the edges that its lines describe, in order (`structure_of_parse`).
-/

namespace Flowchart

open CodePoint (ofChar)

open Text

/-- A node as it is read from a line. -/
structure Mention.Legible (m : Mention) : Prop where
  id_ne : m.id ≠ ""
  id : Flowchart.Legible m.id
  label_ne : m.label ≠ ""
  label : Flowchart.Legible m.label
  earlier : ∀ s ∈ m.shape.earlier, ¬ s.Encloses m.label.toList

/-- A text without line breaks. -/
def OneLine (s : List CodePoint) : Prop := ∀ c ∈ s, isLineBreak c = false

theorem OneLine.isInfix {s t : List CodePoint} (h : OneLine t) (hst : s <:+: t) : OneLine s :=
  fun c hc => h c (hst.subset hc)

theorem legible_mention {f : List CodePoint} (hf : OneLine f) (hid : (Fragment.mention f).id ≠ "") :
    (Fragment.mention f).Legible where
  id_ne := hid
  id := ⟨(Fragment.strip_mention f).1, hf.isInfix (Fragment.mention_isInfix f).1⟩
  label_ne := Fragment.mention_label_ne_empty hid
  label := ⟨(Fragment.strip_mention f).2, hf.isInfix (Fragment.mention_isInfix f).2⟩
  earlier := Fragment.earlier_label f

/-! ## Connections -/

theorem sides_isInfix {s : List CodePoint} (h : arrow <:+: s) :
    (Connection.sides s).1 <:+: s ∧ (Connection.sides s).2 <:+: s := by
  have hs := (Connection.sides_spec h).1
  constructor
  · exact ⟨[], arrow ++ (Connection.sides s).2, by rw [List.nil_append, ← List.append_assoc, ← hs]⟩
  · exact ⟨(Connection.sides s).1 ++ arrow, [], by rw [List.append_nil, ← hs]⟩

/-- The label and the target lie behind the arrow, the label is stripped, and no bar is in the target. -/
theorem labelAndTarget_spec (s : List CodePoint) :
    (Connection.labelAndTarget s).1 <:+: s ∧
      strip (Connection.labelAndTarget s).1 = (Connection.labelAndTarget s).1 ∧
      (Connection.labelAndTarget s).2 <:+: s ∧ ofChar '|' ∉ (Connection.labelAndTarget s).2 := by
  rw [Connection.labelAndTarget_eq]
  obtain ⟨hlabel, htarget⟩ := (Connection.Rest.ofText s).parts_isInfix
  rw [Connection.Rest.text_ofText] at hlabel htarget
  exact ⟨(strip_isInfix _).trans hlabel, strip_strip _, htarget, (Connection.Rest.exact_ofText s).not_mem_target⟩

/-! ## Lines -/

theorem mem_named {ms : List Mention} {m : Mention} : m ∈ named ms ↔ m ∈ ms ∧ m.id ≠ "" := by
  unfold named
  rw [List.mem_filter, bne_iff_ne]

/-- The ends and the label of a connection are legible. -/
theorem legible_reading {text : Text} (ht : OneLine text.toList) (ha : arrow <:+: text.toList) :
    (∀ m ∈ (Connection.ofText text).reading.mentions, m.Legible) ∧
      ∀ l ∈ (Connection.ofText text).reading.links, l.Legible := by
  have hside := sides_isInfix ha
  have hspec := labelAndTarget_spec (Connection.sides text.toList).2
  have hleft := ht.isInfix hside.1
  have hright := ht.isInfix (hspec.2.2.1.trans hside.2)
  constructor
  · intro m hm
    obtain ⟨hm, hid⟩ := mem_named.1 hm
    rcases List.mem_cons.1 hm with rfl | hm
    · exact legible_mention hleft hid
    · obtain rfl := List.mem_singleton.1 hm
      exact legible_mention hright hid
  · intro l hl
    unfold Connection.reading at hl
    split_ifs at hl with h
    · cases hl
    · rw [not_or] at h
      obtain rfl := List.mem_singleton.1 hl
      have hsource := legible_mention hleft h.1
      have htarget := legible_mention hright h.2
      refine ⟨hsource.id_ne, hsource.id, ?_, htarget.id_ne, htarget.id, ?_, ?_⟩
      · exact fun hi => (Connection.sides_spec ha).2 (hi.trans (Fragment.mention_isInfix _).1)
      · exact fun hb => hspec.2.2.2 ((Fragment.mention_isInfix _).1.subset hb)
      · constructor <;> dsimp only [Connection.ofText]
        · exact hspec.2.1
        · exact ht.isInfix (hspec.1.trans hside.2)

/-- What a line without breaks says is legible. -/
theorem legible_ofLine {kind : Line.Kind} {text : Text} (ht : OneLine text.toList)
    (hk : kind = .connection → arrow <:+: text.toList) :
    (∀ m ∈ (Reading.ofLine kind text).mentions, m.Legible) ∧
      ∀ l ∈ (Reading.ofLine kind text).links, l.Legible := by
  cases kind with
  | declaration =>
    refine ⟨fun m hm => ?_, fun l hl => absurd hl List.not_mem_nil⟩
    obtain ⟨hm, hid⟩ := mem_named.1 hm
    obtain rfl := List.mem_singleton.1 hm
    exact legible_mention ht hid
  | connection => exact legible_reading ht (hk rfl)

/-- A significant line is a row of the text without the blanks around it. -/
theorem Line.of_ofRaw? {n : ℕ} {row : List CodePoint} {l : Line} (h : ofRaw? n row = some l) :
    strip row ≠ [] ∧ l.text = Text.ofList (strip row) ∧ l.kind = kindOf (strip row) := by
  unfold ofRaw? at h
  dsimp only at h
  split_ifs at h with hsilent
  obtain rfl := Option.some.inj h
  refine ⟨fun hs => hsilent ?_, rfl, rfl⟩
  rw [hs]
  rfl

theorem Line.arrow_infix_of_kindOf {s : List CodePoint} (h : kindOf s = .connection) : arrow <:+: s := by
  unfold kindOf at h
  split_ifs at h with ho
  exact occurs_eq_true_iff.1 ho

theorem legible_ofRow {row : List CodePoint} (hr : OneLine row) :
    (∀ m ∈ (Reading.ofRow row).mentions, m.Legible) ∧ ∀ l ∈ (Reading.ofRow row).links, l.Legible := by
  unfold Reading.ofRow
  cases h : Line.ofRaw? 0 row with
  | none => exact ⟨fun m hm => absurd hm List.not_mem_nil, fun l hl => absurd hl List.not_mem_nil⟩
  | some l =>
    obtain ⟨-, htext, hkind⟩ := Line.of_ofRaw? h
    show (∀ m ∈ (Reading.ofLine l.kind l.text).mentions, m.Legible) ∧
      ∀ l' ∈ (Reading.ofLine l.kind l.text).links, l'.Legible
    rw [htext]
    refine legible_ofLine ?_ fun hk => ?_
    · rw [Text.toList_ofList]
      exact hr.isInfix (strip_isInfix row)
    · rw [Text.toList_ofList]
      exact Line.arrow_infix_of_kindOf (hkind ▸ hk)

/-! ## Graphs of texts -/

theorem mem_mentionAll {es : Entries Mention} {ms : List Mention} {e : Text × Mention}
    (h : e ∈ mentionAll es ms) : e ∈ es ∨ (e.1 = e.2.id ∧ e.2 ∈ ms) := by
  induction ms generalizing es with
  | nil => exact Or.inl h
  | cons m ms ih =>
    rcases ih (show e ∈ mentionAll (es.add m.id m) ms from h) with h | ⟨hid, hm⟩
    · unfold Entries.add at h
      split_ifs at h
      · exact Or.inl h
      · rcases List.mem_append.1 h with h | h
        · exact Or.inl h
        · obtain rfl := List.mem_singleton.1 h
          exact Or.inr ⟨rfl, List.mem_cons_self⟩
    · exact Or.inr ⟨hid, List.mem_cons_of_mem _ hm⟩

/-- The graph that a text describes. -/
def Blueprint.ofText (t : Text) : Blueprint := Blueprint.ofLines (Line.ofText t)

theorem mem_nodes_ofText {t : Text} {e : Text × Mention} (h : e ∈ (Blueprint.ofText t).nodes) :
    e.1 = e.2.id ∧ e.2.Legible := by
  unfold Blueprint.ofText at h
  rw [nodes_ofText] at h
  obtain ⟨hid, hm⟩ := (mem_mentionAll h).resolve_left List.not_mem_nil
  simp only [Reading.concat_mentions, List.mem_flatMap, List.mem_map] at hm
  obtain ⟨_, ⟨row, hrow, rfl⟩, hm⟩ := hm
  exact ⟨hid, (legible_ofRow fun c hc => isLineBreak_of_mem_lines hrow hc).1 _ hm⟩

theorem legible_links_ofText {t : Text} {l : Link}
    (h : l ∈ (Blueprint.ofText t).edges.map Edge.link) : l.Legible := by
  unfold Blueprint.ofText at h
  rw [links_ofText] at h
  simp only [Reading.concat_links, List.mem_flatMap, List.mem_map] at h
  obtain ⟨_, ⟨row, hrow, rfl⟩, hl⟩ := h
  exact (legible_ofRow fun c hc => isLineBreak_of_mem_lines hrow hc).2 _ hl

theorem consistent_ofText (t : Text) :
    ∃ b : Builder, b.Consistent ∧ Blueprint.ofText t = b.blueprint := by
  refine ⟨({} : Builder).readLines (Line.ofText t), ?_, rfl⟩
  rw [Builder.readLines_eq_run]
  exact Builder.consistent_empty.run _

/-! ## Parsing -/

/-- The nodes of a graph without their positions, by id. -/
def Graph.mentions (g : Graph) : Entries Mention := g.nodes.map fun n => (n.id, n.mention)

/-- What the edges of a graph say. -/
def Graph.links (g : Graph) : List Link := g.edges.map Edge.link

theorem mention_ofMention {m : Mention} (h : m.label ≠ "") (x y : Float) :
    (Node.ofMention m x y).mention = m := by
  unfold Node.ofMention Node.mention
  simp [h]

/-- Placing the mentioned nodes changes nothing but their positions. -/
theorem mentions_of_placeNodes {nodes : Entries Mention} {points : Entries (Float × Float)}
    {ns : List Node} (h : Session.placeNodes nodes points = .ok ns)
    (hm : ∀ e ∈ nodes, e.1 = e.2.id ∧ e.2.label ≠ "") :
    (ns.map fun n => (n.id, n.mention)) = nodes := by
  have h2 := forall₂_of_mapM h
  clear h
  induction h2 with
  | nil => rfl
  | @cons e n nodes ns he _ ih =>
    obtain ⟨id, m⟩ := e
    have hid : id = m.id := (hm _ List.mem_cons_self).1
    have hl : m.label ≠ "" := (hm _ List.mem_cons_self).2
    rw [List.map_cons, ih fun e he => hm e (List.mem_cons_of_mem _ he)]
    dsimp only at he
    split at he
    · obtain rfl := Except.ok.inj he
      rw [mention_ofMention hl, hid]
      rfl
    · cases he

/-- A parsed graph has the nodes and the edges that its text describes. -/
theorem structure_of_parse {s : Session} {t : Text} {d : Bool} {g : Graph}
    (h : (s.parse t d).1 = .ok g) :
    g.mentions = (Blueprint.ofText t).nodes ∧ g.edges = (Blueprint.ofText t).edges := by
  unfold Session.parse at h
  dsimp only at h
  split at h
  · cases h
  · split at h
    · cases h
    · split at h
      · cases h
      · rename_i hplace
        obtain rfl := Except.ok.inj h
        refine ⟨mentions_of_placeNodes hplace fun e he => ?_, rfl⟩
        obtain ⟨hid, hm⟩ := mem_nodes_ofText (t := t) he
        exact ⟨hid, hm.label_ne⟩

section Parsed

variable {s : Session} {t : Text} {d : Bool} {g : Graph} (h : (s.parse t d).1 = .ok g)

include h

theorem mention_legible_of_parse {n : Node} (hn : n ∈ g.nodes) : n.mention.Legible := by
  have hmem : (n.id, n.mention) ∈ g.mentions := List.mem_map_of_mem hn
  rw [(structure_of_parse h).1] at hmem
  exact (mem_nodes_ofText hmem).2

theorem link_legible_of_parse {l : Link} (hl : l ∈ g.links) : l.Legible := by
  unfold Graph.links at hl
  rw [(structure_of_parse h).2] at hl
  exact legible_links_ofText hl

theorem ids_of_parse : g.nodeIds = (Blueprint.ofText t).nodes.ids := by
  rw [← (structure_of_parse h).1]
  unfold Graph.nodeIds Graph.mentions Entries.ids
  rw [List.map_map]
  rfl

theorem nodup_ids_of_parse : g.nodeIds.Nodup := by
  obtain ⟨b, hb, hbt⟩ := consistent_ofText t
  rw [ids_of_parse h, hbt]
  exact hb.nodup

theorem ends_of_parse {l : Link} (hl : l ∈ g.links) : l.source ∈ g.nodeIds ∧ l.target ∈ g.nodeIds := by
  obtain ⟨b, hb, hbt⟩ := consistent_ofText t
  obtain ⟨e, he, rfl⟩ := List.mem_map.1 hl
  rw [(structure_of_parse h).2, hbt] at he
  rw [ids_of_parse h, hbt]
  exact hb.ends e he

end Parsed

end Flowchart
