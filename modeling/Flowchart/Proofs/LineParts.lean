import Flowchart.Proofs.Parsing

/-!
# The graph of a text, line by line

A declaration has one part, a connection two: what stands before its first arrow, and what stands behind the last bar
after it or, without a bar, all that stands after it. A part mentions a node exactly if it is not blank
(`mention_id_eq_empty_iff_isBlank`).

No part is lost, and nothing else is read (`Blueprint.edges_and_nodes_ofText`). Each connection whose parts are both
not blank makes one edge. Each part that is not blank mentions one node, and the first mention of each id is kept.
-/

namespace Flowchart

open CodePoint (ofChar)

open Text

/-- Whether a fragment has no character but blanks. -/
def Fragment.isBlank (f : List CodePoint) : Bool := f.all Text.isBlank

theorem Fragment.mention_id_eq_empty_iff_isBlank {f : List CodePoint} :
    (mention f).id = "" ↔ isBlank f = true := by
  rw [mention_id_eq_empty_iff, strip_eq_nil_iff, isBlank, List.all_eq_true]

theorem named_map_mention (fs : List (List CodePoint)) :
    named (fs.map Fragment.mention) = (fs.filter (! Fragment.isBlank ·)).map Fragment.mention := by
  unfold named
  rw [List.filter_map]
  congr 2
  funext f
  rw [Bool.eq_iff_iff, Function.comp, bne_iff_ne, ne_eq, Fragment.mention_id_eq_empty_iff_isBlank,
    Bool.not_eq_true, Bool.not_eq_true']

/-! ## Parts -/

namespace Line

/-- What stands before the first arrow of a text and what stands behind the last bar after it. -/
def Splits (text source target : List CodePoint) : Prop :=
  ∃ rest, text = source ++ arrow ++ rest ∧ ¬ arrow <:+: source ∧
    (rest = target ∨ ∃ before, rest = before ++ [ofChar '|'] ++ target) ∧ ofChar '|' ∉ target

/-- The part of a connection before its first arrow. -/
def sourcePart (l : Line) : List CodePoint := (Connection.sides l.text.toList).1

/-- What stands behind the last bar of a text, or all of it if there is none. -/
def behindBars (s : List CodePoint) : List CodePoint := ((splitLast [ofChar '|'] s).map Prod.snd).getD s

/-- The part of a connection behind the last bar after the arrow or, without a bar, all of it after the arrow. -/
def targetPart (l : Line) : List CodePoint := behindBars (Connection.sides l.text.toList).2

/-- The parts of a line that may mention a node: all of a declaration, and those parts of a connection that are not
blank. -/
def parts (l : Line) : List (List CodePoint) :=
  match l.kind with
  | .declaration => [l.text.toList]
  | .connection => [l.sourcePart, l.targetPart].filter (! Fragment.isBlank ·)

/-- Whether a line connects two nodes. -/
def connects (l : Line) : Bool :=
  l.kind == .connection && ! Fragment.isBlank l.sourcePart && ! Fragment.isBlank l.targetPart

/-- What a line that connects two nodes says about the edge between them. -/
def link (l : Line) : Link :=
  ⟨(Fragment.mention l.sourcePart).id, (Fragment.mention l.targetPart).id, (Connection.ofText l.text).label⟩

theorem labelAndTarget_snd (s : List CodePoint) : (Connection.labelAndTarget s).2 = behindBars s := by
  unfold Connection.labelAndTarget behindBars
  cases splitLast [ofChar '|'] s with
  | none => rfl
  | some p =>
    dsimp only
    cases splitFirst [ofChar '|'] p.1 <;> rfl

theorem behindBars_cases (s : List CodePoint) :
    s = behindBars s ∨ ∃ before, s = before ++ [ofChar '|'] ++ behindBars s := by
  unfold behindBars
  cases h : splitLast [ofChar '|'] s with
  | none => exact Or.inl rfl
  | some p => exact Or.inr ⟨p.1, eq_append_of_splitLast h⟩

theorem not_mem_behindBars (s : List CodePoint) : ofChar '|' ∉ behindBars s := by
  rw [← labelAndTarget_snd]
  exact (labelAndTarget_spec s).2.2.2

theorem ofText_text (l : Line) : Connection.ofText l.text =
    ⟨Fragment.mention l.sourcePart, (Connection.ofText l.text).label, Fragment.mention l.targetPart⟩ := by
  unfold targetPart
  rw [← labelAndTarget_snd]
  rfl

theorem splits_parts {l : Line} (h : arrow <:+: l.text.toList) :
    Splits l.text.toList l.sourcePart l.targetPart := by
  obtain ⟨hsides, hfirst⟩ := Connection.sides_spec h
  exact ⟨_, hsides, hfirst, behindBars_cases _, not_mem_behindBars _⟩

theorem exists_row {t : Text} {l : Line} (h : l ∈ ofText t) :
    ∃ row, strip row ≠ [] ∧ l.text = Text.ofList (strip row) ∧ l.kind = kindOf (strip row) := by
  unfold ofText at h
  obtain ⟨⟨row, number⟩, -, hrow⟩ := List.mem_filterMap.1 h
  exact ⟨row, of_ofRaw? hrow⟩

theorem arrow_infix_of_mem {t : Text} {l : Line} (h : l ∈ ofText t) (hk : l.kind = .connection) :
    arrow <:+: l.text.toList := by
  obtain ⟨row, -, htext, hkind⟩ := exists_row h
  rw [htext, Text.toList_ofList]
  exact arrow_infix_of_kindOf (hkind ▸ hk)

theorem isBlank_of_mem {t : Text} {l : Line} (h : l ∈ ofText t) : Fragment.isBlank l.text.toList = false := by
  obtain ⟨row, hne, htext, -⟩ := exists_row h
  rw [← Bool.not_eq_true, ← Fragment.mention_id_eq_empty_iff_isBlank, Fragment.mention_id_eq_empty_iff, htext,
    Text.toList_ofList, strip_strip]
  exact hne

/-! ## What the parts say -/

/-- The nodes that a significant line mentions are those that its parts mention. -/
theorem mentions_eq {t : Text} {l : Line} (h : l ∈ ofText t) :
    (Reading.ofLine l.kind l.text).mentions = l.parts.map Fragment.mention := by
  unfold parts
  cases hk : l.kind with
  | declaration =>
    show named ([l.text.toList].map Fragment.mention) = _
    rw [named_map_mention]
    simp [isBlank_of_mem h]
  | connection =>
    show (Connection.ofText l.text).reading.mentions = _
    rw [ofText_text]
    exact named_map_mention [l.sourcePart, l.targetPart]

/-- A line says an edge exactly if it connects two nodes. -/
theorem links_eq (l : Line) :
    (Reading.ofLine l.kind l.text).links = if l.connects then [l.link] else [] := by
  unfold connects
  cases hk : l.kind with
  | declaration => rfl
  | connection =>
    show (Connection.ofText l.text).reading.links = _
    rw [ofText_text]
    unfold Connection.reading link
    simp only [Fragment.mention_id_eq_empty_iff_isBlank]
    cases Fragment.isBlank l.sourcePart <;> cases Fragment.isBlank l.targetPart <;> rfl

/-- The links that some lines say are those of the lines that connect two nodes. -/
theorem flatMap_links (ls : List Line) :
    (ls.flatMap fun l => (Reading.ofLine l.kind l.text).links) = (ls.filter connects).map link := by
  induction ls with
  | nil => rfl
  | cons l ls ih =>
    rw [List.flatMap_cons, ih, links_eq, List.filter_cons]
    split_ifs <;> rfl

end Line

/-! ## Places of edges -/

/-- The edge that a link makes at a place. -/
def Link.edgeAt (place : ℕ) (l : Link) : Edge :=
  ⟨Edge.derivedId (toString place) l.source l.target, l.source, l.target, l.label⟩

/-- The edges of a builder are what they say, at their places. -/
theorem Builder.Consistent.edges_eq {b : Builder} (h : b.Consistent) :
    b.edges = (b.edges.map Edge.link).mapIdx Link.edgeAt := by
  symm
  rw [List.mapIdx_eq_iff]
  intro i
  rw [List.getElem?_map]
  cases he : b.edges[i]? with
  | none => rfl
  | some e =>
    obtain ⟨id, source, target, label⟩ := e
    have hid : id = Edge.derivedId (toString i) source target := h.derived i _ he
    rw [hid]
    rfl

/-- The two parts of each connection are those around its first arrow and the last bar behind it. The edges of a text
are those of its lines that connect two nodes, each at its place, and its nodes are those that the parts of the lines
mention, each as it is mentioned first. -/
theorem Blueprint.edges_and_nodes_ofText (t : Text) :
    (∀ l ∈ Line.ofText t, l.kind = .connection → Line.Splits l.text.toList l.sourcePart l.targetPart) ∧
    (ofText t).edges = (((Line.ofText t).filter Line.connects).map Line.link).mapIdx Link.edgeAt ∧
    (ofText t).nodes = ((((Line.ofText t).flatMap Line.parts).map Fragment.mention).eraseDupsBy
      fun m n => m.id == n.id).map fun m => (m.id, m) := by
  refine ⟨fun l hl hk => Line.splits_parts (Line.arrow_infix_of_mem hl hk), ?_, ?_⟩
  · obtain ⟨b, hb, hbt⟩ := consistent_ofText t
    have hlinks : (ofText t).edges.map Edge.link = ((Line.ofText t).filter Line.connects).map Line.link :=
      (links_ofLines _).trans (Line.flatMap_links _)
    have hedges : (ofText t).edges = ((ofText t).edges.map Edge.link).mapIdx Link.edgeAt := by
      rw [hbt]
      exact hb.edges_eq
    rw [hedges, hlinks]
  · unfold ofText
    rw [nodes_ofLines, firstMentions_eq, List.flatMap_congr fun l hl => Line.mentions_eq hl, List.map_flatMap]

-- Half a connection mentions the end that it has, and brackets alone are an id.
example : (Blueprint.ofText "A -->\n[] --> |no| A\x7bOk?\x7d").edges = [⟨"e0-[]-A", "[]", "A", "no"⟩] ∧
    (Blueprint.ofText "A -->\n[] --> |no| A\x7bOk?\x7d").nodes =
      ([("A", ⟨"A", .state, "A"⟩), ("[]", ⟨"[]", .action, "[]"⟩)] : List (Text × Mention)) := by
  decide +kernel

end Flowchart
