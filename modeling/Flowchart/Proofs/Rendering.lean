import Flowchart.Proofs.ConnectionParts
import Flowchart.Proofs.Reading

/-!
# What a rendered diagram says

The rows of a rendered diagram are read one by one. A row with the declaration of a node says
`Mention.reread`, a row with the line of an edge says `Link.reread`, and the header says nothing:
`nodes_diagram` and `links_diagram` give the graph that is read from a rendered diagram.

A row may say something else than the node or edge it was made of: an id may start like a comment, a label
may hold an arrow, and an id with blanks or brackets is not read as a whole.
-/

namespace Flowchart

open CodePoint (ofChar)

open Text

/-! ## Rows of a text -/

/-- What a row of a text says. -/
def Reading.ofRow (row : List CodePoint) : Reading :=
  ((Line.ofRaw? 0 row).map fun l => Reading.ofLine l.kind l.text).getD {}

theorem ofRaw?_number (n : ℕ) (row : List CodePoint) :
    Line.ofRaw? n row = (Line.ofRaw? 0 row).map fun l => { l with number := n } := by
  unfold Line.ofRaw?
  dsimp only
  split_ifs <;> rfl

theorem flatMap_ofText {α : Type} (f : Reading → List α) (hf : f {} = []) (s : Text) :
    ((Line.ofText s).flatMap fun l => f (Reading.ofLine l.kind l.text)) =
      (lines s.toList).flatMap fun row => f (Reading.ofRow row) := by
  unfold Line.ofText
  generalize lines s.toList = rows
  generalize 1 = n
  induction rows generalizing n with
  | nil => rfl
  | cons row rows ih =>
    rw [List.zipIdx_cons, List.flatMap_cons, ← ih (n + 1)]
    unfold Reading.ofRow
    cases h : Line.ofRaw? 0 row with
    | none =>
      have hn : Line.ofRaw? n row = none := by rw [ofRaw?_number, h]; rfl
      simp [hn, hf]
    | some l =>
      have hn : Line.ofRaw? n row = some { l with number := n } := by rw [ofRaw?_number, h]; rfl
      simp [hn]

theorem nodes_ofText (s : Text) : (Blueprint.ofLines (Line.ofText s)).nodes =
    firstMentions (Reading.concat ((lines s.toList).map Reading.ofRow)).mentions := by
  rw [nodes_ofLines, flatMap_ofText Reading.mentions rfl, Reading.concat_mentions, List.flatMap_map]

theorem links_ofText (s : Text) : (Blueprint.ofLines (Line.ofText s)).edges.map Edge.link =
    (Reading.concat ((lines s.toList).map Reading.ofRow)).links := by
  rw [links_ofLines, flatMap_ofText Reading.links rfl, Reading.concat_links, List.flatMap_map]

theorem ofRow_append_left {pad : List CodePoint} (h : ∀ c ∈ pad, isBlank c = true) (row : List CodePoint) :
    Reading.ofRow (pad ++ row) = Reading.ofRow row := by
  unfold Reading.ofRow Line.ofRaw?
  rw [strip_append_left h]

/-! ## Headers and comments -/

/-- A character that can stand in no header. -/
def OutsideHeader (c : CodePoint) : Prop :=
  isBlank c = false ∧ isWordChar c = false ∧ ∀ word ∈ Line.headerWords, c.toLower ∉ word

theorem mem_isHeaderEnd {s : List CodePoint} {c : CodePoint} (h : Line.isHeaderEnd s = true) (hc : c ∈ s) :
    isBlank c = true ∨ isWordChar c = true := by
  unfold Line.isHeaderEnd at h
  rw [Bool.and_eq_true, List.all_eq_true] at h
  rw [← List.takeWhile_append_dropWhile (p := isBlank) (l := s), List.mem_append] at hc
  rcases hc with hc | hc
  · exact Or.inl (List.mem_takeWhile_imp hc)
  · rw [← List.takeWhile_append_dropWhile (p := isWordChar) (l := s.dropWhile isBlank),
      List.mem_append] at hc
    rcases hc with hc | hc
    · exact Or.inr (List.mem_takeWhile_imp hc)
    · exact Or.inl (h.2 c hc)

/-- A text with a character that stands in no header is none. -/
theorem isHeader_eq_false {s : List CodePoint} {c : CodePoint} (hc : c ∈ s) (ho : OutsideHeader c) :
    Line.isHeader s = false := by
  obtain ⟨hb, hw, hh⟩ := ho
  by_contra h
  simp only [Bool.not_eq_false, Line.isHeader, List.any_eq_true, Bool.and_eq_true] at h
  obtain ⟨word, hword, hp, he⟩ := h
  rw [List.isPrefixOf_iff_prefix, List.prefix_iff_eq_take] at hp
  rw [← List.take_append_drop word.length s, List.mem_append] at hc
  rcases hc with hc | hc
  · apply hh word hword
    rw [hp, ← List.map_take]
    exact List.mem_map_of_mem hc
  · rcases mem_isHeaderEnd he hc with h | h
    · rw [hb] at h; cases h
    · rw [hw] at h; cases h

theorem outsideHeader_opener (s : Shape) : ∃ c ∈ s.opener, OutsideHeader c := by
  cases s
  · exact ⟨'(', by decide, by decide, by decide, by decide⟩
  · exact ⟨'[', by decide, by decide, by decide, by decide⟩
  · exact ⟨'\x7b', by decide, by decide, by decide, by decide⟩

theorem outsideHeader_hyphen : OutsideHeader '-' := ⟨by decide, by decide, by decide⟩

/-- Whether a text is a comment is settled by an id at its start. -/
theorem isComment_append {id rest : List CodePoint} (hid : id ≠ []) (hr : rest.head? ≠ some (ofChar '%')) :
    Line.isComment (id ++ rest) = Line.isComment id := by
  obtain ⟨c, id, rfl⟩ := List.exists_cons_of_ne_nil hid
  unfold Line.isComment Line.commentMark
  cases id with
  | cons d id => simp [List.isPrefixOf]
  | nil =>
    cases rest with
    | nil => simp
    | cons d rest =>
      have hd : (ofChar '%' == d) = false := by
        rw [beq_eq_false_iff_ne]
        rintro rfl
        exact hr rfl
      simp [List.isPrefixOf, hd]

/-- A row that is stripped, no header and no comment. -/
theorem ofRow_of_stripped {row : List CodePoint} (hs : strip row = row) (hne : row ≠ [])
    (hh : Line.isHeader row = false) : Reading.ofRow row =
      if Line.isComment row then {} else Reading.ofLine (Line.kindOf row) (Text.ofList row) := by
  unfold Reading.ofRow Line.ofRaw?
  dsimp only
  have he : row.isEmpty = false := by simpa using hne
  rw [hs, hh, he]
  cases Line.isComment row <;> rfl

/-! ## Declarations -/

/-- A text without line breaks and without blanks at its ends. -/
def Legible (s : Text) : Prop :=
  strip s.toList = s.toList ∧ ∀ c ∈ s.toList, isLineBreak c = false

instance : DecidablePred Legible := fun s =>
  inferInstanceAs (Decidable (strip s.toList = s.toList ∧ ∀ c ∈ s.toList, isLineBreak c = false))

/-- What the declaration of a node says when it is read again. -/
def Mention.reread (m : Mention) : Reading :=
  if Line.isComment m.id.toList then {} else Reading.ofLine (Line.kindOf m.render.toList) m.render

theorem ofRow_render {m : Mention} (hne : m.id ≠ "") (hs : strip m.id.toList = m.id.toList) :
    Reading.ofRow m.render.toList = m.reread := by
  have hid : m.id.toList ≠ [] := fun h => hne (Text.toList_inj.1 h)
  obtain ⟨c, hc, hh⟩ := outsideHeader_opener m.shape
  have hmem : c ∈ m.render.toList := by simp [Fragment.toList_render, hc]
  have hcomment : Line.isComment m.render.toList = Line.isComment m.id.toList := by
    rw [Fragment.toList_render, List.append_assoc, List.append_assoc]
    apply isComment_append hid
    cases m.shape <;> simp [Shape.opener]
  rw [ofRow_of_stripped (Fragment.strip_render hs) (List.ne_nil_of_mem hmem) (isHeader_eq_false hmem hh),
    hcomment, Text.ofList_toList]
  rfl

theorem isLineBreak_render {m : Mention} (hid : Legible m.id) (hl : Legible m.label) :
    ∀ c ∈ m.render.toList, isLineBreak c = false := by
  intro c hc
  rw [Fragment.toList_render] at hc
  simp only [List.mem_append] at hc
  rcases hc with ((hc | hc) | hc) | hc
  · exact hid.2 c hc
  · exact isLineBreak_of_not_isBlank (Shape.isBlank_opener c hc)
  · exact hl.2 c hc
  · exact isLineBreak_of_not_isBlank (Shape.isBlank_closer c hc)

/-- The opener and the closer of a declaration separate the arrows in the id from those in the label. -/
theorem arrow_infix_render_iff {m : Mention} :
    arrow <:+: m.render.toList ↔ arrow <:+: m.id.toList ∨ arrow <:+: m.label.toList := by
  have hnil : ¬ arrow <:+: [] := by decide
  rw [Fragment.toList_render]
  cases m.shape <;> simp only [Shape.opener, Shape.closer, List.append_assoc, List.cons_append,
    List.nil_append]
  · rw [infix_append_cons_iff (by decide), ← List.nil_append (ofChar '(' :: (m.label.toList ++ _)),
      infix_append_cons_iff (by decide), infix_append_cons_iff (by decide), ← List.nil_append [ofChar ')'],
      infix_append_cons_iff (by decide)]
    simp [hnil]
  · rw [infix_append_cons_iff (by decide), infix_append_cons_iff (by decide)]
    simp [hnil]
  · rw [infix_append_cons_iff (by decide), infix_append_cons_iff (by decide)]
    simp [hnil]

/-! ## Lines of edges -/

/-- A link as it stands in a line. -/
structure Link.Legible (l : Link) : Prop where
  source_ne : l.source ≠ ""
  source : Flowchart.Legible l.source
  no_arrow : ¬ arrow <:+: l.source.toList
  target_ne : l.target ≠ ""
  target : Flowchart.Legible l.target
  no_bar : ofChar '|' ∉ l.target.toList
  label : Flowchart.Legible l.label

/-- The connection that is read from the line of a link. -/
def Link.connection (l : Link) : Connection :=
  ⟨Fragment.mention l.source.toList, l.label, Fragment.mention l.target.toList⟩

/-- What the line of an edge says when it is read again. -/
def Link.reread (l : Link) : Reading :=
  if Line.isComment l.source.toList then {} else l.connection.reading

/-- What follows the arrow in the line of an edge. -/
def Link.rest (l : Link) : List CodePoint :=
  ofChar ' ' ::
    ((if l.label = "" then [] else ofChar '|' :: (l.label.toList ++ [ofChar '|', ofChar ' '])) ++ l.target.toList)

theorem toList_render_link (l : Link) :
    l.render.toList = l.source.toList ++ [ofChar ' '] ++ arrow ++ l.rest := by
  unfold Link.render Link.rest
  by_cases h : l.label = "" <;> simp [h, arrow]

theorem sides_render {l : Link} (h : ¬ arrow <:+: l.source.toList) :
    Connection.sides l.render.toList = (l.source.toList ++ [ofChar ' '], l.rest) := by
  rw [toList_render_link]
  exact Connection.sides_append fun hi => h (infix_of_append_right (by decide) (by decide) hi)

theorem labelAndTarget_rest {l : Link} (hl : strip l.label.toList = l.label.toList)
    (ht : ofChar '|' ∉ l.target.toList) :
    Connection.labelAndTarget l.rest = (l.label.toList, ofChar ' ' :: l.target.toList) := by
  have hbar : ofChar '|' ∉ ofChar ' ' :: l.target.toList := by simp [ht]
  rw [Connection.labelAndTarget_eq]
  by_cases h : l.label = ""
  · have hexact : (Connection.Rest.plain (ofChar ' ' :: l.target.toList)).Exact := hbar
    have hrest : l.rest = (Connection.Rest.plain (ofChar ' ' :: l.target.toList)).text := by
      simp [Link.rest, Connection.Rest.text, h]
    rw [hrest, Connection.Rest.ofText_text hexact, h]
    rfl
  · have hexact : (Connection.Rest.labelled [ofChar ' '] l.label.toList (ofChar ' ' :: l.target.toList)).Exact :=
      ⟨by decide, hbar⟩
    have hrest : l.rest =
        (Connection.Rest.labelled [ofChar ' '] l.label.toList (ofChar ' ' :: l.target.toList)).text := by
      simp [Link.rest, Connection.Rest.text, h]
    rw [hrest, Connection.Rest.ofText_text hexact]
    simp only [Connection.Rest.label, Connection.Rest.target, hl]

/-- The line of a link reads as a connection between what its two ends mention. -/
theorem ofText_render_link {l : Link} (h : l.Legible) : Connection.ofText l.render = l.connection := by
  have hpad : ∀ c ∈ [ofChar ' '], isBlank c = true := by decide
  have htarget : Fragment.mention (ofChar ' ' :: l.target.toList) = Fragment.mention l.target.toList :=
    Fragment.mention_append_left hpad _
  unfold Connection.ofText Link.connection
  rw [sides_render h.no_arrow]
  simp only [labelAndTarget_rest h.label.1 h.no_bar, htarget, Fragment.mention_append_right hpad,
    Text.ofList_toList]

theorem head?_of_legible {s : Text} (h : Flowchart.Legible s) (c : CodePoint)
    (hc : s.toList.head? = some c) : isBlank c = false := head?_strip (h.1 ▸ hc)

theorem getLast?_of_legible {s : Text} (h : Flowchart.Legible s) (c : CodePoint)
    (hc : s.toList.getLast? = some c) : isBlank c = false := getLast?_strip (h.1 ▸ hc)

theorem strip_render_link {l : Link} (h : l.Legible) : strip l.render.toList = l.render.toList := by
  have hs : l.source.toList ≠ [] := fun he => h.source_ne (Text.toList_inj.1 he)
  have ht : l.target.toList ≠ [] := fun he => h.target_ne (Text.toList_inj.1 he)
  refine strip_eq_self (fun c hc => ?_) (fun c hc => ?_)
  · rw [toList_render_link, List.append_assoc, List.append_assoc, List.head?_append_of_ne_nil _ hs] at hc
    exact head?_of_legible h.source c hc
  · rw [toList_render_link, Link.rest, ← List.cons_append, ← List.append_assoc,
      List.getLast?_append_of_ne_nil _ ht] at hc
    exact getLast?_of_legible h.target c hc

theorem ofRow_render_link {l : Link} (h : l.Legible) : Reading.ofRow l.render.toList = l.reread := by
  have hs : l.source.toList ≠ [] := fun he => h.source_ne (Text.toList_inj.1 he)
  have hmem : ofChar '-' ∈ l.render.toList := by simp [toList_render_link, arrow]
  have hcomment : Line.isComment l.render.toList = Line.isComment l.source.toList := by
    rw [toList_render_link, List.append_assoc, List.append_assoc]
    exact isComment_append hs (by simp)
  have hkind : Line.kindOf l.render.toList = .connection := by
    have ho : occurs arrow l.render.toList = true := by
      rw [occurs_eq_true_iff, toList_render_link]
      exact ⟨_, _, rfl⟩
    unfold Line.kindOf
    rw [if_pos ho]
  rw [ofRow_of_stripped (strip_render_link h) (List.ne_nil_of_mem hmem)
    (isHeader_eq_false hmem outsideHeader_hyphen), hcomment, hkind, Text.ofList_toList]
  unfold Link.reread
  rw [← ofText_render_link h]
  rfl

theorem mem_render_link {l : Link} {c : CodePoint} (hc : c ∈ l.render.toList) :
    c ∈ l.source.toList ∨ c ∈ l.target.toList ∨ c ∈ l.label.toList ∨
      c ∈ [ofChar ' ', ofChar '-', ofChar '>', ofChar '|'] := by
  rw [toList_render_link, Link.rest, arrow] at hc
  split_ifs at hc <;> simp only [List.mem_append, List.mem_cons, List.not_mem_nil, or_false] at hc ⊢ <;>
    tauto

theorem isLineBreak_render_link {l : Link} (h : l.Legible) :
    ∀ c ∈ l.render.toList, isLineBreak c = false := by
  intro c hc
  have hfixed : ∀ d ∈ [ofChar ' ', ofChar '-', ofChar '>', ofChar '|'], isLineBreak d = false := by decide
  rcases mem_render_link hc with hc | hc | hc | hc
  · exact h.source.2 c hc
  · exact h.target.2 c hc
  · exact h.label.2 c hc
  · exact hfixed c hc

/-! ## The whole diagram -/

/-- A renderer whose header is one row that says nothing, and which indents with spaces. -/
structure Renderer.Silent (r : Renderer) : Prop where
  header_row : ∀ c ∈ r.header.toList, isLineBreak c = false
  header : Line.ofText r.header = []
  indent : ∀ c ∈ r.indent.toList, c = ' '

theorem toList_join_rows (rows : List Text) :
    (Text.join (rows.map (· ++ "\n"))).toList = (rows.map Text.toList).flatMap (· ++ [ofChar '\n']) := by
  simp [Text.toList_join, List.flatMap_map]

theorem ofRow_header {r : Renderer} (h : r.Silent) : Reading.ofRow r.header.toList = {} := by
  by_cases he : r.header.toList = []
  · rw [he]
    rfl
  · have hn : Line.ofRaw? 1 r.header.toList = none := by
      have ht := h.header
      unfold Line.ofText at ht
      rw [lines_row h.header_row he] at ht
      exact List.filterMap_eq_nil_iff.1 ht (_, 1) List.mem_cons_self
    rw [ofRaw?_number, Option.map_eq_none_iff] at hn
    unfold Reading.ofRow
    rw [hn]
    rfl

/-- What the rows of a diagram say that is made of some nodes and some links. -/
def rereading (ms : List Mention) (ls : List Link) : Reading :=
  Reading.concat (ms.map Mention.reread ++ ls.map Link.reread)

theorem mentions_rereading (ms : List Mention) (ls : List Link) : (rereading ms ls).mentions =
    (ms.flatMap fun m => m.reread.mentions) ++ ls.flatMap fun l => l.reread.mentions := by
  unfold rereading
  rw [Reading.concat_mentions, List.flatMap_append, List.flatMap_map, List.flatMap_map]

theorem links_rereading (ms : List Mention) (ls : List Link) : (rereading ms ls).links =
    (ms.flatMap fun m => m.reread.links) ++ ls.flatMap fun l => l.reread.links := by
  unfold rereading
  rw [Reading.concat_links, List.flatMap_append, List.flatMap_map, List.flatMap_map]

/-- The text of a diagram. -/
def Renderer.diagram (r : Renderer) (ms : List Mention) (ls : List Link) : Text :=
  r.join (ms.map Mention.render) (ls.map Link.render)

section Diagram

variable {r : Renderer} {ms : List Mention} {ls : List Link} (hr : r.Silent)
  (hm : ∀ m ∈ ms, m.id ≠ "" ∧ Legible m.id ∧ Legible m.label) (hl : ∀ l ∈ ls, l.Legible)

include hr hm hl

theorem lines_diagram : lines (r.diagram ms ls).toList =
    r.header.toList :: (ms.map Mention.render ++ ls.map Link.render).map fun x =>
      r.indent.toList ++ x.toList := by
  unfold Renderer.diagram Renderer.join
  rw [toList_join_rows, lines_rows]
  · simp [Function.comp_def]
  · intro row hrow c hc
    simp only [List.map_cons, List.map_map, List.mem_cons, List.mem_map, List.mem_append,
      Function.comp_apply] at hrow
    rcases hrow with rfl | ⟨x, hx, rfl⟩
    · exact hr.header_row c hc
    · rw [Text.toList_append, List.mem_append] at hc
      rcases hc with hc | hc
      · rw [hr.indent c hc]
        decide
      · rcases hx with ⟨m, hmem, rfl⟩ | ⟨l, hmem, rfl⟩
        · exact isLineBreak_render (hm m hmem).2.1 (hm m hmem).2.2 c hc
        · exact isLineBreak_render_link (hl l hmem) c hc

/-- A rendered diagram says what its nodes and links say when they are read again. -/
theorem reading_diagram :
    Reading.concat ((lines (r.diagram ms ls).toList).map Reading.ofRow) = rereading ms ls := by
  have hpad : ∀ c ∈ r.indent.toList, isBlank c = true := by
    intro c hc
    rw [hr.indent c hc]
    decide
  have hrows : (ms.map Mention.render ++ ls.map Link.render).map
      (fun x => Reading.ofRow (r.indent.toList ++ x.toList)) =
        ms.map Mention.reread ++ ls.map Link.reread := by
    rw [List.map_append, List.map_map, List.map_map]
    congr 1
    · refine List.map_congr_left fun m hmem => ?_
      show Reading.ofRow (r.indent.toList ++ m.render.toList) = m.reread
      rw [ofRow_append_left hpad, ofRow_render (hm m hmem).1 (hm m hmem).2.1.1]
    · refine List.map_congr_left fun l hmem => ?_
      show Reading.ofRow (r.indent.toList ++ l.render.toList) = l.reread
      rw [ofRow_append_left hpad, ofRow_render_link (hl l hmem)]
  rw [lines_diagram hr hm hl, List.map_cons, List.map_map, ofRow_header hr]
  unfold rereading
  rw [← hrows]
  simp [Reading.concat, Function.comp_def]

/-- The nodes that are read from a diagram. -/
theorem nodes_diagram : (Blueprint.ofLines (Line.ofText (r.diagram ms ls))).nodes =
    firstMentions (rereading ms ls).mentions := by
  rw [nodes_ofText, reading_diagram hr hm hl]

/-- The links that are read from a diagram. -/
theorem links_diagram : (Blueprint.ofLines (Line.ofText (r.diagram ms ls))).edges.map Edge.link =
    (rereading ms ls).links := by
  rw [links_ofText, reading_diagram hr hm hl]

end Diagram

end Flowchart
