import Flowchart.Proofs.Parsing

/-!
# Texts one behind the other

Lines that are added behind a text leave alone what it says. The significant lines of two texts with a line break
between them are those of the first and then those of the second (`Line.contents_append`), whatever the first one
ends with. A builder that goes on only adds: what it has built stays, in its place, at the front of what it builds
(`Builder.Extends`). So the graph of a text is the beginning of the graph of every longer text
(`Blueprint.begins_ofText_append`).
-/

namespace Flowchart

open CodePoint (ofChar)

namespace Text

/-! ## Rows -/

/-- The rows of a text with unified breaks, without the empty ones. -/
def nonemptyRows (s : List CodePoint) : List (List CodePoint) := (splitAtBreaks s).filter fun row => ! row.isEmpty

/-- Between the breaks of a text stand its rows and, behind a last break, nothing. -/
theorem splitOnP_eq (s : List CodePoint) :
    s.splitOnP isLineBreak = splitAtBreaks s ∨ s.splitOnP isLineBreak = splitAtBreaks s ++ [[]] := by
  induction s with
  | nil => exact Or.inr rfl
  | cons c s ih =>
    rw [List.splitOnP_cons_eq_if_modifyHead, splitAtBreaks]
    by_cases hc : isLineBreak c = true
    · rw [if_pos hc, if_pos hc]
      rcases ih with ih | ih
      · exact Or.inl (by rw [ih])
      · exact Or.inr (by rw [ih, List.cons_append])
    · rw [if_neg hc, if_neg hc]
      rcases ih with ih | ih
      · left
        obtain ⟨row, rows, hrows⟩ := List.exists_cons_of_ne_nil (List.splitOnP_ne_nil isLineBreak s)
        rw [← ih, hrows]
        rfl
      · rw [ih]
        cases splitAtBreaks s with
        | nil => exact Or.inl rfl
        | cons row rows => exact Or.inr rfl

theorem nonemptyRows_eq (s : List CodePoint) :
    nonemptyRows s = (s.splitOnP isLineBreak).filter fun row => ! row.isEmpty := by
  unfold nonemptyRows
  rcases splitOnP_eq s with h | h
  · rw [h]
  · rw [h, List.filter_append]
    exact (List.append_nil _).symm

/-- Breaks separate rows: only an empty row can come in between. -/
theorem nonemptyRows_append (a b : List CodePoint) :
    nonemptyRows (a ++ ofChar '\n' :: b) = nonemptyRows a ++ nonemptyRows b := by
  rw [nonemptyRows_eq, nonemptyRows_eq, nonemptyRows_eq, List.splitOnP_append_cons a b (by decide),
    List.filter_append]

theorem nonemptyRows_concat (a : List CodePoint) : nonemptyRows (a ++ [ofChar '\n']) = nonemptyRows a := by
  rw [nonemptyRows_append]
  exact List.append_nil _

/-- A line feed behind a row is a break of its own, or one break together with the carriage return that the row ends
with. -/
theorem unifyBreaks_append {α : Type} [DecidableEq α] {carriageReturn lineFeed : α} (hne : lineFeed ≠ carriageReturn)
    (a b : List α) : ∃ u,
      unifyBreaks carriageReturn lineFeed (a ++ lineFeed :: b) =
        u ++ lineFeed :: unifyBreaks carriageReturn lineFeed b ∧
      (unifyBreaks carriageReturn lineFeed a = u ∨ unifyBreaks carriageReturn lineFeed a = u ++ [lineFeed]) := by
  have hfeed : unifyBreaks carriageReturn lineFeed (lineFeed :: b) =
      lineFeed :: unifyBreaks carriageReturn lineFeed b := unifyBreaks_cons hne b
  induction a with
  | nil => exact ⟨[], hfeed, Or.inl rfl⟩
  | cons c a ih =>
    cases a with
    | nil =>
      by_cases hc : c = carriageReturn
      · subst hc
        refine ⟨[], ?_, Or.inr ?_⟩
        · rw [List.singleton_append, unifyBreaks, if_pos ⟨rfl, rfl⟩, hfeed, List.nil_append]
        · simp [unifyBreaks]
      · refine ⟨[c], ?_, Or.inl (unifyBreaks_cons hc [])⟩
        rw [List.singleton_append, unifyBreaks_cons hc, hfeed, List.singleton_append]
    | cons d a =>
      obtain ⟨u, hu, ha⟩ := ih
      -- what stands for the first element depends on the next one only
      obtain ⟨front, hfront⟩ : ∃ front, ∀ s, unifyBreaks carriageReturn lineFeed (c :: d :: s) =
          front ++ unifyBreaks carriageReturn lineFeed (d :: s) := by
        by_cases hc : c = carriageReturn ∧ d = lineFeed
        · exact ⟨[], fun s => if_pos ⟨hc.1, congrArg some hc.2⟩⟩
        · exact ⟨[_], fun s => if_neg fun h => hc ⟨h.1, Option.some.inj h.2⟩⟩
      refine ⟨front ++ u, ?_, ?_⟩
      · rw [List.cons_append, List.cons_append, hfront, ← List.cons_append, hu, List.append_assoc]
      · rw [hfront]
        rcases ha with ha | ha
        · exact Or.inl (by rw [ha])
        · exact Or.inr (by rw [ha, List.append_assoc])

/-- The lines of two texts with a line feed between them are those of both, up to empty lines. -/
theorem lines_append (a b : List CodePoint) : (lines (a ++ ofChar '\n' :: b)).filter (fun row => ! row.isEmpty) =
    (lines a ++ lines b).filter fun row => ! row.isEmpty := by
  have hne : ofChar '\n' ≠ ofChar '\r' := by decide
  obtain ⟨u, hu, ha⟩ := unifyBreaks_append hne a b
  have hrows : nonemptyRows (unifyBreaks (ofChar '\r') (ofChar '\n') a) = nonemptyRows u := by
    rcases ha with ha | ha
    · rw [ha]
    · rw [ha, nonemptyRows_concat]
  rw [List.filter_append]
  unfold nonemptyRows at hrows
  unfold lines
  rw [hu, hrows]
  exact nonemptyRows_append u _

end Text

/-! ## Significant lines -/

namespace Line

/-- What a line does, and what stands in it. -/
def content (l : Line) : Kind × Text := (l.kind, l.text)

/-- What the significant lines of a text do and say, in order. -/
def contents (t : Text) : List (Kind × Text) := (ofText t).map content

/-- The content of a row, if it is significant. -/
def contentOfRow? (row : List CodePoint) : Option (Kind × Text) := (ofRaw? 0 row).map content

theorem contents_eq (t : Text) : contents t = (Text.lines t.toList).filterMap contentOfRow? := by
  unfold contents ofText
  generalize Text.lines t.toList = rows
  generalize 1 = n
  induction rows generalizing n with
  | nil => rfl
  | cons row rows ih =>
    rw [List.zipIdx_cons, List.filterMap_cons, List.filterMap_cons, ← ih (n + 1)]
    dsimp only
    rw [ofRaw?_number]
    unfold contentOfRow?
    cases ofRaw? 0 row <;> rfl

theorem contentOfRow?_nil : contentOfRow? [] = none := rfl

/-- Empty rows are not significant. -/
theorem filterMap_nonempty (rows : List (List CodePoint)) :
    (rows.filter fun row => ! row.isEmpty).filterMap contentOfRow? = rows.filterMap contentOfRow? := by
  induction rows with
  | nil => rfl
  | cons row rows ih =>
    cases row with
    | nil => rw [List.filter_cons_of_neg (by simp), ih, List.filterMap_cons, contentOfRow?_nil]
    | cons c row => rw [List.filter_cons_of_pos (by simp), List.filterMap_cons, List.filterMap_cons, ih]

/-- The significant lines of two texts with a line break between them are those of the first and then those of the
second. -/
theorem contents_append (t₁ t₂ : Text) : contents (t₁ ++ "\n" ++ t₂) = contents t₁ ++ contents t₂ := by
  have hlist : (t₁ ++ "\n" ++ t₂).toList = t₁.toList ++ ofChar '\n' :: t₂.toList := by simp
  rw [contents_eq, contents_eq, contents_eq, hlist, ← filterMap_nonempty, Text.lines_append, filterMap_nonempty,
    List.filterMap_append]

end Line

/-! ## Builders -/

namespace Builder

/-- A builder has all that another one has, in front of what it has besides. -/
structure Extends (b' b : Builder) : Prop where
  nodes : b.nodes <+: b'.nodes
  edges : b.edges <+: b'.edges
  targets : ∀ id, (b.successors.get? id).getD [] <+: (b'.successors.get? id).getD []

namespace Extends

variable {b b' b'' : Builder}

theorem refl (b : Builder) : b.Extends b := ⟨List.prefix_rfl, List.prefix_rfl, fun _ => List.prefix_rfl⟩

theorem trans (h' : b''.Extends b') (h : b'.Extends b) : b''.Extends b :=
  ⟨h.nodes.trans h'.nodes, h.edges.trans h'.edges, fun id => (h.targets id).trans (h'.targets id)⟩

theorem enter (b : Builder) (m : Mention) : (b.enter m).Extends b where
  nodes := by
    show b.nodes <+: b.nodes.add m.id m
    unfold Entries.add
    split_ifs
    · exact List.prefix_rfl
    · exact List.prefix_append _ _
  edges := List.prefix_rfl
  targets := fun _ => List.prefix_rfl

theorem enterNamed (b : Builder) (m : Mention) : (b.enterNamed m).Extends b := by
  unfold Builder.enterNamed
  split_ifs
  · exact refl b
  · exact enter b m

theorem connect (b : Builder) (c : Connection) : (b.connect c).Extends b where
  nodes := ((enter _ c.target).trans (enter b c.source)).nodes
  edges := List.prefix_append _ _
  targets := by
    intro id
    show _ <+: ((b.successors.set c.source.id _).get? id).getD []
    rw [Entries.get?_set]
    split_ifs with hid
    · subst hid
      exact List.prefix_append _ _
    · exact List.prefix_rfl

theorem readLine (b : Builder) (kind : Line.Kind) (text : Text) : (b.readLine kind text).Extends b := by
  unfold Builder.readLine
  cases kind with
  | declaration => exact enterNamed b _
  | connection =>
    dsimp only
    split_ifs
    · exact (enterNamed _ _).trans (enterNamed b _)
    · exact connect b _

/-- One operation only adds. -/
theorem step (b : Builder) (op : Op) : (b.step op).Extends b := by
  cases op with
  | enter m => exact enter b m
  | connect c => exact connect b c
  | readLine kind text => exact readLine b kind text

/-- Every run only adds. -/
theorem run (b : Builder) (ops : List Op) : (b.run ops).Extends b := by
  induction ops generalizing b with
  | nil => exact refl b
  | cons op ops ih => exact (ih (b.step op)).trans (step b op)

/-- The successors of a node are the first of its successors later on. -/
theorem get?_blueprint (h : b'.Extends b) {id : Text} (hid : id ∈ b.nodes.ids) :
    ∃ ts ts', b.blueprint.successors.get? id = some ts ∧ b'.blueprint.successors.get? id = some ts' ∧ ts <+: ts' := by
  have hid' : id ∈ b'.nodes.ids := (h.nodes.map Prod.fst).subset hid
  refine ⟨_, _, ?_, ?_, h.targets id⟩
  · exact get?_map_ids _ _ hid
  · exact get?_map_ids _ _ hid'

end Extends

/-- A builder looks at nothing but the contents of lines. -/
theorem readLines_eq (b : Builder) (ls : List Line) :
    b.readLines ls = b.run ((ls.map Line.content).map fun c => .readLine c.1 c.2) := by
  rw [readLines_eq_run, List.map_map]
  rfl

/-- The builder that has read a text. -/
def ofText (t : Text) : Builder := ({} : Builder).run ((Line.contents t).map fun c => .readLine c.1 c.2)

theorem blueprint_ofText (t : Text) : (ofText t).blueprint = Blueprint.ofText t :=
  congrArg blueprint (readLines_eq {} (Line.ofText t)).symm

theorem extends_ofText_append (t₁ t₂ : Text) : (ofText (t₁ ++ "\n" ++ t₂)).Extends (ofText t₁) := by
  unfold ofText Builder.run
  rw [Line.contents_append, List.map_append, List.foldl_append]
  exact Extends.run _ _

end Builder

/-! ## Graphs -/

namespace Blueprint

/-- One graph is the beginning of another: its nodes, in the order of the other one, its edges, and for each of the
nodes its successors. -/
structure Begins (b₁ b : Blueprint) : Prop where
  order : b₁.order <+: b.order
  nodes : b₁.nodes <+: b.nodes
  edges : b₁.edges <+: b.edges
  successors : ∀ id ∈ b₁.order, ∃ ts ts', b₁.successors.get? id = some ts ∧ b.successors.get? id = some ts' ∧ ts <+: ts'

/-- A text with another one behind it, on lines of its own: its significant lines are those of the two texts one after
the other, and its graph begins with the graph of the first one. -/
theorem begins_ofText_append (t₁ t₂ : Text) :
    Line.contents (t₁ ++ "\n" ++ t₂) = Line.contents t₁ ++ Line.contents t₂ ∧
      (ofText t₁).Begins (ofText (t₁ ++ "\n" ++ t₂)) := by
  refine ⟨Line.contents_append t₁ t₂, ?_⟩
  have h := Builder.extends_ofText_append t₁ t₂
  rw [← Builder.blueprint_ofText, ← Builder.blueprint_ofText]
  exact {
    order := h.nodes.map Prod.fst
    nodes := h.nodes
    edges := h.edges
    successors := fun _ => h.get?_blueprint }

end Blueprint

end Flowchart
