import Flowchart.Proofs.Parsing

/-!
# Reading declarations back

A node that a fragment mentions by an id at its start comes back from its declaration, whatever brackets stand in the
fragment (`mention_of_declaration`): the id holds no opener, and brackets that are looked for before those of the node
enclose nothing in the label, or they would have been found in the fragment.

Of a node that was not read from a fragment, the shape comes back from the declaration exactly if the label does, and
both do exactly if earlier brackets enclose nothing in the label (`shape_and_label_of_declaration`). So a label may hold
any brackets if the node is a state, but not all if it is not (`not_shape_or_label_of_declaration`).
-/

namespace Flowchart

open Text

theorem Shape.earlier_trichotomy (s t : Shape) : s ∈ t.earlier ∨ s = t ∨ t ∈ s.earlier := by
  cases s <;> cases t <;> decide

theorem Shape.ne_of_mem_earlier {s t : Shape} (h : s ∈ t.earlier) : s ≠ t := by
  revert h
  cases s <;> cases t <;> decide

namespace Fragment

/-! ## Nodes that are read from fragments -/

theorem toList_id_mention {f : List CodePoint} (h : identifier f ≠ []) : (mention f).id.toList = identifier f := by
  unfold mention
  cases bracketed? f <;> simp only [orElse_of_ne_nil _ h]

theorem plain_id_mention {f : List CodePoint} (h : identifier f ≠ []) : Plain (mention f).id.toList := by
  rw [toList_id_mention h]
  exact ⟨h, fun c hc => endsIdentifier_of_mem_identifier hc⟩

/-- The declaration of a node with a label. -/
theorem render_ofMention {m : Mention} (h : m.label ≠ "") (x y : Float) :
    (NodeSource.node (Node.ofMention m x y)).render = .ok m.render := by
  show Except.ok (Node.ofMention m x y).mention.render = _
  rw [mention_ofMention h]

/-- A node that a fragment mentions by an id at its start is read back from its declaration. -/
theorem mention_of_declaration (f : List CodePoint) (h : identifier f ≠ []) (x y : Float) :
    ∃ text, (NodeSource.node (Node.ofMention (mention f) x y)).render = .ok text ∧
      mention text.toList = mention f := by
  have hid := plain_id_mention h
  have hlabel : (mention f).label ≠ "" :=
    mention_label_ne_empty fun he => hid.1 (by rw [he]; rfl)
  exact ⟨_, render_ofMention hlabel x y, mention_render hid hlabel (strip_mention f).2 (earlier_label f)⟩

/-- Closing brackets in the id, and brackets of two kinds in the label. -/
theorem mention_of_declaration_brackets :
    let f := " a))b [ (x)] \x7by\x7d ] \x7d".toList
    identifier f ≠ [] ∧
    ∃ text, (NodeSource.node (Node.ofMention (mention f) 0.0 0.0)).render = .ok text ∧
      mention text.toList = mention f := by
  intro f
  have h : identifier f ≠ [] := by decide
  exact ⟨h, mention_of_declaration f h 0.0 0.0⟩

/-! ## Nodes with any label -/

theorem length_lt_of_enclosed? {s : Shape} {f l : List CodePoint} (h : enclosed? s f = some l) :
    l.length < f.length := by
  obtain ⟨a, b, c, rfl, rfl⟩ := eq_append_of_enclosed? h
  have hb := (strip_isInfix b).length_le
  have ho := List.length_pos_iff.2 s.opener_ne_nil
  simp only [List.length_append]
  omega

/-- Where brackets enclose something, an opener stands, so the text is no id. -/
theorem ne_identifier_of_enclosed? {s : Shape} {f g l : List CodePoint} (h : enclosed? s g = some l) :
    identifier f ≠ g := by
  obtain ⟨a, b, c, rfl, -⟩ := eq_append_of_enclosed? h
  obtain ⟨d, op, hop⟩ := List.exists_cons_of_ne_nil s.opener_ne_nil
  intro hg
  have hd : endsIdentifier d = true := Shape.endsIdentifier_opener d (hop ▸ List.mem_cons_self)
  have hf : endsIdentifier d = false := endsIdentifier_of_mem_identifier (f := f) (by rw [hg]; simp [hop])
  rw [hd] at hf
  cases hf

/-- If earlier brackets enclose a part of the label, some of those are found in the declaration. -/
theorem bracketed?_render_of_encloses {m : Mention} (hid : ∀ c ∈ m.id.toList, endsIdentifier c = false)
    {t : Shape} (ht : t ∈ m.shape.earlier) (he : t.Encloses m.label.toList) :
    ∃ s l, bracketed? m.render.toList = some (s, l) ∧ s ∈ m.shape.earlier ∧
      enclosed? s m.label.toList = some l := by
  have hlabel : m.label.toList <:+: m.render.toList :=
    ⟨m.id.toList ++ m.shape.opener, m.shape.closer, (toList_render m).symm⟩
  have hown : m.shape.Encloses m.render.toList := ⟨m.id.toList, m.label.toList, [], by rw [toList_render]; simp⟩
  obtain ⟨⟨s, l⟩, hb⟩ : ∃ p, bracketed? m.render.toList = some p :=
    Option.ne_none_iff_exists'.1 fun hn => bracketed?_eq_none_iff.1 hn m.shape hown
  obtain ⟨hl, hearlier⟩ := bracketed?_eq_some_iff.1 hb
  rcases Shape.earlier_trichotomy s m.shape with hs | rfl | hs
  · exact ⟨s, l, hb, hs, enclosed?_render hid hs ▸ hl⟩
  · exact absurd (he.mono hlabel) (hearlier t ht)
  · exact absurd hown (hearlier m.shape hs)

/-- What brackets enclose in a label is shorter than the label, and an id in its place has no brackets. -/
theorem orElse_ne_of_enclosed? {s : Shape} {f g l : List CodePoint} (h : enclosed? s g = some l) :
    orElse l (identifier f) ≠ g := by
  cases l with
  | nil => exact ne_identifier_of_enclosed? h
  | cons c l =>
    intro hg
    exact absurd (congrArg List.length hg) (length_lt_of_enclosed? h).ne

/-- From the declaration of a node with a stripped label and without blanks and opening brackets in its id, the shape is
read back exactly if no earlier brackets enclose a part of the label, and so is the label. -/
theorem shape_and_label_of_declaration (id label : Text) (shape : Shape) (x y : Float)
    (hid : ∀ c ∈ id.toList, endsIdentifier c = false) (hne : label ≠ "")
    (hl : strip label.toList = label.toList) :
    ∃ text, (NodeSource.node (Node.ofMention ⟨id, shape, label⟩ x y)).render = .ok text ∧
      (Fragment.shape text.toList = shape ↔ ∀ s ∈ shape.earlier, ¬ s.Encloses label.toList) ∧
      (Text.ofList (Fragment.label text.toList) = label ↔
        ∀ s ∈ shape.earlier, ¬ s.Encloses label.toList) := by
  refine ⟨_, render_ofMention (m := ⟨id, shape, label⟩) hne x y, ?_⟩
  by_cases hearlier : ∀ s ∈ shape.earlier, ¬ s.Encloses label.toList
  · have hb := bracketed?_render (m := ⟨id, shape, label⟩) hid hl hearlier
    have hne' : label.toList ≠ [] := fun h => hne (Text.toList_inj.1 h)
    rw [shape_of_bracketed? hb, label_of_bracketed? hb, orElse_of_ne_nil _ hne']
    exact ⟨iff_of_true rfl hearlier, iff_of_true rfl hearlier⟩
  · obtain ⟨t, ht, he⟩ : ∃ t ∈ shape.earlier, t.Encloses label.toList := by
      simpa using hearlier
    obtain ⟨s, l, hb, hs, hl'⟩ := bracketed?_render_of_encloses (m := ⟨id, shape, label⟩) hid ht he
    rw [shape_of_bracketed? hb, label_of_bracketed? hb]
    refine ⟨iff_of_false (Shape.ne_of_mem_earlier hs) hearlier, iff_of_false (fun h => ?_) hearlier⟩
    exact orElse_ne_of_enclosed? hl' (by rw [← h, Text.toList_ofList])

/-- Brackets in a label that enclose nothing, since the closers come before the openers. -/
theorem shape_and_label_of_declaration_unpaired :
    (∀ c ∈ Text.toList "Q]))", endsIdentifier c = false) ∧ ("(ok)) ] ((?" : Text) ≠ "" ∧
    strip (Text.toList "(ok)) ] ((?") = Text.toList "(ok)) ] ((?" ∧
    ∃ text, (NodeSource.node (Node.ofMention ⟨"Q]))", .choice, "(ok)) ] ((?"⟩ 0.0 0.0)).render = .ok text ∧
      Fragment.shape text.toList = .choice ∧ Text.ofList (Fragment.label text.toList) = "(ok)) ] ((?" := by
  have hid : ∀ c ∈ Text.toList "Q]))", endsIdentifier c = false := by decide
  have hl : strip (Text.toList "(ok)) ] ((?") = Text.toList "(ok)) ] ((?" := by decide
  have hearlier : ∀ s ∈ Shape.earlier .choice, ¬ s.Encloses (Text.toList "(ok)) ] ((?") := by decide +kernel
  obtain ⟨text, htext, hshape, hlabel⟩ :=
    shape_and_label_of_declaration "Q]))" "(ok)) ] ((?" .choice 0.0 0.0 hid (by decide) hl
  exact ⟨hid, by decide, hl, text, htext, hshape.2 hearlier, hlabel.2 hearlier⟩

/-- An action whose label stands in the brackets of a state: it is read as a state, without the brackets. -/
theorem not_shape_or_label_of_declaration :
    (∀ c ∈ Text.toList "A", endsIdentifier c = false) ∧ ("((x))" : Text) ≠ "" ∧
    (∀ c ∈ Text.toList "((x))", isLineBreak c = false) ∧ strip (Text.toList "((x))") = Text.toList "((x))" ∧
    ∃ text, (NodeSource.node (Node.ofMention ⟨"A", .action, "((x))"⟩ 0.0 0.0)).render = .ok text ∧
      Fragment.shape text.toList ≠ .action ∧ Text.ofList (Fragment.label text.toList) ≠ "((x))" :=
  ⟨by decide, by decide, by decide, by decide, "A[((x))]", rfl, by decide +kernel, by decide +kernel⟩

end Fragment

end Flowchart
