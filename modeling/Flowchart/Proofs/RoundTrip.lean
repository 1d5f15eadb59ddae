import Flowchart.Proofs.Rendering

/-!
# Reading a rendered graph

A graph whose ids are `ReadableId`s and whose labels are `ReadableLabel`s is read back from its text, whatever
its size: every row says what it was made of, and the ends of the edges are known by then.
-/

namespace Flowchart

open CodePoint (ofChar)

open Text

/-- An id that is read as a whole at the start of a row. -/
structure LeadingId (id : Text) : Prop where
  plain : Fragment.Plain id.toList
  no_arrow : ¬ arrow <:+: id.toList
  not_comment : ¬ Line.commentMark <+: id.toList

/-- An id that is read as a whole at both ends of a row. -/
structure ReadableId (id : Text) : Prop extends LeadingId id where
  no_bar : ofChar '|' ∉ id.toList

/-- A label that is read as a whole between the brackets of its node. -/
structure ReadableLabel (shape : Shape) (label : Text) : Prop where
  ne : label ≠ ""
  legible : Legible label
  no_arrow : ¬ arrow <:+: label.toList
  earlier : ∀ s ∈ shape.earlier, ¬ s.Encloses label.toList

instance (id : Text) : Decidable (ReadableId id) :=
  decidable_of_iff (Fragment.Plain id.toList ∧ ¬ arrow <:+: id.toList ∧ ¬ Line.commentMark <+: id.toList ∧
    ofChar '|' ∉ id.toList)
    ⟨fun ⟨h₁, h₂, h₃, h₄⟩ => ⟨⟨h₁, h₂, h₃⟩, h₄⟩, fun ⟨⟨h₁, h₂, h₃⟩, h₄⟩ => ⟨h₁, h₂, h₃, h₄⟩⟩

instance (shape : Shape) (label : Text) : Decidable (ReadableLabel shape label) :=
  decidable_of_iff (label ≠ "" ∧ Legible label ∧ ¬ arrow <:+: label.toList ∧
    ∀ s ∈ shape.earlier, ¬ s.Encloses label.toList)
    ⟨fun ⟨h₁, h₂, h₃, h₄⟩ => ⟨h₁, h₂, h₃, h₄⟩, fun ⟨h₁, h₂, h₃, h₄⟩ => ⟨h₁, h₂, h₃, h₄⟩⟩

theorem LeadingId.ne {id : Text} (h : LeadingId id) : id ≠ "" :=
  fun he => h.plain.1 (by rw [he]; rfl)

theorem LeadingId.legible {id : Text} (h : LeadingId id) : Legible id :=
  ⟨h.plain.strip_eq, fun c hc => isLineBreak_of_not_isBlank
    (Fragment.isBlank_of_not_endsIdentifier (h.plain.2 c hc))⟩

theorem isComment_eq_false {s : List CodePoint} (h : ¬ Line.commentMark <+: s) : Line.isComment s = false := by
  unfold Line.isComment
  rwa [Bool.eq_false_iff, ne_eq, List.isPrefixOf_iff_prefix]

theorem LeadingId.isComment {id : Text} (h : LeadingId id) : Line.isComment id.toList = false :=
  isComment_eq_false h.not_comment

theorem LeadingId.mention {id : Text} (h : LeadingId id) :
    Fragment.mention id.toList = ⟨id, .state, id⟩ := by
  rw [Fragment.mention_plain h.plain, Text.ofList_toList]

/-- A readable declaration says the node that it was made of. -/
theorem reread_of_readable {m : Mention} (hid : LeadingId m.id) (hl : ReadableLabel m.shape m.label) :
    m.reread = ⟨[m], []⟩ := by
  have hkind : Line.kindOf m.render.toList = .declaration := by
    have ho : ¬ occurs arrow m.render.toList = true := by
      rw [occurs_eq_true_iff, arrow_infix_render_iff]
      exact not_or.2 ⟨hid.no_arrow, hl.no_arrow⟩
    unfold Line.kindOf
    rw [if_neg ho]
  have hm := Fragment.mention_render hid.plain hl.ne hl.legible.1 hl.earlier
  unfold Mention.reread
  rw [hid.isComment, hkind]
  simp [Reading.ofLine, hm, named, hid.ne]

theorem legible_of_readable {l : Link} (hs : ReadableId l.source) (ht : ReadableId l.target)
    (hl : Legible l.label) : l.Legible :=
  ⟨hs.ne, hs.legible, hs.no_arrow, ht.ne, ht.legible, ht.no_bar, hl⟩

/-- The two ends of a link as their ids alone mention them. -/
def Link.ends (l : Link) : List Mention := [⟨l.source, .state, l.source⟩, ⟨l.target, .state, l.target⟩]

/-- The line of an edge between readable ids says that edge, and no more about its ends than their ids. -/
theorem reread_link_of_readable {l : Link} (hs : LeadingId l.source) (ht : LeadingId l.target) :
    l.reread = ⟨l.ends, [l]⟩ := by
  unfold Link.reread
  rw [hs.isComment]
  simp [Link.connection, Connection.reading, Link.ends, hs.mention, ht.mention, named, hs.ne, ht.ne]

theorem rereading_of_readable {ms : List Mention} {ls : List Link}
    (hm : ∀ m ∈ ms, LeadingId m.id ∧ ReadableLabel m.shape m.label)
    (hl : ∀ l ∈ ls, LeadingId l.source ∧ LeadingId l.target) :
    (rereading ms ls).mentions = ms ++ ls.flatMap Link.ends ∧ (rereading ms ls).links = ls := by
  have hms : ∀ m ∈ ms, m.reread = ⟨[m], []⟩ := fun m h => reread_of_readable (hm m h).1 (hm m h).2
  have hls : ∀ l ∈ ls, l.reread = ⟨l.ends, [l]⟩ :=
    fun l h => reread_link_of_readable (hl l h).1 (hl l h).2
  rw [mentions_rereading, links_rereading]
  constructor
  · congr 1
    · rw [List.flatMap_congr fun m h => congrArg Reading.mentions (hms m h), List.flatMap_singleton']
    · exact List.flatMap_congr fun l h => congrArg Reading.mentions (hls l h)
  · rw [List.flatMap_eq_nil_iff.2 fun m h => congrArg Reading.links (hms m h), List.nil_append,
      List.flatMap_congr fun l h => congrArg Reading.links (hls l h), List.flatMap_singleton']

/-- If the ends of all links are among some different nodes, these are the first mentions. -/
theorem firstMentions_with_ends {ms : List Mention} {ls : List Link} (h : (ms.map Mention.id).Nodup)
    (hends : ∀ l ∈ ls, l.source ∈ ms.map Mention.id ∧ l.target ∈ ms.map Mention.id) :
    firstMentions (ms ++ ls.flatMap Link.ends) = ms.map fun m => (m.id, m) := by
  have hids : (ms.map fun m => (m.id, m)).map Prod.fst = ms.map Mention.id := by
    rw [List.map_map]
    rfl
  unfold firstMentions
  rw [mentionAll_append, ← firstMentions, firstMentions_of_nodup h]
  refine mentionAll_of_subset fun m hm => ?_
  obtain ⟨l, hl, hm⟩ := List.mem_flatMap.1 hm
  rw [Entries.ids, hids]
  simp only [Link.ends, List.mem_cons, List.not_mem_nil, or_false] at hm
  rcases hm with rfl | rfl
  · exact (hends l hl).1
  · exact (hends l hl).2

/-- A graph of records is always rendered. -/
theorem render_records (r : Renderer) (ns : List Node) (es : List Edge) :
    r.render (.all (ns.map .node)) (.all (es.map .edge)) =
      .ok (r.diagram (ns.map Node.mention) (es.map Edge.link)) := by
  have hn : (ns.map NodeSource.node).mapM NodeSource.render =
      .ok ((ns.map Node.mention).map Mention.render) := by
    rw [List.mapM_map, List.map_map]
    exact List.mapM_pure
  have he : (es.map EdgeSource.edge).mapM EdgeSource.render =
      .ok ((es.map Edge.link).map Link.render) := by
    rw [List.mapM_map, List.map_map]
    exact List.mapM_pure
  unfold Renderer.render Supply.sources
  simp only [pure_bind, hn, he]
  rfl

/-- Reading undoes rendering: the nodes come back in order with their shapes and labels, and the edges with
their ends and labels. -/
theorem blueprint_of_rendered (r : Renderer) (ns : List Node) (es : List Edge) (hr : r.Silent)
    (hids : (ns.map Node.id).Nodup)
    (hends : ∀ e ∈ es, e.source ∈ ns.map Node.id ∧ e.target ∈ ns.map Node.id)
    (hid : ∀ n ∈ ns, ReadableId n.id)
    (hlabel : ∀ n ∈ ns, ReadableLabel n.shape n.label)
    (hedge : ∀ e ∈ es, Legible e.label) :
    ∃ text, r.render (.all (ns.map .node)) (.all (es.map .edge)) = .ok text ∧
      (Blueprint.ofLines (Line.ofText text)).nodes = ns.map (fun n => (n.id, n.mention)) ∧
      (Blueprint.ofLines (Line.ofText text)).edges.map Edge.link = es.map Edge.link := by
  have hids' : (ns.map Node.mention).map Mention.id = ns.map Node.id := by
    rw [List.map_map]
    rfl
  have hm : ∀ m ∈ ns.map Node.mention, ReadableId m.id ∧ ReadableLabel m.shape m.label := by
    intro m h
    obtain ⟨n, hn, rfl⟩ := List.mem_map.1 h
    exact ⟨hid n hn, hlabel n hn⟩
  have hreadable : ∀ id ∈ ns.map Node.id, ReadableId id := by
    intro id h
    obtain ⟨n, hn, rfl⟩ := List.mem_map.1 h
    exact hid n hn
  have hl : ∀ l ∈ es.map Edge.link, ReadableId l.source ∧ ReadableId l.target := by
    intro l h
    obtain ⟨e, he, rfl⟩ := List.mem_map.1 h
    exact ⟨hreadable _ (hends e he).1, hreadable _ (hends e he).2⟩
  have hm' : ∀ m ∈ ns.map Node.mention, m.id ≠ "" ∧ Legible m.id ∧ Legible m.label :=
    fun m h => ⟨(hm m h).1.ne, (hm m h).1.legible, (hm m h).2.legible⟩
  have hl' : ∀ l ∈ es.map Edge.link, l.Legible := by
    intro l h
    obtain ⟨e, he, rfl⟩ := List.mem_map.1 h
    exact legible_of_readable (hl _ h).1 (hl _ h).2 (hedge e he)
  have hread := rereading_of_readable (fun m h => ⟨(hm m h).1.toLeadingId, (hm m h).2⟩)
    fun l h => ⟨(hl l h).1.toLeadingId, (hl l h).2.toLeadingId⟩
  refine ⟨_, render_records r ns es, ?_, ?_⟩
  · rw [nodes_diagram hr hm' hl', hread.1, firstMentions_with_ends (hids'.symm ▸ hids),
      List.map_map]
    · rfl
    · intro l h
      obtain ⟨e, he, rfl⟩ := List.mem_map.1 h
      rw [hids']
      exact hends e he
  · rw [links_diagram hr hm' hl', hread.2]

/-- Closers in an id, brackets and bars in labels, and an arrow in the label of an edge. -/
theorem blueprint_of_rendered_brackets :
    ∃ text, ({ header := "flowchart LR", indent := "    " } : Renderer).render
        (.all ([({ id := "a))", shape := .action, label := "f((x)" } : Node),
          { id := "b--", shape := .choice, label := "|]y[|" }].map .node))
        (.all ([({ id := "", source := "a))", target := "b--", label := "x|y --> z" } : Edge),
          { id := "", source := "b--", target := "b--" }].map .edge)) = .ok text ∧
      (Blueprint.ofLines (Line.ofText text)).nodes =
        ([("a))", ⟨"a))", .action, "f((x)"⟩), ("b--", ⟨"b--", .choice, "|]y[|"⟩)] : List (Text × Mention)) ∧
      (Blueprint.ofLines (Line.ofText text)).edges.map Edge.link =
        [⟨"a))", "b--", "x|y --> z"⟩, ⟨"b--", "b--", ""⟩] :=
  blueprint_of_rendered _ _ _ ⟨by decide, by decide +kernel, by decide⟩ (by decide) (by decide)
    (by simp only [List.forall_mem_cons]; decide +kernel)
    (by simp only [List.forall_mem_cons]; decide +kernel)
    (by decide +kernel)

end Flowchart
