import Flowchart.Proofs.Parsing
import Flowchart.Proofs.RoundTrip

/-!
# Parsing the text of a parsed graph

A parsed graph may come back changed from its own text, because ids and labels can be read from places
where they are not read again: the id of `[a b]` is `a b`, and its declaration `a b[a b]` mentions `a`.

The graph comes back with the same structure exactly if its rows, read one by one, say the graph again
(`Graph.ReadsBack`). For ids without blanks and brackets that start neither like a comment nor with an arrow
this means that no arrow stands in an id or a label.
-/

namespace Flowchart

open CodePoint (ofChar)

open Text

/-- Two graphs have the same nodes, apart from their positions, and the same edges, apart from their ids. -/
def Graph.SameStructure (g g' : Graph) : Prop := g'.mentions = g.mentions ∧ g'.links = g.links

/-- The rows of a graph say the graph again. -/
def Graph.ReadsBack (g : Graph) : Prop :=
  firstMentions (rereading (g.nodes.map Node.mention) g.links).mentions = g.mentions ∧
    (rereading (g.nodes.map Node.mention) g.links).links = g.links

instance (g : Graph) : Decidable g.ReadsBack :=
  inferInstanceAs (Decidable (firstMentions (rereading (g.nodes.map Node.mention) g.links).mentions =
    g.mentions ∧ (rereading (g.nodes.map Node.mention) g.links).links = g.links))

/-! ## Rows with an arrow -/

/-- A character that is not in the pattern is still the last one behind it. -/
theorem getLast?_of_append {a pat b : List CodePoint} {c : CodePoint} (hc : c ∉ pat) (hne : pat ≠ [])
    (h : (a ++ pat ++ b).getLast? = some c) : b.getLast? = some c := by
  by_cases hb : b = []
  · rw [hb, List.append_nil, List.getLast?_append_of_ne_nil _ hne] at h
    exact absurd (List.mem_of_mem_getLast? h) hc
  · rwa [List.getLast?_append_of_ne_nil _ hb] at h

/-- The last character of a line is the last one of the target, unless it belongs to an arrow or a bar. -/
theorem getLast?_target {s : List CodePoint} {c : CodePoint} (hc : c ∉ ofChar '|' :: arrow) (ha : arrow <:+: s)
    (h : s.getLast? = some c) :
    (Connection.labelAndTarget (Connection.sides s).2).2.getLast? = some c := by
  have hbar : c ∉ [ofChar '|'] := fun hm => hc (by simp_all)
  have hside : (Connection.sides s).2.getLast? = some c := by
    rw [(Connection.sides_spec ha).1] at h
    exact getLast?_of_append (List.not_mem_of_not_mem_cons hc) (by decide) h
  rw [← Connection.Rest.text_ofText (Connection.sides s).2] at hside
  rw [Connection.labelAndTarget_eq]
  cases hr : Connection.Rest.ofText (Connection.sides s).2 with
  | plain target => rwa [hr] at hside
  | barred before target =>
    rw [hr, Connection.Rest.text, List.append_cons] at hside
    exact getLast?_of_append hbar (by simp) hside
  | labelled before label target =>
    rw [hr, Connection.Rest.text, List.append_cons] at hside
    exact getLast?_of_append hbar (by simp) hside

/-- A fragment with a character that is no blank mentions a node. -/
theorem mention_id_ne_empty {f : List CodePoint} {c : CodePoint} (hc : c ∈ f) (hb : isBlank c = false) :
    (Fragment.mention f).id ≠ "" := by
  intro h
  rw [Fragment.mention_id_eq_empty_iff, strip_eq_nil_iff] at h
  rw [h c hc] at hb
  cases hb

theorem opener_not_mem_arrow {s : Shape} : ∀ c ∈ s.opener, c ∉ arrow := by cases s <;> decide

theorem closer_getLast (s : Shape) :
    ∃ c, s.closer.getLast? = some c ∧ c ∉ ofChar '|' :: arrow ∧ isBlank c = false := by
  cases s
  · exact ⟨')', by decide⟩
  · exact ⟨']', by decide⟩
  · exact ⟨'\x7d', by decide⟩

/-- An id that does not start with an arrow leaves something before the first arrow of its declaration. -/
theorem source_render_ne {m : Mention} (hid : m.id ≠ "") (hl : Legible m.id)
    (hp : ¬ arrow <+: m.id.toList) (ha : arrow <:+: m.render.toList) :
    (Fragment.mention (Connection.sides m.render.toList).1).id ≠ "" := by
  obtain ⟨d, id, hd⟩ := List.exists_cons_of_ne_nil fun h => hid (Text.toList_inj.1 h)
  have hrow := (Connection.sides_spec ha).1
  cases hs : (Connection.sides m.render.toList).1 with
  | nil =>
    rw [hs, List.nil_append] at hrow
    have hpre : arrow <+: m.render.toList := ⟨_, hrow.symm⟩
    obtain ⟨o, op, hop⟩ := List.exists_cons_of_ne_nil m.shape.opener_ne_nil
    rw [Fragment.toList_render, hop, List.append_assoc, List.append_assoc, List.cons_append] at hpre
    have ho : o ∉ arrow := opener_not_mem_arrow o (hop ▸ List.mem_cons_self)
    exact absurd (prefix_of_prefix_append_cons ho hpre) hp
  | cons e rest =>
    rw [hs, Fragment.toList_render, hd] at hrow
    have he : d = e := by simpa using congrArg List.head? hrow
    apply mention_id_ne_empty List.mem_cons_self
    rw [← he]
    exact head?_of_legible hl d (by rw [hd]; rfl)

/-- The closer of a declaration stands behind its last arrow. -/
theorem target_render_ne {m : Mention} (ha : arrow <:+: m.render.toList) :
    (Fragment.mention (Connection.labelAndTarget (Connection.sides m.render.toList).2).2).id ≠ "" := by
  obtain ⟨c, hc, hout, hb⟩ := closer_getLast m.shape
  have hrow : m.render.toList.getLast? = some c := by
    rw [Fragment.toList_render, List.getLast?_append_of_ne_nil _ m.shape.closer_ne_nil]
    exact hc
  exact mention_id_ne_empty (List.mem_of_mem_getLast? (getLast?_target hout ha hrow)) hb

theorem links_reading {c : Connection} (hs : c.source.id ≠ "") (ht : c.target.id ≠ "") :
    c.reading.links = [⟨c.source.id, c.target.id, c.label⟩] := if_neg (not_or.2 ⟨hs, ht⟩)

/-- A declaration with an arrow is read as an edge. -/
theorem links_reread_ne_nil {m : Mention} (hid : m.id ≠ "") (hl : Legible m.id)
    (hc : Line.isComment m.id.toList = false) (hp : ¬ arrow <+: m.id.toList)
    (ha : arrow <:+: m.id.toList ∨ arrow <:+: m.label.toList) : m.reread.links ≠ [] := by
  have ha := arrow_infix_render_iff.2 ha
  have hkind : Line.kindOf m.render.toList = .connection := if_pos (occurs_eq_true_iff.2 ha)
  unfold Mention.reread
  rw [hc, hkind]
  show (Connection.ofText m.render).reading.links ≠ []
  rw [links_reading (source_render_ne hid hl hp ha) (target_render_ne ha)]
  exact List.cons_ne_nil _ _

/-- The line of an edge is read as one edge unless it is read as a comment. -/
theorem length_links_reread {l : Link} (h : l.Legible) (hc : Line.isComment l.source.toList = false) :
    l.reread.links.length = 1 := by
  have hne {s : Text} (hs : s ≠ "") (hl : Legible s) : (Fragment.mention s.toList).id ≠ "" := by
    rw [ne_eq, Fragment.mention_id_eq_empty_iff, hl.1]
    exact fun h => hs (Text.toList_inj.1 h)
  unfold Link.reread
  rw [hc]
  show l.connection.reading.links.length = 1
  rw [links_reading (hne h.source_ne h.source) (hne h.target_ne h.target)]
  rfl

/-! ## The exact condition -/

theorem silent_default : ({} : Renderer).Silent := ⟨by decide, by decide +kernel, by decide⟩

section Parsed

variable {s : Session} {t : Text} {d : Bool} {g : Graph} (h : (s.parse t d).1 = .ok g)

include h

/-- The graph of the text of a parsed graph is what the rows of the parsed graph say. -/
theorem ofText_diagram :
    (Blueprint.ofText (({} : Renderer).diagram (g.nodes.map Node.mention) g.links)).nodes =
        firstMentions (rereading (g.nodes.map Node.mention) g.links).mentions ∧
      (Blueprint.ofText (({} : Renderer).diagram (g.nodes.map Node.mention) g.links)).edges.map Edge.link =
        (rereading (g.nodes.map Node.mention) g.links).links := by
  have hm : ∀ m ∈ g.nodes.map Node.mention, m.id ≠ "" ∧ Legible m.id ∧ Legible m.label := by
    intro m hm
    obtain ⟨n, hn, rfl⟩ := List.mem_map.1 hm
    have hl := mention_legible_of_parse h hn
    exact ⟨hl.id_ne, hl.id, hl.label⟩
  have hl : ∀ l ∈ g.links, l.Legible := fun l hl => link_legible_of_parse h hl
  exact ⟨nodes_diagram silent_default hm hl, links_diagram silent_default hm hl⟩

/-- Every edge of the graph has a row of its own, so no row of a node is read as one. -/
theorem no_arrow_of_readsBack
    (hid : ∀ n ∈ g.nodes, ¬ Line.commentMark <+: n.id.toList ∧ ¬ arrow <+: n.id.toList) (hg : g.ReadsBack) :
    ∀ n ∈ g.nodes, ¬ arrow <:+: n.id.toList ∧ ¬ arrow <:+: n.label.toList := by
  have hcomment : ∀ id ∈ g.nodeIds, Line.isComment id.toList = false := by
    intro id hmem
    obtain ⟨n, hn, rfl⟩ := List.mem_map.1 hmem
    exact isComment_eq_false (hid n hn).1
  have hlen : (g.links.flatMap fun l => l.reread.links).length = g.links.length := by
    have hone : g.links.map (fun l => l.reread.links.length) = g.links.map fun _ => 1 :=
      List.map_congr_left fun l hl =>
        length_links_reread (link_legible_of_parse h hl) (hcomment _ (ends_of_parse h hl).1)
    rw [List.length_flatMap, hone, List.map_const', List.sum_replicate_nat, Nat.mul_one]
  -- the rows of the edges already say as many links as there are
  have hnil : (g.nodes.map Node.mention).flatMap (fun m => m.reread.links) = [] := by
    have := congrArg List.length hg.2
    rw [links_rereading, List.length_append, hlen] at this
    exact List.length_eq_zero_iff.1 (by omega)
  intro n hn
  by_contra harrow
  have hl := mention_legible_of_parse h hn
  refine links_reread_ne_nil hl.id_ne hl.id (hcomment _ (List.mem_map_of_mem hn)) (hid n hn).2
    (Decidable.or_iff_not_not_and_not.2 harrow) ?_
  exact List.flatMap_eq_nil_iff.1 hnil _ (List.mem_map_of_mem hn)

/-- Without arrows in ids and labels every row says the node or the edge that it was made of. -/
theorem readsBack_of_no_arrow
    (hid : ∀ n ∈ g.nodes, Fragment.Plain n.id.toList ∧ ¬ Line.commentMark <+: n.id.toList)
    (harrow : ∀ n ∈ g.nodes, ¬ arrow <:+: n.id.toList ∧ ¬ arrow <:+: n.label.toList) : g.ReadsBack := by
  have hleading : ∀ id ∈ g.nodeIds, LeadingId id := by
    intro id hmem
    obtain ⟨n, hn, rfl⟩ := List.mem_map.1 hmem
    exact ⟨(hid n hn).1, (harrow n hn).1, (hid n hn).2⟩
  have hids : (g.nodes.map Node.mention).map Mention.id = g.nodeIds := by
    rw [List.map_map]
    rfl
  have hm : ∀ m ∈ g.nodes.map Node.mention, LeadingId m.id ∧ ReadableLabel m.shape m.label := by
    intro m hm
    obtain ⟨n, hn, rfl⟩ := List.mem_map.1 hm
    have hl := mention_legible_of_parse h hn
    exact ⟨hleading _ (List.mem_map_of_mem hn), hl.label_ne, hl.label, (harrow n hn).2, hl.earlier⟩
  have hl : ∀ l ∈ g.links, LeadingId l.source ∧ LeadingId l.target := fun l hl =>
    ⟨hleading _ (ends_of_parse h hl).1, hleading _ (ends_of_parse h hl).2⟩
  obtain ⟨hmentions, hlinks⟩ := rereading_of_readable hm hl
  unfold Graph.ReadsBack
  rw [hmentions, hlinks, firstMentions_with_ends (hids ▸ nodup_ids_of_parse h)
    (fun l hl => hids ▸ ends_of_parse h hl), List.map_map]
  exact ⟨rfl, rfl⟩

end Parsed

/-- The text of a parsed graph is parsed to the same structure exactly if the rows of the graph say it again.
If no id holds a blank or a bracket or starts like a comment or with an arrow, this is so exactly if there is
no arrow in an id or a label. -/
theorem sameStructure_of_reparse_iff (s : Session) (t : Text) (d : Bool) (g : Graph)
    (h : (s.parse t d).1 = .ok g) :
    ∃ text, ({} : Renderer).render (.all (g.nodes.map .node)) (.all (g.edges.map .edge)) = .ok text ∧
      ∀ (s' : Session) (d' : Bool) (g' : Graph), (s'.parse text d').1 = .ok g' →
        (g.SameStructure g' ↔ g.ReadsBack) ∧
        ((∀ n ∈ g.nodes, Fragment.Plain n.id.toList ∧ ¬ Line.commentMark <+: n.id.toList ∧
            ¬ arrow <+: n.id.toList) →
          (g.SameStructure g' ↔
            ∀ n ∈ g.nodes, ¬ arrow <:+: n.id.toList ∧ ¬ arrow <:+: n.label.toList)) := by
  refine ⟨_, render_records _ _ _, fun s' d' g' h' => ?_⟩
  have hiff : g.SameStructure g' ↔ g.ReadsBack := by
    obtain ⟨hnodes, hedges⟩ := ofText_diagram h
    obtain ⟨hnodes', hedges'⟩ := structure_of_parse h'
    have hlinks : g'.links = _ := (congrArg (List.map Edge.link) hedges').trans hedges
    unfold Graph.SameStructure Graph.ReadsBack
    rw [hnodes'.trans hnodes, hlinks]
  refine ⟨hiff, fun hid => hiff.trans ⟨fun hg => ?_, fun harrow => ?_⟩⟩
  · exact no_arrow_of_readsBack h (fun n hn => (hid n hn).2) hg
  · exact readsBack_of_no_arrow h (fun n hn => ⟨(hid n hn).1, (hid n hn).2.1⟩) harrow

theorem map_mention_nodes (g : Graph) : g.nodes.map Node.mention = g.mentions.map Prod.snd := by
  unfold Graph.mentions
  rw [List.map_map]
  rfl

/-- A text that is parsed, rendered and parsed again, if both parses go through. -/
theorem exists_reparse {s : Session} {t : Text} (h : (s.parse t false).1.toOption.isSome = true)
    (h' : (s.parse (({} : Renderer).diagram ((Blueprint.ofText t).nodes.map Prod.snd)
      ((Blueprint.ofText t).edges.map Edge.link)) false).1.toOption.isSome = true) :
    ∃ g text g', (s.parse t false).1 = .ok g ∧
      ({} : Renderer).render (.all (g.nodes.map .node)) (.all (g.edges.map .edge)) = .ok text ∧
      (s.parse text false).1 = .ok g' := by
  have exists_ok {r : Except Fault Graph} (h : r.toOption.isSome = true) : ∃ g, r = .ok g := by
    cases r with
    | error f => cases h
    | ok g => exact ⟨g, rfl⟩
  obtain ⟨g, hg⟩ := exists_ok h
  obtain ⟨g', hg'⟩ := exists_ok h'
  refine ⟨g, _, g', hg, render_records _ _ _, ?_⟩
  rw [map_mention_nodes, (structure_of_parse hg).1, (structure_of_parse hg).2]
  exact hg'

/-- A session that moves no node by an offset. -/
def Session.still : Session where
  layering := .firstVisit
  grid := { jitter := .int 0 }
  header := "graph TD"
  random := randomOf none

/-- The graph of a connection with labels comes back. -/
theorem sameStructure_of_reparse_labelled :
    ∃ (g : Graph) (text : Text) (g' : Graph),
      (Session.still.parse "A[Do] --> |yes| B\x7bOk?\x7d" false).1 = .ok g ∧
      ({} : Renderer).render (.all (g.nodes.map .node)) (.all (g.edges.map .edge)) = .ok text ∧
      (Session.still.parse text false).1 = .ok g' ∧ g.SameStructure g' := by
  obtain ⟨g, text, g', hg, htext, hg'⟩ := exists_reparse (s := .still)
    (t := "A[Do] --> |yes| B\x7bOk?\x7d") (by decide +kernel) (by decide +kernel)
  refine ⟨g, text, g', hg, htext, hg', ?_⟩
  obtain ⟨text', htext', hiff⟩ := sameStructure_of_reparse_iff _ _ false g hg
  obtain rfl : text' = text := Except.ok.inj (htext'.symm.trans htext)
  apply (hiff _ false g' hg').1.2
  unfold Graph.ReadsBack Graph.links
  rw [map_mention_nodes, (structure_of_parse hg).1, (structure_of_parse hg).2]
  decide +kernel

/-- The node of the text `[a b]` does not come back. -/
theorem not_sameStructure_of_reparse_blank :
    ∃ (g : Graph) (text : Text) (g' : Graph),
      (Session.still.parse "[a b]" false).1 = .ok g ∧
      ({} : Renderer).render (.all (g.nodes.map .node)) (.all (g.edges.map .edge)) = .ok text ∧
      (Session.still.parse text false).1 = .ok g' ∧ ¬ g.SameStructure g' := by
  obtain ⟨g, text, g', hg, htext, hg'⟩ := exists_reparse (s := .still)
    (t := "[a b]") (by decide +kernel) (by decide +kernel)
  refine ⟨g, text, g', hg, htext, hg', fun hsame => ?_⟩
  have htext' : ({} : Renderer).diagram (g.nodes.map Node.mention) g.links = text :=
    Except.ok.inj ((render_records _ _ _).symm.trans htext)
  have hmentions := hsame.1
  unfold Graph.links at htext'
  rw [map_mention_nodes, (structure_of_parse hg).1, (structure_of_parse hg).2] at htext'
  rw [(structure_of_parse hg).1, (structure_of_parse hg').1, ← htext'] at hmentions
  revert hmentions
  decide +kernel

end Flowchart
