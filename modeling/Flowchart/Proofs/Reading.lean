import Flowchart.Proofs.Building
import Flowchart.Proofs.Entries
import Flowchart.Proofs.Fragment
import Flowchart.Render

/-!
# What lines say

A line mentions nodes and may link two of them: its `Reading`. A builder that reads lines enters the first
mention of every id and an edge for every link, so the graph of some lines is made of their readings alone
(`nodes_ofLines`, `links_ofLines`). The first mentions are what is left of all mentions without the later ones
of the same id (`firstMentions_eq`).
-/

namespace Flowchart

/-- The mentions and the links in a part of a diagram, in order. -/
structure Reading where
  mentions : List Mention := []
  links : List Link := []
  deriving DecidableEq

namespace Reading

/-- Several readings, one after the other. -/
def concat (rs : List Reading) : Reading := ⟨rs.flatMap mentions, rs.flatMap links⟩

@[simp] theorem concat_mentions (rs : List Reading) : (concat rs).mentions = rs.flatMap mentions := rfl

@[simp] theorem concat_links (rs : List Reading) : (concat rs).links = rs.flatMap links := rfl

end Reading

/-- The mentions that have an id. -/
def named (ms : List Mention) : List Mention := ms.filter (·.id != "")

/-- What a connection says: a link between two nodes or, if one of them is missing, only the other. -/
def Connection.reading (c : Connection) : Reading where
  mentions := named [c.source, c.target]
  links := if c.source.id = "" ∨ c.target.id = "" then [] else [⟨c.source.id, c.target.id, c.label⟩]

/-- What a line says. -/
def Reading.ofLine : Line.Kind → Text → Reading
  | .declaration, text => ⟨named [Fragment.mention text.toList], []⟩
  | .connection, text => (Connection.ofText text).reading

/-! ## First mentions -/

/-- Entries with some mentions added, as far as their ids have no entry. -/
def mentionAll (es : Entries Mention) (ms : List Mention) : Entries Mention :=
  ms.foldl (fun es m => es.add m.id m) es

/-- The first mention of each id. -/
def firstMentions (ms : List Mention) : Entries Mention := mentionAll [] ms

theorem mentionAll_append (es : Entries Mention) (ms ns : List Mention) :
    mentionAll es (ms ++ ns) = mentionAll (mentionAll es ms) ns := List.foldl_append

/-- Mentions that are added keep their order, without those of ids that have an entry by then. -/
theorem mentionAll_eq (es : Entries Mention) (ms : List Mention) :
    mentionAll es ms =
      es ++ ((ms.filter fun m => ! es.has m.id).eraseDupsBy fun m n => m.id == n.id).map fun m => (m.id, m) := by
  induction ms generalizing es with
  | nil => simp [mentionAll]
  | cons m ms ih =>
    show mentionAll (es.add m.id m) ms = _
    rw [ih]
    by_cases hm : es.has m.id = true
    · have hadd : es.add m.id m = es := if_pos hm
      rw [hadd, List.filter_cons_of_neg (by simp [hm])]
    · have hadd : es.add m.id m = es ++ [(m.id, m)] := if_neg hm
      have hkeep : (ms.filter fun n => ! (es ++ [(m.id, m)]).has n.id) =
          (ms.filter fun n => ! es.has n.id).filter fun n => decide ((n.id == m.id) = false) := by
        rw [List.filter_filter]
        apply List.filter_congr
        intro n _
        rw [Entries.has_concat, BEq.comm]
        cases es.has n.id <;> cases n.id == m.id <;> rfl
      rw [hadd, hkeep, List.filter_cons_of_pos (by simp [hm]), List.eraseDupsBy_cons, List.map_cons,
        List.append_assoc, List.singleton_append]

/-- The first mentions are the mentions without the later ones of the same id. -/
theorem firstMentions_eq (ms : List Mention) :
    firstMentions ms = (ms.eraseDupsBy fun m n => m.id == n.id).map fun m => (m.id, m) := by
  unfold firstMentions
  rw [mentionAll_eq, List.nil_append, List.filter_eq_self.2]
  intro m _
  rfl

/-- Mentions of ids that have entries change nothing. -/
theorem mentionAll_of_subset {es : Entries Mention} {ms : List Mention}
    (h : ∀ m ∈ ms, m.id ∈ es.ids) : mentionAll es ms = es := by
  have hnone : (ms.filter fun m => ! es.has m.id) = [] := by
    rw [List.filter_eq_nil_iff]
    intro m hm
    simp [Entries.has_eq_true_iff.2 (h m hm)]
  rw [mentionAll_eq, hnone]
  exact List.append_nil es

/-- Mentions of pairwise different ids are all first mentions. -/
theorem firstMentions_of_nodup {ms : List Mention} (h : (ms.map Mention.id).Nodup) :
    firstMentions ms = ms.map fun m => (m.id, m) := by
  rw [firstMentions_eq]
  congr 1
  induction ms with
  | nil => rfl
  | cons m ms ih =>
    rw [List.map_cons, List.nodup_cons] at h
    have hkeep : (ms.filter fun n => decide ((n.id == m.id) = false)) = ms := by
      rw [List.filter_eq_self]
      intro n hn
      have hne : n.id ≠ m.id := fun he => h.1 (he ▸ List.mem_map_of_mem hn)
      simpa using hne
    rw [List.eraseDupsBy_cons, hkeep, ih h.2]

/-! ## Builders -/

namespace Builder

theorem enterNamed_eq (b : Builder) (m : Mention) :
    b.enterNamed m = { b with nodes := mentionAll b.nodes (named [m]) } := by
  unfold Builder.enterNamed named
  by_cases h : m.id = ""
  · simp [h, mentionAll]
  · simp [h, mentionAll, Builder.enter]

/-- A builder that reads a line enters the nodes that the line mentions. -/
theorem nodes_readLine (b : Builder) (kind : Line.Kind) (text : Text) :
    (b.readLine kind text).nodes = mentionAll b.nodes (Reading.ofLine kind text).mentions := by
  cases kind with
  | declaration =>
    unfold Builder.readLine
    rw [enterNamed_eq]
    rfl
  | connection =>
    unfold Builder.readLine Reading.ofLine Connection.reading
    dsimp only
    split_ifs with h
    · rw [enterNamed_eq, enterNamed_eq, ← mentionAll_append]
      unfold named
      rw [← List.filter_append]
      rfl
    · simp only [Bool.or_eq_true, beq_iff_eq, not_or] at h
      unfold named
      simp [h.1, h.2, mentionAll, Builder.connect, Builder.enter]

/-- A builder that reads a line adds an edge for its link. -/
theorem links_readLine (b : Builder) (kind : Line.Kind) (text : Text) :
    (b.readLine kind text).edges.map Edge.link =
      b.edges.map Edge.link ++ (Reading.ofLine kind text).links := by
  cases kind with
  | declaration =>
    unfold Builder.readLine Reading.ofLine
    rw [enterNamed_eq, List.append_nil]
  | connection =>
    unfold Builder.readLine Reading.ofLine Connection.reading
    dsimp only
    by_cases h : (Connection.ofText text).source.id = "" ∨ (Connection.ofText text).target.id = ""
    · rw [if_pos (by simpa using h), if_pos h, enterNamed_eq, enterNamed_eq, List.append_nil]
    · rw [if_neg (by simpa using h), if_neg h]
      simp [Builder.connect, Builder.enter, Builder.nextEdge, Edge.link]

theorem readLines_reading (b : Builder) (ls : List Line) :
    (b.readLines ls).nodes =
        mentionAll b.nodes (ls.flatMap fun l => (Reading.ofLine l.kind l.text).mentions) ∧
      (b.readLines ls).edges.map Edge.link =
        b.edges.map Edge.link ++ ls.flatMap fun l => (Reading.ofLine l.kind l.text).links := by
  induction ls generalizing b with
  | nil => simp [Builder.readLines, mentionAll]
  | cons l ls ih =>
    obtain ⟨hn, he⟩ := ih (b.readLine l.kind l.text)
    rw [List.flatMap_cons, List.flatMap_cons, mentionAll_append, ← nodes_readLine, ← List.append_assoc,
      ← links_readLine]
    exact ⟨hn, he⟩

end Builder

/-- The nodes of a graph of lines are the first mentions in the lines. -/
theorem nodes_ofLines (ls : List Line) :
    (Blueprint.ofLines ls).nodes =
      firstMentions (ls.flatMap fun l => (Reading.ofLine l.kind l.text).mentions) :=
  (Builder.readLines_reading {} ls).1

/-- The edges of a graph of lines are the links in the lines. -/
theorem links_ofLines (ls : List Line) :
    (Blueprint.ofLines ls).edges.map Edge.link =
      ls.flatMap fun l => (Reading.ofLine l.kind l.text).links :=
  (Builder.readLines_reading {} ls).2

end Flowchart
