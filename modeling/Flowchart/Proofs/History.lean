import Flowchart.Proofs.Calls

/-!
# What earlier calls change

A graph that is parsed in a session is the same whatever has been called before, but for the offsets of its nodes.
These are drawn from a random sequence that has advanced by two draws for each node parsed so far, or not at all if
there is no jitter (`callAll_of_ok`). In it, each node takes the two draws of its place in the layout
(`placedBy_of_parse`).
-/

namespace Flowchart.Session

open Position

variable {s : Session} {d : Disk} {text : Text} {debug : Bool} {g : Graph}

/-! ## Draws -/

theorem after_no_nodes (s : Session) (trace : Option Trace) :
    { s with random := s.grid.after s.random (2 * 0), trace } = { s with trace } := by
  rw [Nat.mul_zero, s.grid.after_zero]

/-- A call that goes through takes two draws for each node in its answer. -/
theorem call_of_ok {c : Call} {r : Reply} (h : (s.call d c).1 = .ok r) : ∃ trace,
    (s.call d c).2.1 = { s with random := s.grid.after s.random (2 * r.nodeCount), trace } := by
  cases c with
  | parse text debug =>
    obtain ⟨g, hparse, rfl⟩ := of_map_eq_ok h
    obtain ⟨l, _, hl, -, -, hs⟩ := of_parse_eq_ok hparse
    rw [length_cells_of_parse hparse hl] at hs
    exact ⟨_, hs⟩
  | render nodes edges debug =>
    obtain ⟨out, hrender, rfl⟩ := of_map_eq_ok h
    obtain ⟨_, _, -, -, hs⟩ := of_render_eq_ok hrender
    exact ⟨_, hs.trans (s.after_no_nodes _).symm⟩
  | saveText nodes edges path =>
    rcases s.call_saveText_cases d nodes edges path with ⟨f, hcall⟩ | ⟨f, d', -, hcall⟩ | ⟨d', hcall⟩
    · rw [hcall] at h
      cases h
    · rw [hcall] at h
      cases h
    · rw [hcall] at h ⊢
      obtain rfl := Except.ok.inj h
      exact ⟨none, (s.after_no_nodes none).symm⟩
  | trace =>
    obtain rfl := Except.ok.inj h
    exact ⟨s.trace, (s.after_no_nodes s.trace).symm⟩

theorem nodeCount_cons {c : Call} {r : Reply} (turns : List Turn) :
    nodeCount (⟨c, .ok r⟩ :: turns) = r.nodeCount + nodeCount turns := rfl

/-- Calls that go through take two draws for each node in their answers. -/
theorem callAll_of_ok {calls : List Call} (h : ∀ turn ∈ (s.callAll d calls).1, ∃ r, turn.outcome = .ok r) :
    ∃ trace, (s.callAll d calls).2.1 =
      { s with random := s.grid.after s.random (2 * nodeCount (s.callAll d calls).1), trace } := by
  induction calls generalizing s d with
  | nil => exact ⟨s.trace, (s.after_no_nodes s.trace).symm⟩
  | cons c calls ih =>
    rw [turns_cons, List.forall_mem_cons] at h
    obtain ⟨⟨r, hr⟩, hrest⟩ := h
    obtain ⟨_, hfirst⟩ := call_of_ok hr
    obtain ⟨trace, hlast⟩ := ih hrest
    refine ⟨trace, ?_⟩
    rw [session_cons, turns_cons, hlast]
    dsimp only at hr
    rw [hr, nodeCount_cons, Nat.mul_add, s.grid.after_add, hfirst]

/-! ## Places -/

/-- Each node of a graph stands in its cell of the layout of a text, and the one that is number `k` in the layout has
been moved by the draws `2 * k` and `2 * k + 1`. The layout lists the nodes band by band. -/
def PlacedBy (layering : Layering) (grid : Grid) (t : Twister) (text : Text) (g : Graph) : Prop :=
  ∃ l, Layout.ofAdjacency layering (Blueprint.ofText text).order (Blueprint.ofText text).successors = .ok l ∧
    l.placements = Layout.places l.bands ∧ l.placements.ids.Perm g.nodeIds ∧
    ∀ k id p, l.placements[k]? = some (id, p) → ∃ n ∈ g.nodes, n.id = id ∧
      grid.positionFrom (.int p.depth) (.int p.column) (t.draw (2 * k)) (t.draw (2 * k + 1)) = .ok (n.x, n.y)

theorem placedBy_of_parse (h : (s.parse text debug).1 = .ok g) : PlacedBy s.layering s.grid s.random text g := by
  obtain ⟨l, points, hl, hpoints, hplace, -⟩ := of_parse_eq_ok h
  have hids := ids_layout_of_parse h hl
  refine ⟨l, hl, (covers_of_layout hl).2, hids, fun k id p hk => ?_⟩
  have hcell : l.cells[k]? = some (id, .int p.depth, .int p.column) := by
    unfold Layout.cells
    rw [List.getElem?_map, hk]
    rfl
  obtain ⟨q, hq, hdraws⟩ := Grid.getElem?_positionsFrom hpoints hcell
  rw [Nat.zero_add] at hdraws
  have hid : id ∈ g.nodeIds := hids.mem_iff.1 (List.mem_map_of_mem (List.mem_of_getElem? hk))
  obtain ⟨n, hn, rfl⟩ := List.mem_map.1 hid
  have hnodup : points.ids.Nodup := by
    rw [Grid.ids_positionsFrom hpoints, Layout.ids_cells]
    exact hids.nodup_iff.2 (nodup_ids_of_parse h)
  have hpoint := get?_of_mem_placeNodes hplace hn
  rw [Entries.get?_of_mem hnodup hq] at hpoint
  rw [Option.some.inj hpoint] at hdraws
  exact ⟨n, hn, rfl, hdraws⟩

/-! ## Histories -/

/-- Whether a text is parsed depends on the layering and the grid alone. -/
theorem exists_parse_of_parse (h : (s.parse text debug).1 = .ok g) {fresh : Session}
    (hlayering : fresh.layering = s.layering) (hgrid : fresh.grid = s.grid) (debug' : Bool) :
    ∃ g', (fresh.parse text debug').1 = .ok g' := by
  have hfits : s.Fits text := fits_of_parse (by rw [h]; rfl)
  apply (parse_settled fresh text debug').1
  unfold Fits at hfits ⊢
  rwa [hlayering, hgrid]

/-- After calls that have gone through, the random sequence has advanced by two draws for each node that has been
parsed, or stands where it stood if there is no jitter. Each graph that was parsed on the way has the nodes and edges
that a fresh session with the same layering finds in the text, and parses without fail if it has the same grid. Only
the offsets of the nodes come from the draws that follow those of the turns before. -/
theorem history_affects_offsets_only {calls : List Call}
    (hok : ∀ turn ∈ (s.callAll d calls).1, ∃ r, turn.outcome = .ok r) :
    (s.callAll d calls).2.1.random = s.grid.after s.random (2 * nodeCount (s.callAll d calls).1) ∧
      ∀ before text debug g after,
        (s.callAll d calls).1 = before ++ ⟨.parse text debug, .ok (.graph g)⟩ :: after →
          (∀ fresh : Session, fresh.layering = s.layering → ∀ debug',
            (fresh.grid = s.grid → ∃ g', (fresh.parse text debug').1 = .ok g') ∧
              ∀ g', (fresh.parse text debug').1 = .ok g' → g.mentions = g'.mentions ∧ g.edges = g'.edges) ∧
          PlacedBy s.layering s.grid (s.grid.after s.random (2 * nodeCount before)) text g := by
  constructor
  · obtain ⟨_, hlast⟩ := callAll_of_ok hok
    rw [hlast]
  · intro before text debug g after hturns
    obtain ⟨calls', hbefore, houtcome⟩ := of_callAll_eq hturns
    have hokBefore : ∀ turn ∈ (s.callAll d calls').1, ∃ r, turn.outcome = .ok r := by
      intro turn hturn
      rw [hbefore] at hturn
      apply hok
      rw [hturns]
      exact List.mem_append_left _ hturn
    obtain ⟨trace, hthen⟩ := callAll_of_ok hokBefore
    rw [hbefore] at hthen
    rw [hthen] at houtcome
    obtain ⟨g', hparse, hg'⟩ := of_map_eq_ok houtcome
    obtain rfl := Reply.graph.inj hg'
    have hplaced := placedBy_of_parse hparse
    refine ⟨fun fresh hlayering debug' => ⟨fun hgrid => ?_, fun g' hfresh => ?_⟩, hplaced⟩
    · exact exists_parse_of_parse hparse hlayering hgrid debug'
    · obtain ⟨hnodes, hedges⟩ := structure_of_parse hparse
      obtain ⟨hnodes', hedges'⟩ := structure_of_parse hfresh
      exact ⟨hnodes.trans hnodes'.symm, hedges.trans hedges'.symm⟩

/-- A cycle and a node beside it are parsed, drawn, saved and looked at before a text with two nodes is parsed. -/
theorem history_affects_offsets_only_mixed :
    let s : Session := ⟨.longestPath, {}, "graph TD", .ofSeed 7, none⟩
    let earlier : List Call := [.parse "A --> B\nB --> A\nC[x]" true,
      .render (.all [.draft { id := .int 5 }]) (.value (.list [])) true, .saveText (.all []) (.all []) "d.txt", .trace]
    let calls := earlier ++ [.parse "A --> B" false]
    (∀ turn ∈ (s.callAll {} calls).1, ∃ r, turn.outcome = .ok r) ∧
      (s.callAll {} calls).2.1.random = s.random.drop 10 ∧
      ∃ g, (s.callAll {} calls).1 = (s.callAll {} earlier).1 ++ [⟨.parse "A --> B" false, .ok (.graph g)⟩] ∧
        PlacedBy s.layering s.grid (s.random.drop 6) "A --> B" g := by
  intro s earlier calls
  have hok : ∀ turn ∈ (s.callAll {} calls).1, ∃ r, turn.outcome = .ok r := by
    have hall : ((s.callAll {} calls).1.all fun turn => turn.outcome.toOption.isSome) = true := by decide +kernel
    exact fun turn hturn => exists_ok_of_isSome (List.all_eq_true.1 hall turn hturn)
  have hcount : nodeCount (s.callAll {} calls).1 = 5 := by decide +kernel
  have hbefore : nodeCount (s.callAll {} earlier).1 = 3 := by decide +kernel
  -- from here on, nothing is computed with the calls
  clear_value earlier
  have hturns := s.turns_append {} earlier [.parse "A --> B" false]
  generalize (s.callAll {} earlier).2.1 = s₁, (s.callAll {} earlier).2.2 = d₁ at hturns
  rw [turns_cons] at hturns
  obtain ⟨r, hr⟩ := hok ⟨.parse "A --> B" false, (s₁.call d₁ (.parse "A --> B" false)).1⟩ (by
    rw [hturns]
    exact List.mem_append_right _ List.mem_cons_self)
  obtain ⟨g, -, rfl⟩ := of_map_eq_ok hr
  dsimp only at hr
  rw [hr] at hturns
  obtain ⟨hrandom, hparsed⟩ := history_affects_offsets_only hok
  obtain ⟨-, hplaced⟩ := hparsed _ _ _ g [] hturns
  have hafter : ∀ n, s.grid.after s.random n = s.random.drop n := fun n => if_neg (by decide)
  rw [hcount, hafter] at hrandom
  rw [hbefore, hafter] at hplaced
  exact ⟨hok, hrandom, g, hturns, hplaced⟩

end Flowchart.Session
