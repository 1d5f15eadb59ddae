import Flowchart.Proofs.FiniteCoordinates

/-!
# Calls on a session

A session is used by a row of calls, some of which may fail. No call changes anything of a session but its random
sequence and its trace. What each call can answer and leave behind is said once (`call_parse_cases`, `call_render_cases`,
`call_saveText_cases`), with `of_parse_eq_ok` and `of_render_eq_ok` for those that go through.
-/

namespace Flowchart

/-- Whether a fault comes up when a text is written. -/
def Fault.ofWriting : Fault → Bool
  | .disk _ | .unencodable _ => true
  | _ => false

namespace Session

/-- A call on a session. -/
inductive Call where
  | parse (text : Text) (debug : Bool)
  | render (nodes : Supply NodeSource) (edges : Supply EdgeSource) (debug : Bool)
  | saveText (nodes : Supply NodeSource) (edges : Supply EdgeSource) (path : String)
  | trace

/-- What a call answers. -/
inductive Reply where
  | graph (g : Graph)
  | text (s : Text)
  | saved
  | trace (t : Option Trace)

/-- A call that has been made, with its outcome. -/
structure Turn where
  call : Call
  outcome : Except Fault Reply

/-- Makes a call. The results are its outcome, and the session and the disk after it. -/
def call (s : Session) (d : Disk) : Call → Except Fault Reply × Session × Disk
  | .parse text debug => ((s.parse text debug).1.map .graph, (s.parse text debug).2, d)
  | .render nodes edges debug => ((s.render nodes edges debug).1.map .text, (s.render nodes edges debug).2, d)
  | .saveText nodes edges path =>
    let ((outcome, d), s) := s.saveSupplies nodes edges path d
    (outcome.map fun _ => .saved, s, d)
  | .trace => (.ok (.trace s.trace), s, d)

/-- Makes calls, going on after those that fail. -/
def callAll (s : Session) (d : Disk) : List Call → List Turn × Session × Disk
  | [] => ([], s, d)
  | c :: calls =>
    let (outcome, s, d) := s.call d c
    let (turns, s, d) := s.callAll d calls
    (⟨c, outcome⟩ :: turns, s, d)

variable {s : Session} {d d' : Disk} {text : Text} {path : String} {debug : Bool} {nodes : Supply NodeSource}
  {edges : Supply EdgeSource}

theorem turns_cons (s : Session) (d : Disk) (c : Call) (calls : List Call) :
    (s.callAll d (c :: calls)).1 =
      ⟨c, (s.call d c).1⟩ :: ((s.call d c).2.1.callAll (s.call d c).2.2 calls).1 := rfl

theorem session_cons (s : Session) (d : Disk) (c : Call) (calls : List Call) :
    (s.callAll d (c :: calls)).2.1 = ((s.call d c).2.1.callAll (s.call d c).2.2 calls).2.1 := rfl

theorem turns_append (s : Session) (d : Disk) (calls later : List Call) :
    (s.callAll d (calls ++ later)).1 =
      (s.callAll d calls).1 ++ ((s.callAll d calls).2.1.callAll (s.callAll d calls).2.2 later).1 := by
  induction calls generalizing s d with
  | nil => rfl
  | cons c calls ih =>
    rw [List.cons_append, turns_cons, ih]
    rfl

/-! ## Parsing -/

/-- A session that parses a text lays out its nodes, takes two draws for each of them, and leaves a trace if it was
asked for one. -/
theorem of_parse_eq_ok {g : Graph} (h : (s.parse text debug).1 = .ok g) : ∃ l points,
    Layout.ofAdjacency s.layering (Blueprint.ofText text).order (Blueprint.ofText text).successors = .ok l ∧
      s.grid.positionsFrom s.random 0 l.cells = .ok points ∧
      placeNodes (Blueprint.ofText text).nodes points = .ok g.nodes ∧
      (s.parse text debug).2 =
        { s with
          random := s.grid.after s.random (2 * l.cells.length)
          trace := if debug then
            some (.ofParse text (Line.ofText text) (Blueprint.ofText text) s.layering l points) else none } := by
  obtain ⟨l, hl, -⟩ := exists_layout s.layering text
  obtain ⟨hpoints, hrandom⟩ := s.run_positionsOf l
  refine ⟨l, ?_⟩
  unfold Blueprint.ofText at hl ⊢
  unfold parse at h ⊢
  simp only [hl] at h ⊢
  rcases hrun : (s.grid.positionsOf l).run s.random with ⟨f | points, random⟩
  · rw [hrun] at h
    cases h
  · rw [hrun] at h hpoints hrandom
    dsimp only at h hpoints hrandom ⊢
    obtain rfl := hrandom points hpoints.symm
    cases hplace : placeNodes (Blueprint.ofLines (Line.ofText text)).nodes points with
    | error f =>
      rw [hplace] at h
      cases h
    | ok ns =>
      rw [hplace] at h
      cases h
      exact ⟨points, trivial, hpoints.symm, hplace, rfl⟩

/-- The layout of a parsed graph has a cell for each of its nodes. -/
theorem ids_layout_of_parse {g : Graph} (h : (s.parse text debug).1 = .ok g) {l : Layout}
    (hl : Layout.ofAdjacency s.layering (Blueprint.ofText text).order (Blueprint.ofText text).successors = .ok l) :
    l.placements.ids.Perm g.nodeIds := by
  rw [ids_of_parse h]
  exact (covers_of_layout hl).1.ids

theorem length_cells_of_parse {g : Graph} (h : (s.parse text debug).1 = .ok g) {l : Layout}
    (hl : Layout.ofAdjacency s.layering (Blueprint.ofText text).order (Blueprint.ofText text).successors = .ok l) :
    l.cells.length = g.nodes.length := by
  have hlength := (ids_layout_of_parse h hl).length_eq
  unfold Entries.ids Graph.nodeIds at hlength
  rw [List.length_map, List.length_map] at hlength
  unfold Layout.cells
  rw [List.length_map, hlength]

/-- A session that fails to parse a text keeps its trace. -/
theorem of_parse_eq_error {f : Fault} (h : (s.parse text debug).1 = .error f) :
    ∃ random, (s.parse text debug).2 = { s with random } := by
  obtain ⟨l, hl, -⟩ := exists_layout s.layering text
  unfold Blueprint.ofText at hl
  unfold parse at h ⊢
  simp only [hl] at h ⊢
  rcases hrun : (s.grid.positionsOf l).run s.random with ⟨f' | points, random⟩
  · exact ⟨random, rfl⟩
  · rw [hrun] at h
    dsimp only at h ⊢
    cases hplace : placeNodes (Blueprint.ofLines (Line.ofText text)).nodes points with
    | error f' => exact ⟨random, rfl⟩
    | ok ns =>
      rw [hplace] at h
      cases h

/-- A call that parses a text fails, or answers the graph of the text. It keeps the trace if it fails. -/
theorem call_parse_cases (s : Session) (d : Disk) (text : Text) (debug : Bool) :
    (∃ f random, s.call d (.parse text debug) = (.error f, { s with random }, d)) ∨
      ∃ g, (s.parse text debug).1 = .ok g ∧
        s.call d (.parse text debug) = (.ok (.graph g), (s.parse text debug).2, d) := by
  unfold call
  dsimp only
  cases h : (s.parse text debug).1 with
  | error f =>
    obtain ⟨random, hs⟩ := of_parse_eq_error h
    rw [hs]
    exact Or.inl ⟨f, random, rfl⟩
  | ok g => exact Or.inr ⟨g, rfl, rfl⟩

/-! ## Rendering -/

/-- A session that renders nodes and edges leaves a trace with their numbers, if it was asked for one. -/
theorem of_render_eq_ok {out : Text} (h : (s.render nodes edges debug).1 = .ok out) : ∃ ns es,
    nodes.sources .value = .ok ns ∧ edges.sources .value = .ok es ∧
      (s.render nodes edges debug).2 =
        { s with trace := if debug then some (.ofRendering out s.header ns.length es.length) else none } := by
  unfold render at h ⊢
  cases hall : renderSupplies s.header nodes edges with
  | error f =>
    rw [hall] at h
    cases h
  | ok r =>
    obtain ⟨ns, es, out'⟩ := r
    rw [hall] at h
    obtain rfl := Except.ok.inj h
    obtain ⟨ns', hns, hall⟩ := of_bind_eq_ok hall
    obtain ⟨es', hes, hall⟩ := of_bind_eq_ok hall
    obtain ⟨out'', -, hall⟩ := of_bind_eq_ok hall
    cases hall
    exact ⟨ns, es, hns, hes, rfl⟩

/-- A session that fails to render stays as it is. -/
theorem of_render_eq_error {f : Fault} (h : (s.render nodes edges debug).1 = .error f) :
    (∃ f', f = .value f') ∧ (s.render nodes edges debug).2 = s := by
  unfold render at h ⊢
  cases hall : renderSupplies s.header nodes edges with
  | error f' =>
    rw [hall] at h
    exact ⟨⟨f', (Except.error.inj h).symm⟩, rfl⟩
  | ok r =>
    rw [hall] at h
    cases h

/-- A call that renders nodes and edges fails and leaves the session as it is, or answers their text. -/
theorem call_render_cases (s : Session) (d : Disk) (nodes : Supply NodeSource) (edges : Supply EdgeSource)
    (debug : Bool) :
    (∃ f, s.call d (.render nodes edges debug) = (.error (.value f), s, d)) ∨
      ∃ out, (s.render nodes edges debug).1 = .ok out ∧
        s.call d (.render nodes edges debug) = (.ok (.text out), (s.render nodes edges debug).2, d) := by
  unfold call
  dsimp only
  cases h : (s.render nodes edges debug).1 with
  | error f =>
    obtain ⟨⟨f', rfl⟩, hs⟩ := of_render_eq_error h
    rw [hs]
    exact Or.inl ⟨f', rfl⟩
  | ok out => exact Or.inr ⟨out, rfl, rfl⟩

/-- Saving a text renders it without a trace, and writes it if that goes through. -/
theorem saveSupplies_cases (s : Session) (nodes : Supply NodeSource) (edges : Supply EdgeSource) (path : String)
    (d : Disk) :
    (∃ f, s.saveSupplies nodes edges path d = ((.error (.value f), d), s)) ∨
      ∃ out, s.saveSupplies nodes edges path d = (writeText (Path.plain path) out d, { s with trace := none }) := by
  unfold saveSupplies
  rcases hrun : s.render nodes edges false with ⟨f | out, s'⟩
  · have herror : (s.render nodes edges false).1 = .error f := by rw [hrun]
    obtain ⟨⟨f', rfl⟩, hs'⟩ := of_render_eq_error herror
    rw [hrun] at hs'
    obtain rfl : s' = s := hs'
    exact Or.inl ⟨f', rfl⟩
  · have hok : (s.render nodes edges false).1 = .ok out := by rw [hrun]
    obtain ⟨_, _, -, -, hs'⟩ := of_render_eq_ok hok
    rw [hrun] at hs'
    obtain rfl : s' = { s with trace := none } := hs'
    exact Or.inr ⟨out, rfl⟩

theorem ofWriting_of_writeText {f : Fault} (h : writeText path text d = (.error f, d')) : f.ofWriting = true := by
  unfold writeText at h
  split at h
  · split at h
    · cases h
    · cases h
      rfl
  · split at h
    · cases h
      rfl
    · cases h
      rfl

/-- Where no file can be written, that is the fault of writing any text. -/
theorem writeText_of_write_eq_error {f : Disk.Fault} (h : ∀ content, d.write path content = .error f) (text : Text) :
    writeText path text d = (.error (.disk f), d) := by
  unfold writeText
  split
  · rw [h]
  · rw [h]

/-- A call that saves a text fails to render it, fails to write it, or goes through. It leaves no trace once the text is
rendered. -/
theorem call_saveText_cases (s : Session) (d : Disk) (nodes : Supply NodeSource) (edges : Supply EdgeSource)
    (path : String) :
    (∃ f, s.call d (.saveText nodes edges path) = (.error (.value f), s, d)) ∨
      (∃ f d', f.ofWriting = true ∧
        s.call d (.saveText nodes edges path) = (.error f, { s with trace := none }, d')) ∨
      ∃ d', s.call d (.saveText nodes edges path) = (.ok .saved, { s with trace := none }, d') := by
  unfold call
  dsimp only
  rcases s.saveSupplies_cases nodes edges path d with ⟨f, hsave⟩ | ⟨out, hsave⟩
  · rw [hsave]
    exact Or.inl ⟨f, rfl⟩
  · rw [hsave]
    rcases hwrite : writeText (Path.plain path) out d with ⟨f | ⟨⟩, d'⟩
    · exact Or.inr (Or.inl ⟨f, d', ofWriting_of_writeText hwrite, rfl⟩)
    · exact Or.inr (Or.inr ⟨d', rfl⟩)

/-! ## Rows of calls -/

/-- The number of nodes in an answer. -/
def Reply.nodeCount : Reply → ℕ
  | .graph g => g.nodes.length
  | _ => 0

/-- The number of nodes that were answered in some turns. -/
def nodeCount (turns : List Turn) : ℕ := (turns.map fun turn => turn.outcome.toOption.elim 0 Reply.nodeCount).sum

/-- A call changes nothing of a session but its random sequence and its trace. -/
theorem call_session (s : Session) (d : Disk) (c : Call) :
    ∃ random trace, (s.call d c).2.1 = { s with random, trace } := by
  cases c with
  | parse text debug =>
    rcases s.call_parse_cases d text debug with ⟨f, random, hcall⟩ | ⟨g, hparse, hcall⟩
    · exact ⟨random, s.trace, by rw [hcall]⟩
    · obtain ⟨_, _, -, -, -, hs⟩ := of_parse_eq_ok hparse
      exact ⟨_, _, by rw [hcall, hs]⟩
  | render nodes edges debug =>
    rcases s.call_render_cases d nodes edges debug with ⟨f, hcall⟩ | ⟨out, hrender, hcall⟩
    · exact ⟨s.random, s.trace, by rw [hcall]⟩
    · obtain ⟨_, _, -, -, hs⟩ := of_render_eq_ok hrender
      exact ⟨_, _, by rw [hcall, hs]⟩
  | saveText nodes edges path =>
    rcases s.call_saveText_cases d nodes edges path with ⟨f, hcall⟩ | ⟨f, d', -, hcall⟩ | ⟨d', hcall⟩
    · exact ⟨s.random, s.trace, by rw [hcall]⟩
    · exact ⟨s.random, none, by rw [hcall]⟩
    · exact ⟨s.random, none, by rw [hcall]⟩
  | trace => exact ⟨s.random, s.trace, rfl⟩

/-- A turn is made by the session that the turns before it have left. -/
theorem of_callAll_eq {calls : List Call} {before after : List Turn} {turn : Turn}
    (h : (s.callAll d calls).1 = before ++ turn :: after) : ∃ calls', (s.callAll d calls').1 = before ∧
      ((s.callAll d calls').2.1.call (s.callAll d calls').2.2 turn.call).1 = turn.outcome := by
  induction before generalizing s d calls with
  | nil =>
    cases calls with
    | nil => cases h
    | cons c calls =>
      rw [turns_cons, List.nil_append] at h
      obtain ⟨rfl, -⟩ := List.cons.inj h
      exact ⟨[], rfl, rfl⟩
  | cons first before ih =>
    cases calls with
    | nil => cases h
    | cons c calls =>
      rw [turns_cons, List.cons_append] at h
      obtain ⟨rfl, hrest⟩ := List.cons.inj h
      obtain ⟨calls', hbefore, houtcome⟩ := ih hrest
      refine ⟨c :: calls', ?_, houtcome⟩
      rw [turns_cons, hbefore]

end Session

end Flowchart
