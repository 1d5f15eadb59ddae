import Flowchart.Proofs.Calls

/-!
# The trace of the last conversion

The trace of a session belongs to the last conversion that was completed, and there is none if that was not asked for
one. Calls that fail before their conversion is completed leave the trace alone (`trace_call_of_not_completed`). What a
trace of parsing shows agrees with the graph that was parsed, and its stages agree with each other (`Trace.Shows`).
-/

namespace Flowchart

/-! ## What a trace shows -/

/-- The value under a key of a stage. -/
def Trace.datum? (t : Trace) (stage key : Text) : Option Value := (t.stage? stage).bind (·.data.get? key)

/-- A trace shows how a text was parsed into a graph, with some depths, some bands and some points of its nodes. -/
structure Trace.Shows (t : Trace) (text : Text) (g : Graph) (depths : Entries ℕ) (bands : List (List Text))
    (points : Entries (Float × Float)) : Prop where
  operation : t.operation = "parse"
  input : t.inputText = text
  names : t.names = ["classify", "build", "depths", "columns", "positions"]
  nodes : t.datum? "build" "nodes" = some (.list (g.nodeIds.map .text))
  successors : ∃ table, t.datum? "build" "adjacency" = some (.table table) ∧
    table.map Prod.fst = g.nodeIds.map .text
  edges : t.datum? "build" "edges" =
    some (.list (g.edges.map fun e => .tuple [.text e.source, .text e.target, .text e.label]))
  depths : t.datum? "depths" "depths" = some (.table (depths.map fun e => (.text e.1, .int e.2)))
  bands : t.datum? "columns" "layers" = some (.list (bands.map fun band => .list (band.map .text)))
  points : (t.stage? "positions").map Stage.data = some (points.map fun e =>
    (.text e.1, .tuple [.float (Decimal.roundPlaces 1 e.2.1), .float (Decimal.roundPlaces 1 e.2.2)]))

/-- Depths, bands and points that belong together: all are those of the nodes of a graph, the band of a depth holds the
nodes of that depth, and the points are where the nodes stand. -/
structure Graph.Agrees (g : Graph) (depths : Entries ℕ) (bands : List (List Text))
    (points : Entries (Float × Float)) : Prop where
  depthIds : depths.ids.Perm g.nodeIds
  bandIds : bands.flatten.Perm g.nodeIds
  pointIds : points.ids.Perm g.nodeIds
  band : ∀ depth id, (∃ band, bands[depth]? = some band ∧ id ∈ band) ↔ depths.get? id = some depth
  point : ∀ n ∈ g.nodes, points.get? n.id = some (n.x, n.y)

namespace Session

variable {s : Session} {d : Disk} {text : Text} {debug : Bool} {g : Graph}

theorem band_iff_depth {l : Layout} {order : List Text} (h : l.Covers order) (depth : ℕ) (id : Text) :
    (∃ band, l.bands[depth]? = some band ∧ id ∈ band) ↔
      Entries.get? (l.placements.map fun e => (e.1, e.2.depth)) id = some depth := by
  rw [Entries.get?_map, Option.map_eq_some_iff]
  constructor
  · rintro ⟨band, hband, hid⟩
    obtain ⟨column, hcolumn⟩ := List.mem_iff_getElem?.1 hid
    exact ⟨⟨depth, column⟩, (h.cell id ⟨depth, column⟩).2 ⟨band, hband, hcolumn⟩, rfl⟩
  · rintro ⟨p, hp, rfl⟩
    obtain ⟨band, hband, hcolumn⟩ := (h.cell id p).1 hp
    exact ⟨band, hband, List.mem_of_getElem? hcolumn⟩

/-- The trace of a text that was parsed shows its graph, in stages that agree. -/
theorem shows_of_parse (h : (s.parse text true).1 = .ok g) : ∃ trace depths bands points,
    (s.parse text true).2.trace = some trace ∧ trace.Shows text g depths bands points ∧
      g.Agrees depths bands points := by
  obtain ⟨l, points, hl, hpoints, hplace, hs⟩ := of_parse_eq_ok h
  have hcovers := (covers_of_layout hl).1
  have horder : (Blueprint.ofText text).order = g.nodeIds := (ids_of_parse h).symm
  have hids := ids_layout_of_parse h hl
  refine ⟨_, l.placements.map fun e => (e.1, e.2.depth), l.bands, points, congrArg trace hs, ?_, ?_⟩
  · refine ⟨rfl, rfl, rfl, ?_, ⟨_, rfl, ?_⟩, ?_, ?_, rfl, rfl⟩
    · rw [← horder]
      rfl
    · rw [← horder, ← ids_successors_ofText, Entries.ids, List.map_map, List.map_map]
      rfl
    · rw [(structure_of_parse h).2]
      rfl
    · rw [List.map_map]
      rfl
  · refine ⟨?_, ?_, ?_, band_iff_depth hcovers, fun n hn => get?_of_mem_placeNodes hplace hn⟩
    · unfold Entries.ids at hids ⊢
      rwa [List.map_map]
    · rw [← horder]
      exact hcovers.divided
    · rwa [Position.Grid.ids_positionsFrom hpoints, Layout.ids_cells]

/-! ## Turns -/

/-- Whether a conversion has been completed in a turn. A text that could not be written has been rendered. -/
def Turn.completed (turn : Turn) : Bool :=
  match turn.call, turn.outcome with
  | .parse _ _, .ok _ => true
  | .render _ _ _, .ok _ => true
  | .saveText _ _ _, .ok _ => true
  | .saveText _ _ _, .error f => f.ofWriting
  | _, _ => false

/-- What a completed turn leaves as the trace of a session with a header. A trace of rendering has one stage, with the
numbers of nodes and edges; a conversion that was not asked for a trace leaves none. -/
def Turn.Leaves (turn : Turn) (header : Text) (t : Option Trace) : Prop :=
  match turn.call, turn.outcome with
  | .parse text true, .ok (.graph g) => ∃ trace depths bands points,
      t = some trace ∧ trace.Shows text g depths bands points ∧ g.Agrees depths bands points
  | .render nodes edges true, .ok (.text out) => ∃ ns es,
      nodes.sources .value = .ok ns ∧ edges.sources .value = .ok es ∧
        t = some
          { operation := "generate"
            outputText := out
            stages := [⟨"serialize", [(.text "nodes", .int ns.length), (.text "edges", .int es.length),
              (.text "header", .text header)]⟩] }
  | _, _ => t = none

theorem leaves_of_completed {c : Call} (h : Turn.completed ⟨c, (s.call d c).1⟩ = true) :
    Turn.Leaves ⟨c, (s.call d c).1⟩ s.header (s.call d c).2.1.trace := by
  cases c with
  | parse text debug =>
    rcases s.call_parse_cases d text debug with ⟨f, random, hcall⟩ | ⟨g, hparse, hcall⟩
    · rw [hcall] at h
      cases h
    · rw [hcall]
      cases debug with
      | true => exact shows_of_parse hparse
      | false =>
        obtain ⟨_, _, -, -, -, hs⟩ := of_parse_eq_ok hparse
        exact congrArg trace hs
  | render nodes edges debug =>
    rcases s.call_render_cases d nodes edges debug with ⟨f, hcall⟩ | ⟨out, hrender, hcall⟩
    · rw [hcall] at h
      cases h
    · rw [hcall]
      obtain ⟨ns, es, hns, hes, hs⟩ := of_render_eq_ok hrender
      cases debug with
      | true => exact ⟨ns, es, hns, hes, congrArg trace hs⟩
      | false => exact congrArg trace hs
  | saveText nodes edges path =>
    rcases s.call_saveText_cases d nodes edges path with ⟨f, hcall⟩ | ⟨f, d', -, hcall⟩ | ⟨d', hcall⟩
    · rw [hcall] at h
      cases h
    · rw [hcall]
      rfl
    · rw [hcall]
      rfl
  | trace => cases h

/-- A call that does not complete a conversion leaves the trace alone. -/
theorem trace_call_of_not_completed {c : Call} (h : Turn.completed ⟨c, (s.call d c).1⟩ = false) :
    (s.call d c).2.1.trace = s.trace := by
  cases c with
  | parse text debug =>
    rcases s.call_parse_cases d text debug with ⟨f, random, hcall⟩ | ⟨g, -, hcall⟩
    · rw [hcall]
    · rw [hcall] at h
      cases h
  | render nodes edges debug =>
    rcases s.call_render_cases d nodes edges debug with ⟨f, hcall⟩ | ⟨out, -, hcall⟩
    · rw [hcall]
    · rw [hcall] at h
      cases h
  | saveText nodes edges path =>
    rcases s.call_saveText_cases d nodes edges path with ⟨f, hcall⟩ | ⟨f, d', hf, hcall⟩ | ⟨d', hcall⟩
    · rw [hcall]
    · rw [hcall] at h
      cases hf.symm.trans h
    · rw [hcall] at h
      cases h
  | trace => rfl

/-- A call that saves a text completes a conversion as soon as the text is rendered, whether it is written or not. -/
theorem completed_saveText_iff {nodes : Supply NodeSource} {edges : Supply EdgeSource} {path : String} :
    Turn.completed ⟨.saveText nodes edges path, (s.call d (.saveText nodes edges path)).1⟩ = true ↔
      ∃ out, (s.render nodes edges false).1 = .ok out := by
  unfold call saveSupplies
  dsimp only
  rcases hrun : s.render nodes edges false with ⟨f | out, s'⟩
  · have herror : (s.render nodes edges false).1 = .error f := by rw [hrun]
    obtain ⟨⟨f', rfl⟩, -⟩ := of_render_eq_error herror
    exact ⟨nofun, nofun⟩
  · dsimp only
    rcases hwrite : writeText (Path.plain path) out d with ⟨f | ⟨⟩, d'⟩
    · exact ⟨fun _ => ⟨out, rfl⟩, fun _ => ofWriting_of_writeText hwrite⟩
    · exact ⟨fun _ => ⟨out, rfl⟩, fun _ => rfl⟩

/-- A call that saves a text leaves no trace once the text is rendered. -/
theorem trace_call_saveText {nodes : Supply NodeSource} {edges : Supply EdgeSource} {path : String}
    (h : ∃ out, (s.render nodes edges false).1 = .ok out) :
    (s.call d (.saveText nodes edges path)).2.1.trace = none :=
  leaves_of_completed (completed_saveText_iff.2 h)

/-! ## Rows of calls -/

/-- The last turn in which a conversion was completed. -/
def lastCompleted? (turns : List Turn) : Option Turn := (turns.filter Turn.completed).getLast?

theorem lastCompleted?_cons (turn : Turn) (turns : List Turn) :
    lastCompleted? (turn :: turns) = (lastCompleted? turns).or (if turn.completed then some turn else none) := by
  unfold lastCompleted?
  rw [List.filter_cons]
  by_cases h : turn.completed = true
  · rw [if_pos h, if_pos h, List.getLast?_cons]
    cases (turns.filter Turn.completed).getLast? <;> rfl
  · rw [if_neg h, if_neg h, Option.or_none]

theorem header_call (s : Session) (d : Disk) (c : Call) : (s.call d c).2.1.header = s.header := by
  obtain ⟨_, _, hs⟩ := s.call_session d c
  rw [hs]

/-- The trace of a session is what the last completed turn has left, or else what it was. -/
theorem trace_callAll (s : Session) (d : Disk) (calls : List Call) :
    (lastCompleted? (s.callAll d calls).1 = none → (s.callAll d calls).2.1.trace = s.trace) ∧
      ∀ turn, lastCompleted? (s.callAll d calls).1 = some turn →
        turn.Leaves s.header (s.callAll d calls).2.1.trace := by
  induction calls generalizing s d with
  | nil => exact ⟨fun _ => rfl, fun _ hturn => nomatch hturn⟩
  | cons c calls ih =>
    obtain ⟨hnone, hsome⟩ := ih (s.call d c).2.1 (s.call d c).2.2
    rw [turns_cons, session_cons, lastCompleted?_cons]
    rw [header_call] at hsome
    cases hlast : lastCompleted? ((s.call d c).2.1.callAll (s.call d c).2.2 calls).1 with
    | some later =>
      refine ⟨nofun, fun turn hturn => ?_⟩
      obtain rfl := Option.some.inj hturn
      exact hsome later hlast
    | none =>
      rw [Option.none_or, hnone hlast]
      cases hfirst : Turn.completed ⟨c, (s.call d c).1⟩ with
      | true =>
        refine ⟨nofun, fun turn hturn => ?_⟩
        obtain rfl := Option.some.inj hturn
        exact leaves_of_completed hfirst
      | false => exact ⟨fun _ => trace_call_of_not_completed hfirst, fun _ hturn => nomatch hturn⟩

/-- A new session has no trace. -/
theorem trace_ofSettings {settings : Settings} (h : ofSettings settings = .ok s) : s.trace = none := by
  unfold ofSettings at h
  split at h
  · obtain ⟨_, -, h⟩ := of_bind_eq_ok h
    cases h
    rfl
  · cases h

/-- After any calls, some of which may have failed, the trace of a new session is what the last completed turn has left,
and there is none if no conversion has been completed. No call that fails before its conversion is completed changes the
trace, and one that fails to write a text it has rendered leaves none. -/
theorem trace_of_last_conversion {settings : Settings} (h : ofSettings settings = .ok s) (d : Disk)
    (calls : List Call) :
    (lastCompleted? (s.callAll d calls).1 = none → (s.callAll d calls).2.1.trace = none) ∧
      (∀ turn, lastCompleted? (s.callAll d calls).1 = some turn →
        turn.Leaves s.header (s.callAll d calls).2.1.trace) ∧
      ∀ (s' : Session) (d' : Disk),
        (∀ c, Turn.completed ⟨c, (s'.call d' c).1⟩ = false → (s'.call d' c).2.1.trace = s'.trace) ∧
          ∀ nodes edges path,
            (Turn.completed ⟨.saveText nodes edges path, (s'.call d' (.saveText nodes edges path)).1⟩ = true ↔
              ∃ out, (s'.render nodes edges false).1 = .ok out) ∧
            ((∃ out, (s'.render nodes edges false).1 = .ok out) →
              (s'.call d' (.saveText nodes edges path)).2.1.trace = none) := by
  obtain ⟨hnone, hsome⟩ := s.trace_callAll d calls
  rw [trace_ofSettings h] at hnone
  refine ⟨hnone, hsome, fun s' d' => ⟨fun c => trace_call_of_not_completed, fun nodes edges path => ?_⟩⟩
  exact ⟨completed_saveText_iff, trace_call_saveText⟩

/-- A text is parsed, and then something that is no node is to be rendered. The trace stays that of the text, until a
text is rendered that cannot be written, as there is no folder for it. -/
theorem trace_of_last_conversion_failed :
    let earlier : List Call := [.parse "A --> B" true, .render (.all [.value .null]) (.all []) true]
    let save : Call := .saveText (.all []) (.all []) "no/d.txt"
    ∃ s, ofSettings { seed := some 7 } = .ok s ∧
      (∃ g trace depths bands points, (s.callAll {} earlier).2.1.trace = some trace ∧
        trace.Shows "A --> B" g depths bands points ∧ g.Agrees depths bands points) ∧
      (∃ f, ((s.callAll {} earlier).2.1.call {} save).1 = .error (.disk f)) ∧
      ((s.callAll {} earlier).2.1.call {} save).2.1.trace = none := by
  intro earlier save
  let s : Session := ⟨.firstVisit, {}, "graph TD", .ofSeed 7, none⟩
  have hs : ofSettings { seed := some 7 } = .ok s := rfl
  obtain ⟨g, hg⟩ : ∃ g, (s.parse "A --> B" true).1 = .ok g := exists_ok_of_isSome (by decide +kernel)
  -- from here on, nothing is computed with the random sequence
  clear_value s
  have hfirst : (s.call {} (.parse "A --> B" true)).1 = .ok (.graph g) := congrArg (Except.map Reply.graph) hg
  have hsecond (s' : Session) (d : Disk) : Turn.completed
      ⟨.render (.all [.value .null]) (.all []) true,
        (s'.call d (.render (.all [.value .null]) (.all []) true)).1⟩ = false := rfl
  have hthird (s' : Session) : ∃ out, (s'.render (.all []) (.all []) false).1 = .ok out := ⟨_, rfl⟩
  have hdisk (s' : Session) : (s'.call {} save).1 = .error (.disk (.absent "no/d.txt")) := by
    show ((writeText (Path.plain "no/d.txt") _ {}).1.map fun _ => Reply.saved) = _
    have hplace : Disk.resolveFile {} (Path.plain "no/d.txt") = .error (.absent "no/d.txt") := by decide +kernel
    have hwrite (content : List UInt8) :
        Disk.write {} (Path.plain "no/d.txt") content = .error (.absent "no/d.txt") := by
      unfold Disk.write
      rw [hplace]
      rfl
    rw [writeText_of_write_eq_error hwrite]
    rfl
  have hlast : lastCompleted? (s.callAll {} earlier).1 = some ⟨.parse "A --> B" true, .ok (.graph g)⟩ := by
    rw [turns_cons, turns_cons, hfirst, lastCompleted?_cons, lastCompleted?_cons, hsecond]
    rfl
  obtain ⟨-, hsome, hcall⟩ := trace_of_last_conversion hs {} earlier
  refine ⟨s, hs, ⟨g, hsome _ hlast⟩, ⟨_, hdisk _⟩, ?_⟩
  obtain ⟨-, hsave⟩ := hcall (s.callAll {} earlier).2.1 {}
  exact (hsave (.all []) (.all []) "no/d.txt").2 (hthird _)

end Session

end Flowchart
