import Flowchart.Digraph

/-!
# Cycles

`closingEdge?` searches a graph for a cycle and returns the edge that closes it. `backEdges` removes such
an edge and searches again until no cycle is left; without the removed edges the graph has none.

The search follows `edgeWalk`, which goes along every edge that can be reached from a node, as deep as it
can before it turns to the next one. The search keeps the active path, which leads from the first node of
the walk to the tail of the current edge: an edge to a node on the active path closes a cycle.
-/

namespace Flowchart.Layout

theorem successorCount_set {pending : Entries (List Text)} {u v : Text} {vs : List Text}
    (h : pending.get? u = some (v :: vs)) : (pending.set u vs).successorCount + 1 = pending.successorCount := by
  induction pending with
  | nil => simp [Entries.get?] at h
  | cons e pending ih =>
    obtain ⟨w, ws⟩ := e
    simp only [Entries.get?, List.lookup_cons] at h ih
    by_cases hw : w = u
    · subst hw
      simp only [beq_self_eq_true, Option.some.injEq] at h
      subst h
      simp only [Entries.set, beq_self_eq_true, if_true, Entries.successorCount, List.flatMap_cons,
        List.length_append, List.length_cons]
      omega
    · have hw' : (u == w) = false := by simpa using Ne.symm hw
      rw [hw'] at h
      have := ih h
      simp only [Entries.set, beq_iff_eq, hw, if_false, Entries.successorCount, List.flatMap_cons,
        List.length_append] at this ⊢
      omega

/-- The edges in the order of the walk, `path` being the nodes on the way back to the start and `pending`
the edges that the walk has not taken. -/
def edgeWalk (pending : Entries (List Text)) (path : List Text) : List (Text × Text) :=
  match path with
  | [] => []
  | u :: back =>
    match _h : pending.get? u with
    | some (v :: vs) => (u, v) :: edgeWalk (pending.set u vs) (v :: u :: back)
    | _ => edgeWalk pending back
termination_by 2 * pending.successorCount + path.length
decreasing_by
  · have := successorCount_set _h
    simp only [List.length_cons]
    omega
  · simp only [List.length_cons]
    omega

/-- How far the search from one node has come. -/
structure Trail where
  /-- the edges of the active path, latest first -/
  path : List (Text × Text)
  /-- the nodes of the active path -/
  active : List Text
  /-- the nodes that have been met -/
  seen : List Text
  /-- the head of the latest edge -/
  latest : Option Text

namespace Trail

/-- The search before its first edge. -/
def start (v : Text) : Trail := ⟨[], [v], [v], none⟩

/-- The active path without its end behind `tail`. -/
def backTo (tail : Text) : List (Text × Text) → List Text → List (Text × Text) × List Text
  | [], _ => ([], [tail])
  | (_, head) :: path, active =>
    if path.head?.map Prod.snd == some tail then (path, active.erase head)
    else backTo tail path (active.erase head)

/-- The search when the walk goes on from `tail`, which is the end of the active path unless the walk has
turned back. -/
def turn (t : Trail) (tail : Text) : Trail :=
  match t.latest with
  | none => t
  | some head =>
    if head == tail then t
    else
      let (path, active) := backTo tail t.path t.active
      { t with path, active }

/-- The search after an edge that closes no cycle. -/
def extend (t : Trail) (tail head : Text) : Trail :=
  ⟨(tail, head) :: t.path, head :: t.active, head :: t.seen, some head⟩

/-- Follows a walk up to the first edge that closes a cycle, or returns the nodes met if there is none.
Edges to explored nodes are passed over: from there no cycle can be reached. -/
def follow (explored : List Text) : Trail → List (Text × Text) → (Text × Text) ⊕ List Text
  | t, [] => .inr t.seen
  | t, (tail, head) :: walk =>
    if explored.contains head then t.follow explored walk
    else
      let t := t.turn tail
      if t.active.contains head then .inl (tail, head)
      else (t.extend tail head).follow explored walk

end Trail

end Flowchart.Layout

namespace Flowchart.Digraph

/-- Searches from each node that has not been explored by the searches before. -/
def searchFrom? (g : Digraph) (explored : List Text) : List Text → Option (Text × Text)
  | [] => none
  | v :: vs =>
    if explored.contains v then g.searchFrom? explored vs
    else
      match (Layout.Trail.start v).follow explored (Layout.edgeWalk g.successors [v]) with
      | .inl e => some e
      | .inr seen => g.searchFrom? (seen ++ explored) vs

/-- The last edge of the first cycle that the search meets. -/
def closingEdge? (g : Digraph) : Option (Text × Text) := g.searchFrom? [] g.nodes

/-- Removes closing edges from a graph until it has no cycle, or at most `bound` of them. -/
def backEdgesUpTo : Nat → Digraph → List (Text × Text)
  | 0, _ => []
  | bound + 1, g =>
    match g.closingEdge? with
    | none => []
    | some (u, v) => (u, v) :: backEdgesUpTo bound (g.removeEdge u v)

/-- Edges without which the graph has no cycle, in the order of their removal. -/
def backEdges (g : Digraph) : List (Text × Text) := backEdgesUpTo g.edges.length g

end Flowchart.Digraph
