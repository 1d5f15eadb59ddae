import Flowchart.Digraph

/-!
# Depths by first visit

Each node that has not been visited, in the order of the nodes, starts a walk at depth zero. A walk visits
the successors of a node in order and goes as deep as it can before it turns to the next one; a node is
one deeper than the node from which it was first visited.

The nodes that the walk has still to look at are kept in a stack, each with the depth it will get. The
successors of a node are taken out of `Walk.pending` at its visit, which bounds the walk.
-/

namespace Flowchart.Layout

/-- The successors of `v`, and the pending edges without those from `v`. -/
def takeSuccessors (v : Text) : Entries (List Text) → List Text × Entries (List Text)
  | [] => ([], [])
  | (u, vs) :: pending =>
    if u == v then (vs, pending)
    else
      let (found, rest) := takeSuccessors v pending
      (found, (u, vs) :: rest)

theorem successorCount_takeSuccessors (v : Text) (pending : Entries (List Text)) :
    (takeSuccessors v pending).1.length + (takeSuccessors v pending).2.successorCount =
      pending.successorCount := by
  fun_induction takeSuccessors v pending with
  | case1 => rfl
  | case2 => simp [Entries.successorCount]
  | case3 u vs pending _ _ _ h ih =>
    rw [h] at ih
    simp only [Entries.successorCount, List.flatMap_cons, List.length_append] at ih ⊢
    omega

/-- How far the walks have come. -/
structure Walk where
  pending : Entries (List Text)
  visited : List Text := []
  depths : Entries Nat

/-- The visit of `v` at a depth. -/
def Walk.visit (w : Walk) (v : Text) (depth : Nat) : Walk where
  pending := (takeSuccessors v w.pending).2
  visited := v :: w.visited
  depths := w.depths.set v depth

/-- What the visit of `v` adds to the stack: its successors, as far as they have not been visited. -/
def Walk.children (w : Walk) (v : Text) (depth : Nat) : List (Text × Nat) :=
  ((takeSuccessors v w.pending).1.filter (! (v :: w.visited).contains ·)).map (·, depth + 1)

/-- Visits the nodes on the stack, the first of them first. -/
def Walk.run (w : Walk) (stack : List (Text × Nat)) : Walk :=
  match stack with
  | [] => w
  | (v, depth) :: rest =>
    if w.visited.contains v then w.run rest
    else (w.visit v depth).run (w.children v depth ++ rest)
termination_by stack.length + w.pending.successorCount
decreasing_by
  · simp only [List.length_cons]
    omega
  · have h := successorCount_takeSuccessors v w.pending
    have hf := List.length_filter_le (! (v :: w.visited).contains ·) (takeSuccessors v w.pending).1
    simp only [Walk.visit, Walk.children, List.length_append, List.length_map, List.length_cons]
    omega

/-- The state before the first walk, with every node at depth zero. -/
def Walk.start (order : List Text) (adjacency : Entries (List Text)) : Walk where
  pending := adjacency
  depths := Entries.ofPairs (order.map (·, 0))

/-- The depth of each node. Nodes outside `order` follow in the order of their visits. -/
def firstVisitDepths (order : List Text) (adjacency : Entries (List Text)) : Entries Nat :=
  (order.foldl (fun w root => w.run [(root, 0)]) (Walk.start order adjacency)).depths

end Flowchart.Layout
