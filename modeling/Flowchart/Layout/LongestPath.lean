import Flowchart.Layout.Cycle
import Flowchart.Layout.Fault

/-!
# Depths by longest path

Without its back edges a graph has a topological order. Along it each node gets a depth one greater than
the deepest of its predecessors, which is the length of a longest path to it.
-/

namespace Flowchart.Digraph

/-- The successors of `v` that have no predecessor outside `done`. -/
def freed (g : Digraph) (done : List Text) (v : Text) : List Text :=
  (g.next v).filter fun w => (g.previous w).all done.contains

/-- Takes the nodes of a queue one after the other and queues those that become free, for at most `bound`
nodes. The nodes in `done` have been taken, latest first. -/
def takeFree (g : Digraph) : Nat → List Text → List Text → List Text
  | 0, _, done => done.reverse
  | _, [], done => done.reverse
  | bound + 1, v :: queue, done =>
    g.takeFree bound (queue ++ g.freed (v :: done) v) (v :: done)

/-- The nodes that can be taken, each behind its predecessors. Nodes on a cycle and behind one are left out. -/
def takenInOrder (g : Digraph) : List Text :=
  g.takeFree g.nodes.length (g.nodes.filter fun v => (g.previous v).isEmpty) []

/-- All nodes, each behind its predecessors. -/
def topologicalOrder (g : Digraph) : Except Layout.Fault (List Text) :=
  if g.takenInOrder.length == g.nodes.length then .ok g.takenInOrder else .error .cycle

/-- One more than the greatest depth of the predecessors of `v`, zero if there are none. -/
def depthBehind (g : Digraph) (depths : Entries Nat) (v : Text) : Except Layout.Fault Nat := do
  let ds ← (g.previous v).mapM (Layout.depthOf depths)
  return (ds.map (· + 1)).foldl max 0

/-- The depths of some nodes, found one after the other, with those found before. -/
def pathDepthsFrom (g : Digraph) (depths : Entries Nat) : List Text → Except Layout.Fault (Entries Nat)
  | [] => return depths
  | v :: vs => do g.pathDepthsFrom (depths.set v (← g.depthBehind depths v)) vs

/-- The depths of the nodes in topological order. -/
def pathDepths (g : Digraph) : Except Layout.Fault (Entries Nat) := do
  g.pathDepthsFrom [] (← g.topologicalOrder)

end Flowchart.Digraph

namespace Flowchart.Layout

/-- The depth of each node in topological order, and the back edges that were left out. -/
def longestPathDepths (order : List Text) (adjacency : Entries (List Text)) :
    Except Fault (Entries Nat × List (Text × Text)) := do
  let g := Digraph.ofAdjacency order adjacency
  let depths ← (g.removeEdges g.backEdges).pathDepths
  return (depths, g.backEdges)

end Flowchart.Layout
