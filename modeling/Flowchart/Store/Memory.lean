import Flowchart.Graph

/-!
# Stores in memory

A memory store keeps the last graph that was saved, as a table. What is kept cannot be changed from outside: a caller
that goes on changing the values inside a viewport after it has been saved is left out.
-/

namespace Flowchart.Store

/-- A store for one graph. -/
structure Memory where
  saved : Option Value := none

namespace Memory

/-- The store after a graph has been saved. -/
def save (_ : Memory) (g : Graph) : Memory := ⟨some g.toValue⟩

/-- The graph that was saved last, if any. -/
def load (m : Memory) : Except Value.Fault (Option Graph) :=
  match m.saved with
  | none => .ok none
  | some v => some <$> Graph.ofValue v

/-- The store without its graph. -/
def clear (_ : Memory) : Memory := {}

end Memory

end Flowchart.Store
