import Flowchart.Value.Reading
import Flowchart.Value.Text

/-!
# Edges

`Edge.toValue` gives an edge as a table, and `Edge.ofValue` reads one.
-/

namespace Flowchart

/-- A labelled edge between two nodes, which are given by their ids. -/
structure Edge where
  id : Text
  source : Text
  target : Text
  label : Text := ""
  deriving DecidableEq, Repr

namespace Edge

/-- The id of an edge that was given none, made of its place in the graph and its two ends. -/
def derivedId (place source target : Text) : Text :=
  "e" ++ place ++ "-" ++ source ++ "-" ++ target

/-- An edge as a table. -/
def toValue (e : Edge) : Value :=
  .table [(.text "id", .text e.id), (.text "source", .text e.source), (.text "target", .text e.target),
    (.text "label", .text e.label)]

/-- Reads the edge at a place of a graph. The two ends must be given; an id that is absent or empty is
derived. -/
def ofValue (place : Text) (v : Value) : Except Value.Fault Edge := do
  let source := (← v.entry "source").toText
  let target := (← v.entry "target").toText
  let id ← v.lookup "id" .null
  let label ← v.lookup "label" .null
  return {
    id := if id.isPresent then id.toText else derivedId place source target
    source, target
    label := label.presentText }

end Edge

end Flowchart
