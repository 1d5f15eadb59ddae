import Flowchart.Mention
import Flowchart.Text.Blank
import Flowchart.Text.Search

/-!
# Fragments

A fragment is the part of a line that mentions one node, such as an id alone or an id with a label in
brackets. Every fragment has a reading: without brackets the id is the label, and without an id the label
or else the whole fragment is the id.
-/

namespace Flowchart.Fragment

/-- Whether a character ends the id at the start of a fragment. -/
def endsIdentifier (c : CodePoint) : Bool := Text.isBlank c || c == '(' || c == '[' || c == '\x7b'

/-- The text up to the first blank or bracket. -/
def identifier (f : List CodePoint) : List CodePoint := (Text.strip f).takeWhile (! endsIdentifier ·)

/-- The text between the first opener of a shape and the last closer behind it. -/
def enclosed? (shape : Shape) (f : List CodePoint) : Option (List CodePoint) := do
  let (_, inside) ← Text.splitFirst shape.opener f
  let (label, _) ← Text.splitLast shape.closer inside
  return Text.strip label

/-- The first shape whose brackets enclose a part of the fragment, and that part. -/
def bracketed? (f : List CodePoint) : Option (Shape × List CodePoint) :=
  Shape.all.findSome? fun shape => (enclosed? shape f).map (shape, ·)

/-- The shape of the node that a fragment mentions. -/
def shape (f : List CodePoint) : Shape :=
  match bracketed? f with
  | some (shape, _) => shape
  | none => .state

/-- The label in a fragment, the id if there is none. -/
def label (f : List CodePoint) : List CodePoint :=
  match bracketed? f with
  | some (_, []) | none => identifier f
  | some (_, label) => label

/-- The first text, or the second if the first is empty. -/
def orElse (s t : List CodePoint) : List CodePoint := if s.isEmpty then t else s

/-- The node that a fragment mentions. -/
def mention (f : List CodePoint) : Mention :=
  match bracketed? f with
  | none =>
    let id := Text.ofList (orElse (identifier f) (Text.strip f))
    ⟨id, .state, id⟩
  | some (shape, label) =>
    let id := orElse (identifier f) (orElse label (Text.strip f))
    ⟨Text.ofList id, shape, Text.ofList (orElse label id)⟩

end Flowchart.Fragment
