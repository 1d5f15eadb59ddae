import Flowchart.Shape

/-!
# Mentions

A mention is what a diagram says about a node at one place: its id, its shape and its label.
`Mention.render` writes it as a declaration.
-/

namespace Flowchart

/-- A node as a line mentions it. -/
structure Mention where
  id : Text
  shape : Shape := .state
  label : Text := ""
  deriving DecidableEq, Repr

/-- The declaration of a node: its id and, in the brackets of its shape, its label. -/
def Mention.render (m : Mention) : Text :=
  m.id ++ Text.ofList m.shape.opener ++ m.label ++ Text.ofList m.shape.closer

end Flowchart
