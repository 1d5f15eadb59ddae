import Flowchart.Fragment
import Flowchart.Line

/-!
# Connections

A line with an arrow mentions the source before the first arrow and the target behind it. Bars behind the
arrow enclose the label of the connection: the label is the text between the first and the last one, and
the target follows the last one.
-/

namespace Flowchart

/-- Two mentioned nodes, and the label of the arrow from one to the other. -/
structure Connection where
  source : Mention
  label : Text
  target : Mention
  deriving DecidableEq, Repr

namespace Connection

/-- The label, without the blanks around it, and the target part of what follows the arrow. -/
def labelAndTarget (s : List CodePoint) : List CodePoint × List CodePoint :=
  match Text.splitLast ['|'] s with
  | none => ([], s)
  | some (before, target) =>
    match Text.splitFirst ['|'] before with
    | none => ([], target)
    | some (_, label) => (Text.strip label, target)

/-- The parts before and behind the first arrow; without an arrow the second part is empty. -/
def sides (s : List CodePoint) : List CodePoint × List CodePoint := (Text.splitFirst arrow s).getD (s, [])

/-- The connection that a line describes. -/
def ofText (s : Text) : Connection :=
  let (source, rest) := sides s.toList
  let (label, target) := labelAndTarget rest
  ⟨Fragment.mention source, Text.ofList label, Fragment.mention target⟩

end Connection

end Flowchart
