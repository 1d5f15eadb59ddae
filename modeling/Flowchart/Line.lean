import Flowchart.Text.Alphanumeric
import Flowchart.Text.Blank
import Flowchart.Text.Lines
import Flowchart.Text.Search

/-!
# Significant lines

A diagram is read line by line. Blank lines, comments and the header say nothing about the graph; a line
with an arrow connects two nodes, and any other line declares one.
-/

namespace Flowchart

/-- The arrow between the two ends of a connection. -/
def arrow : List CodePoint := ['-', '-', '>']

/-- What a line does. -/
inductive Line.Kind where
  | declaration
  | connection
  deriving DecidableEq, Repr

/-- The name of a kind. -/
def Line.Kind.name : Line.Kind → Text
  | .declaration => "declaration"
  | .connection => "edge"

/-- A line that says something about the graph, without the blanks around it. -/
structure Line where
  /-- its place in the text, the first line being number one -/
  number : Nat
  kind : Line.Kind
  text : Text
  deriving DecidableEq, Repr

namespace Line

/-- The words that open a diagram. -/
def headerWords : List (List CodePoint) := [Text.toList "graph", Text.toList "flowchart"]

/-- Whether a header may end with `s`: blanks, then perhaps a word and more blanks. -/
def isHeaderEnd (s : List CodePoint) : Bool :=
  s.head?.all Text.isBlank && ((s.dropWhile Text.isBlank).dropWhile Text.isWordChar).all Text.isBlank

/-- Whether a line is a header: one of the header words, in any case, and perhaps a direction. -/
def isHeader (s : List CodePoint) : Bool :=
  headerWords.any fun word =>
    word.isPrefixOf (s.map CodePoint.toLower) && isHeaderEnd (s.drop word.length)

/-- What a comment starts with. -/
def commentMark : List CodePoint := ['%', '%']

/-- Whether a line is a comment. -/
def isComment (s : List CodePoint) : Bool := commentMark.isPrefixOf s

/-- The kind of a line without blanks around it. -/
def kindOf (s : List CodePoint) : Kind := if Text.occurs arrow s then .connection else .declaration

/-- The significant line that line number `number` amounts to, if any. -/
def ofRaw? (number : Nat) (raw : List CodePoint) : Option Line :=
  let s := Text.strip raw
  if s.isEmpty || isHeader s || isComment s then none
  else some ⟨number, kindOf s, Text.ofList s⟩

/-- The significant lines of a text. -/
def ofText (s : Text) : List Line :=
  ((Text.lines s.toList).zipIdx 1).filterMap fun (raw, number) => ofRaw? number raw

end Line

end Flowchart
