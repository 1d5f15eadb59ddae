import Flowchart.Text.Quoted
import Flowchart.Value.Table
import Flowchart.Value.Text

/-!
# Traces

A trace records what each stage of a conversion has found. It can be shown as a summary or as a report on all
stages.
-/

namespace Flowchart

/-- What a stage has found, by name. -/
structure Stage where
  name : Text
  data : Value.Table

/-- The record of one conversion. -/
structure Trace where
  operation : Text := "parse"
  stages : List Stage := []
  inputText : Text := ""
  outputText : Text := ""

/-- The first `length` characters of a text, and three dots if there are more. -/
def shorten (length : Nat) (s : Text) : Text :=
  let cs := s.toList
  if cs.length > length then Text.ofList (cs.take length) ++ "..." else s

/-- Lines with breaks between them. -/
def joinLines (ls : List Text) : Text := Text.intercalate "\n" ls

/-- A line of one character. -/
def rule (c : CodePoint) (length : Nat) : Text := Text.ofList (List.replicate length c)

namespace Stage

/-- A stage with its data, one line for each, cut after 100 characters. -/
def text (s : Stage) : Text :=
  joinLines (("=== Stage: " ++ s.name ++ " ===") ::
    s.data.map fun (key, value) => "  " ++ key.toText ++ ": " ++ shorten 100 value.toText)

/-- A stage with its data and an empty line behind it. -/
def paragraph (s : Stage) : List Text := [s.text, ""]

/-- The line of a stage in a summary. -/
def summaryLine (s : Stage) : Text :=
  "  " ++ s.name ++ " (" ++ toString s.data.length ++ " entries)"

end Stage

namespace Trace

/-- The trace with one more stage. -/
def push (t : Trace) (name : Text) (data : Value.Table) : Trace :=
  { t with stages := t.stages ++ [⟨name, data⟩] }

/-- The first stage with a name. -/
def stage? (t : Trace) (name : Text) : Option Stage := t.stages.find? (·.name == name)

/-- The names of the stages. -/
def names (t : Trace) : List Text := t.stages.map Stage.name

/-- The text that a summary shows: what was parsed, or what was generated. -/
def shownText (t : Trace) : Text := if t.operation == "parse" then t.inputText else t.outputText

/-- The quoted beginning of a text, and three dots if it goes on. -/
def preview (s : Text) : Text :=
  let cs := s.toList
  Text.quoted (Text.ofList (cs.take 100)) ++ (if cs.length > 100 then "..." else "")

/-- A summary in which each stage has a line. -/
def summary (t : Trace) : Text :=
  joinLines ([rule '=' 60, "CONVERSION TRACE SUMMARY", rule '=' 60, "",
    "Operation: " ++ t.operation, "Text: " ++ preview t.shownText, "",
    "Pipeline stages: " ++ toString t.stages.length] ++ t.stages.map Stage.summaryLine)

/-- The summary and all stages with their data. -/
def report (t : Trace) : Text :=
  joinLines ([t.summary, "", rule '=' 60, "DETAILED TRACE", rule '=' 60, "", "PIPELINE STAGES:",
    rule '-' 40] ++ t.stages.flatMap Stage.paragraph)

end Trace

end Flowchart
