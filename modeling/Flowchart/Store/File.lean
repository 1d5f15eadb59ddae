import Flowchart.Draft
import Flowchart.Fault
import Flowchart.Json.Parser
import Flowchart.Json.Printer
import Flowchart.Text.Lines

/-!
# Stores in files

A file store keeps graphs in a JSON document on a disk, each under a key of its own. Saving replaces the
entry under the key and keeps all others. A document that does not exist, or is empty, has no entries.
-/

namespace Flowchart.Store

/-- Actions on a disk that may fail; a failed action leaves the disk as it stands at that moment. -/
abbrev OnDisk := ExceptT Flowchart.Fault (StateM Disk)

/-- The key of stores that are given none. -/
def defaultKey : Text := "flowchart-state"

/-- A store for the graph under one key of one document. -/
structure File where
  path : String
  key : Text := defaultKey

/-- The text in a file, with all line breaks as line feeds. -/
def readText (d : Disk) (path : String) : Except Cause (List Char) := do
  let bytes ← (d.read path).mapError Cause.disk
  let s ← (Text.Utf8.decode bytes).mapError Cause.bytes
  return Text.unifyBreaks '\r' '\n' s

/-- The value in a document; an empty text stands for an empty table. -/
def valueOfText (s : List Char) : Except Cause Value :=
  if s.isEmpty then .ok (.table []) else (Json.parse s).mapError Cause.syntaxError

/-- The table in the document at a path. -/
def readTable (d : Disk) (path : String) : Except Flowchart.Fault Value.Table :=
  match d.occupied path with
  | .error f => .error (.disk f)
  | .ok false => .ok []
  | .ok true =>
    match readText d path >>= valueOfText with
    | .error cause => .error (.store (.unreadable path cause))
    | .ok (.table t) => .ok t
    | .ok _ => .error (.store (.notATable path))

/-- The content of the document of a table. -/
def bytesOfTable (t : Value.Table) : List UInt8 := Text.Utf8.encode (Json.print (.table t))

namespace File

/-- The path in its plain form. -/
def place (s : File) : String := Path.plain s.path

/-- The table in the document of a store. -/
def table (s : File) : OnDisk Value.Table := do
  match readTable (← get) s.place with
  | .ok t => return t
  | .error f => throw f

/-- Writes the document of a store. The text of the table is made before the file is opened. A null character
in the path is reported as such. -/
def writeTable (s : File) (t : Value.Table) : OnDisk Unit := do
  match Json.unprintable? (.table t) with
  | some f => throw (.unprintable f)
  | none =>
    match (← get).write s.place (bytesOfTable t) with
    | .ok d => set d
    | .error .nullCharacter => throw (.disk .nullCharacter)
    | .error f => throw (.store (.unwritable s.place (.disk f)))

/-- Saves a draft of a graph under the key of a store. -/
def saveDraft (s : File) (g : GraphDraft) : OnDisk Unit := do
  let t ← s.table
  match g.toValue with
  | .ok v => s.writeTable (t.insert (.text s.key) v)
  | .error f => throw (.value f)

/-- Saves a graph under the key of a store. -/
def save (s : File) (g : Graph) : OnDisk Unit := s.saveDraft g.draft

/-- The graph that an entry holds. An entry that is no graph makes the store corrupt, except that a
coordinate beyond the range of floats is reported as such. -/
def graphOfEntry (s : File) (v : Value) : Except Flowchart.Fault Graph :=
  match Graph.ofDocument v with
  | .ok g => .ok g
  | .error .tooLarge => .error (.value .tooLarge)
  | .error f => .error (.store (.corrupt s.key f))

/-- The graph under the key of a store, if any. -/
def load (s : File) : OnDisk (Option Graph) := do
  let t ← s.table
  match t.get? s.key with
  | none | some .null => return none
  | some v =>
    match s.graphOfEntry v with
    | .ok g => return some g
    | .error f => throw f

/-- Removes the entry under the key of a store. The document is written only if the entry is there and is
not null. -/
def clear (s : File) : OnDisk Unit := do
  let t ← s.table
  match t.get? s.key with
  | none | some .null => return
  | some _ => s.writeTable (t.erase (.text s.key))

end File

end Flowchart.Store
