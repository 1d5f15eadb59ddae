import Flowchart.Disk
import Flowchart.Json.Fault
import Flowchart.Text.Utf8
import Flowchart.Value.Reading

/-!
# Faults of stores
-/

namespace Flowchart.Store

/-- Why a document cannot be read or written. -/
inductive Cause where
  | disk (f : Disk.Fault)
  | bytes (f : Text.Utf8.Fault)
  | syntaxError (f : Json.Fault)
  deriving DecidableEq, Repr

/-- The wording of a cause. -/
def Cause.message : Cause → Text
  | .disk f => f.message
  | .bytes f => f.message
  | .syntaxError f => f.message

/-- Why a store cannot do what it was asked to. -/
inductive Fault where
  | unreadable (path : String) (cause : Cause)
  | notATable (path : String)
  | unwritable (path : String) (cause : Cause)
  /-- the entry under a key is not a graph -/
  | corrupt (key : Text) (cause : Value.Fault)
  deriving DecidableEq, Repr

/-- The wording of a fault. -/
def Fault.message : Fault → Text
  | .unreadable path cause => "Cannot read graph store " ++ path ++ ": " ++ cause.message
  | .notATable path => "Graph store " ++ path ++ " is not a JSON object"
  | .unwritable path cause => "Cannot write graph store " ++ path ++ ": " ++ cause.message
  | .corrupt key cause => "Corrupt graph entry '" ++ key ++ "': " ++ cause.message

end Flowchart.Store
