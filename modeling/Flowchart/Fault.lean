import Flowchart.Json.Printer
import Flowchart.Position.Grid
import Flowchart.Store.Fault

/-!
# Faults

All that can go wrong in a conversion or in a store.
-/

namespace Flowchart

/-- Why a call fails. -/
inductive Fault where
  /-- a value names no way of layering -/
  | layering
  | grid (f : Position.Grid.Fault)
  | layout (f : Layout.Fault)
  | index (f : Index.Fault)
  | value (f : Value.Fault)
  | disk (f : Disk.Fault)
  | store (f : Store.Fault)
  /-- a value has no JSON text -/
  | unprintable (f : Json.Unprintable)
  /-- a text has no bytes -/
  | unencodable (u : Text.Utf8.Unencodable)
  deriving DecidableEq, Repr

/-- The wording of a fault. -/
def Fault.message : Fault → Text
  | .layering => "layering must be one of " ++ Text.intercalate ", " (Layering.all.map Layering.name)
  | .grid f => f.message
  | .layout f => f.message
  | .index f => f.message
  | .value f => f.message
  | .disk f => f.message
  | .store f => f.message
  | .unprintable f => f.message
  | .unencodable u => u.message

end Flowchart
