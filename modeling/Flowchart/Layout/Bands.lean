import Flowchart.Layout.Fault

/-!
# Bands

The nodes of one depth form a band, in which they keep their order. `bandsOf` gives the bands from depth zero
to the greatest depth.
-/

namespace Flowchart.Layout

/-- The number of bands, the last one being that of the greatest depth. -/
def bandCount (ds : List Int) : Nat :=
  match ds with
  | [] => 0
  | d :: ds => (ds.foldl max d + 1).toNat

/-- The band that a depth denotes; a negative depth counts from the last band. -/
def bandOf (count : Nat) (depth : Int) : Except Fault Nat :=
  (Index.resolve count depth).mapError Fault.index

/-- The nodes of `order` by band. -/
def bandsOf (order : List Text) (depths : Entries Int) : Except Fault (List (List Text)) := do
  let ds ← order.mapM (depthOf depths)
  let count := bandCount ds
  let places ← ds.mapM (bandOf count)
  return (List.range count).map fun band =>
    ((order.zip places).filter (·.2 == band)).map Prod.fst

end Flowchart.Layout
