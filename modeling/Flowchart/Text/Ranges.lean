import Flowchart.Text.Basic

/-!
# Ranges of code points

A class of characters is given by the list of its ranges of code points, both ends included.
-/

namespace Flowchart.Text

/-- Whether `c` lies in one of `ranges`. -/
def inRanges (ranges : List (Nat × Nat)) (c : CodePoint) : Bool :=
  ranges.any fun (first, last) => first ≤ c.toNat && c.toNat ≤ last

end Flowchart.Text
