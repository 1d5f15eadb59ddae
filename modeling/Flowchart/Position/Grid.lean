import Flowchart.Layout
import Flowchart.Position.Number
import Flowchart.Position.Twister

/-!
# Positions

A grid has cells of one width and one height. A node stands at the corner of the cell of its column and
depth, moved in both directions by a random offset of at most the jitter of the grid.

Drawing an offset takes one float from the random sequence, and none if the jitter is zero. What has been
drawn stays drawn when a coordinate cannot be computed.
-/

namespace Flowchart.Position

/-- Sizes of a grid. -/
structure Grid where
  cellWidth : Number := .int 300
  cellHeight : Number := .int 200
  /-- the greatest offset -/
  jitter : Number := .int 25

/-- Why sizes are refused. -/
inductive Grid.Fault where
  | cellSize
  | jitter
  deriving DecidableEq, Repr

/-- The wording of a fault. -/
def Grid.Fault.message : Grid.Fault → Text
  | .cellSize => "cell_width and cell_height must be positive"
  | .jitter => "jitter must not be negative"

/-- Refuses cells without extent and a negative jitter. -/
def Grid.check (g : Grid) : Except Grid.Fault Unit :=
  if g.cellWidth.isNotPositive || g.cellHeight.isNotPositive then .error .cellSize
  else if g.jitter.isNegative then .error .jitter
  else .ok ()

/-- Computations that draw from a random sequence and may fail. -/
abbrev Draw := ExceptT Value.Fault (StateM Twister)

/-- Draws a float from zero to below one. -/
def drawUnit : Draw Float := fun t => let (x, t) := t.unit; (.ok x, t)

namespace Grid

/-- Draws an offset between the jitter and its opposite. -/
def offset (g : Grid) : Draw Float :=
  if g.jitter.isZero then return 0.0
  else do
    let u ← drawUnit
    let part ← g.jitter.double.mul (.float u)
    return (← g.jitter.neg.toFloat) + (← part.toFloat)

/-- A coordinate: cells of a size, and an offset. -/
def coordinate (g : Grid) (count size : Number) : Draw Float := do
  let corner ← count.mul size
  let moved ← g.offset
  return (← corner.toFloat) + moved

/-- The position of a cell. -/
def position (g : Grid) (depth column : Number) : Draw (Float × Float) := do
  let x ← g.coordinate column g.cellWidth
  let y ← g.coordinate depth g.cellHeight
  return (x, y)

/-- The positions of some cells, each given by its depth and column, drawn one after the other. -/
def positions (g : Grid) : Entries (Number × Number) → Draw (Entries (Float × Float))
  | [] => return []
  | (id, depth, column) :: rest => do
    let point ← g.position depth column
    return (id, point) :: (← g.positions rest)

/-- The positions of the nodes of a layout, drawn band by band. -/
def positionsOf (g : Grid) (l : Layout) : Draw (Entries (Float × Float)) :=
  g.positions (l.placements.map fun (id, p) => (id, .int p.depth, .int p.column))

end Grid

end Flowchart.Position
