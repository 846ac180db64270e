import Barogrid.Color.Gradient
import Barogrid.Grid.Cell
import Barogrid.Statistics

/-!
# The colored map

Each cell is drawn in a color that says where its value stands among the visible readings: its
distance from their median, in standard deviations, goes through the logistic curve to a number from
0 to 100, and this number through the gradient to a color.  Without a spread every cell is drawn in
the middle of the gradient.
-/

namespace Barogrid

/-- A cell as it is drawn. -/
structure DrawnCell where
  key : Geohash.Hash
  bounds : Bounds
  color : Color
  opacity : Binary64
  /-- Where its value stands among the readings, from 0 to 100. -/
  normalized : Nat
  average : Binary64
  isFilled : Bool
deriving DecidableEq

/-- What is drawn: cells, and the summary of the visible readings if there are any. -/
structure Picture where
  /-- The cells, by ascending key. -/
  cells : List DrawnCell := []
  summary : Option Statistics.Summary := none
deriving DecidableEq

namespace Choropleth

/-- Where cells are drawn when the readings have no spread. -/
def neutral : Nat := 50

/-- Where a value stands among readings of the given median and standard deviation. -/
def normalize [Exponential] (average median stdev : Binary64) : Nat :=
  if stdev.isZero || !stdev.isFinite then neutral
  else min (Statistics.logistic ((average - median) / stdev) * 100).roundNat 100

/-- A cell, drawn. -/
def draw [Exponential] (summary : Statistics.Summary) (gradient : Gradient) (opacity : Binary64)
    (c : Cell) : DrawnCell :=
  let normalized := normalize c.average summary.median summary.stdev
  { key := c.key
    bounds := c.bounds
    color := gradient.colorAt (Binary64.ofNat normalized)
    opacity
    normalized
    average := c.average
    isFilled := c.isFilled }

/-- **The picture of a map of cells** beside the given visible readings; without any there is nothing
to draw. -/
def project [Exponential] (cells : CellMap) (visible : List Reading) (gradient : Gradient)
    (opacity : Binary64) : Except Failure Picture := do
  if visible.isEmpty then return {}
  let summary ← Statistics.summary (visible.map Reading.value)
  return { cells := cells.cells.map (draw summary gradient opacity), summary := some summary }

end Choropleth

end Barogrid
