import Barogrid.Choropleth
import Barogrid.Grid.Binning
import Barogrid.Grid.Filling
import Barogrid.Resolution
import Barogrid.Selection

/-!
# Rendering a viewport

From readings to a picture: choose the key length and the visible readings, bin them, fill the gaps
and draw the cells.
-/

namespace Barogrid

/-- What a rendering yields: the picture, the length of its keys, and how many readings were visible
and how many cells filled in. -/
structure Rendering where
  picture : Picture := {}
  keyLength : Nat
  visible : Nat := 0
  filled : Nat := 0
deriving DecidableEq

/-- The picture of a viewport. -/
def Rendering.of [Exponential] (readings : List Reading) (viewport : Viewport) (s : Settings)
    (gradient : Gradient) : Except Failure Rendering := do
  let keyLength ← Resolution.keyLength viewport.zoom s
  let visible := Selection.visible readings viewport.box s
  if visible.isEmpty then return { keyLength }
  let binned ← Binning.bin visible keyLength
  let filling := Filling.fill binned s.passes
  let created ← filling.created
  let picture ← Choropleth.project filling.cells visible gradient s.opacity
  return { picture, keyLength, visible := visible.length, filled := created.foldl (· + ·) 0 }

end Barogrid
