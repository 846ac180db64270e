import Barogrid.Box
import Barogrid.Reading
import Barogrid.Settings

/-!
# Choosing the readings to draw

A reading is visible when it is well formed, its value lies in the range of the settings and its
place lies in the box that is shown.
-/

namespace Barogrid.Selection

/-- The readings whose value lies in `min` … `max`. -/
def inRange (readings : List Reading) (min max : Binary64) : List Reading :=
  readings.filter fun r => r.value.within min max

/-- The readings whose place lies in a box. -/
def inBox (readings : List Reading) (box : Box) : List Reading :=
  readings.filter fun r => box.contains r.place.longitude r.place.latitude

/-- The visible readings. -/
def visible (readings : List Reading) (box : Box) (s : Settings) : List Reading :=
  inBox (inRange (readings.filter Reading.isWellFormed) s.minPressure s.maxPressure) box

end Barogrid.Selection
