import Barogrid.Binary64.Arithmetic
import Barogrid.Settings

/-!
# Key length from zoom

The closer a map is zoomed in, the longer are the keys of its cells.  The zoom level is held in the
range of the settings; its distance from the lower end, as a part of the upper end, is the part of
the span of key lengths that is added to the least one.

The distance is a 32-bit number and the length a 64-bit one; where one does not fit, there is no
answer.
-/

namespace Barogrid.Resolution

/-- A zoom level moved into the range of the settings. -/
def heldZoom (zoom : Int) (s : Settings) : Int := min (max zoom s.minZoom) s.maxZoom

/-- How far the zoom level has come, in the steps of the settings. -/
def zoomOffset (zoom : Int) (s : Settings) : Int := heldZoom zoom s - s.minZoom

/-- The part of the span of key lengths that belongs to a zoom offset, rounded. -/
def lengthOffset (offset : Int) (s : Settings) : Nat :=
  let ratio := Binary64.ofInt offset / Binary64.ofInt s.maxZoom
  let span := Binary64.ofNat (s.maxLength - s.minLength)
  (ratio * span).roundNat

/-- The length of the keys at a zoom level. -/
def keyLength (zoom : Int) (s : Settings) : Except Failure Nat :=
  let offset := zoomOffset zoom s
  if !IntegerRange.int32.contains offset then .error (.overflow "zoom offset")
  else
    let length := lengthOffset offset s + s.minLength
    if !IntegerRange.word.contains length then .error (.overflow "key length")
    else .ok (min (max length s.minLength) s.maxLength)

end Barogrid.Resolution
