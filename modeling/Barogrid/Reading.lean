import Barogrid.Geohash.Bounds

/-!
# Readings

One pressure reading of one sensor.
-/

namespace Barogrid

/-- What a sensor reported. -/
structure Reading where
  place : Place
  /-- The pressure, in hectopascals. -/
  value : Binary64
  /-- When it was taken, in milliseconds since 1970; a 64-bit number. -/
  time : Int
deriving DecidableEq

/-- Is the place on the globe and the value a number?  Nothing else can be drawn. -/
def Reading.isWellFormed (r : Reading) : Bool := r.place.onGlobe && r.value.isFinite

end Barogrid
