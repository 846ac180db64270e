import Barogrid.Binary64.Arithmetic

/-!
# Places and bounds

A place is a latitude and a longitude; the bounds of a cell are an interval of each.  Halving the
bounds along one axis is the only step from which the grid is made.

`Interval.mid`, `Interval.width` and the halves are computed on doubles, so that bounds which have
become too narrow for doubles are what double arithmetic makes of them.
-/

namespace Barogrid

/-- A latitude and a longitude, in degrees north and east. -/
structure Place where
  latitude : Binary64
  longitude : Binary64
deriving DecidableEq

/-- The two axes of the globe. -/
inductive Axis where
  | latitude
  | longitude
deriving DecidableEq, Repr

/-- The axis that is halved next. -/
def Axis.other : Axis → Axis
  | .latitude => .longitude
  | .longitude => .latitude

/-- The coordinate of a place on an axis. -/
def Place.along (p : Place) : Axis → Binary64
  | .latitude => p.latitude
  | .longitude => p.longitude

/-- Does the place lie on the globe?  A NaN does not. -/
def Place.onGlobe (p : Place) : Bool :=
  p.latitude.within (-90) 90 && p.longitude.within (-180) 180

/-- An interval of doubles. -/
structure Interval where
  lo : Binary64
  hi : Binary64
deriving DecidableEq

namespace Interval

/-- The middle. -/
def mid (i : Interval) : Binary64 := (i.lo + i.hi).half

/-- The width. -/
def width (i : Interval) : Binary64 := i.hi - i.lo

/-- The upper or the lower half. -/
def half (i : Interval) (upper : Bool) : Interval :=
  if upper then { i with lo := i.mid } else { i with hi := i.mid }

/-- Does `x` lie in the interval, ends included? -/
def contains (i : Interval) (x : Binary64) : Bool := x.within i.lo i.hi

end Interval

/-- The bounds of a cell. -/
structure Bounds where
  latitude : Interval
  longitude : Interval
deriving DecidableEq

namespace Bounds

/-- The whole globe. -/
def world : Bounds := ⟨⟨-90, 90⟩, ⟨-180, 180⟩⟩

/-- The interval on an axis. -/
def along (b : Bounds) : Axis → Interval
  | .latitude => b.latitude
  | .longitude => b.longitude

/-- The upper or the lower half along an axis. -/
def half (b : Bounds) (axis : Axis) (upper : Bool) : Bounds :=
  match axis with
  | .latitude => { b with latitude := b.latitude.half upper }
  | .longitude => { b with longitude := b.longitude.half upper }

/-- The middle. -/
def center (b : Bounds) : Place := ⟨b.latitude.mid, b.longitude.mid⟩

/-- Does the place lie in the bounds, edges included? -/
def contains (b : Bounds) (p : Place) : Bool :=
  b.latitude.contains p.latitude && b.longitude.contains p.longitude

/-- Halving along one axis leaves the other as it was. -/
theorem along_half_other (b : Bounds) (axis : Axis) (upper : Bool) :
    (b.half axis upper).along axis.other = b.along axis.other := by
  cases axis <;> rfl

/-- Halving along an axis halves the interval there. -/
theorem along_half (b : Bounds) (axis : Axis) (upper : Bool) :
    (b.half axis upper).along axis = (b.along axis).half upper := by
  cases axis <;> rfl

end Bounds

end Barogrid
