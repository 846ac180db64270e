import Barogrid.Box
import Barogrid.Failure

/-!
# Queries for readings

A query asks for the readings of a window of time, and optionally of a box, up to a limit.  Times are
milliseconds since 1970.  A window is a 64-bit number of milliseconds, and its ends must be
representable dates; a window that breaks either rule has no query.
-/

namespace Barogrid

/-- A window of time in milliseconds. -/
structure TimeWindow where
  /-- Its length; negative if it ends before it begins. -/
  millis : Int
deriving DecidableEq, Repr

namespace TimeWindow

/-- The greatest number of milliseconds of a window. -/
def greatest : Int := IntegerRange.int64.greatest

/-- The window of a number of milliseconds.  The least 64-bit number is left out, so that every window
can be turned around. -/
def ofMillis (n : Int) : Except Failure TimeWindow :=
  if -greatest ≤ n ∧ n ≤ greatest then .ok ⟨n⟩ else .error (.overflow "time window")

/-- The window of a number of seconds. -/
def ofSeconds (n : Int) : Except Failure TimeWindow := ofMillis (n * 1000)

end TimeWindow

namespace Instant

/-- The first instant of the first representable date. -/
def first : Int := -8334601228800000

/-- The last instant of the last representable date. -/
def last : Int := 8210266876799999

/-- Is the instant representable? -/
def isRepresentable (t : Int) : Bool := first ≤ t && t ≤ last

end Instant

/-- What readings are asked for. -/
structure Query where
  startTime : Int
  endTime : Int
  /-- The box, or everything. -/
  box : Option Box
  /-- The greatest number of readings. -/
  limit : Nat
deriving DecidableEq

namespace Query

/-- The query for a window that ends at the given instant. -/
def endingAt (endTime : Int) (box : Option Box) (window : TimeWindow) (limit : Nat) :
    Except Failure Query :=
  let startTime := endTime - window.millis
  if Instant.isRepresentable endTime && Instant.isRepresentable startTime then
    .ok ⟨startTime, endTime, box, limit⟩
  else .error (.overflow "start of the time window")

/-- The parameters of a box in a request. -/
def boxParameters (b : Box) : List (String × String) :=
  [("min_latitude", b.south.plain), ("max_latitude", b.north.plain),
    ("min_longitude", b.west.plain), ("max_longitude", b.east.plain)]

/-- The parameters of a request to the readings service. -/
def parameters (q : Query) : List (String × String) :=
  [("format", "json"), ("start_time", toString q.startTime), ("end_time", toString q.endTime)] ++
    (q.box.map boxParameters).getD [] ++ [("limit", toString q.limit)]

end Query

end Barogrid
