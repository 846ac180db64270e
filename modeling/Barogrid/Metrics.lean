import Barogrid.Binary64.Arithmetic

/-!
# Counting what a session does

Plain counters of loads and renderings.  Times are in microseconds; their sum is a 64-bit number and
starts again at zero when it overflows.
-/

namespace Barogrid

/-- What a session has done so far. -/
structure Metrics where
  /-- Loads that were applied or that failed. -/
  fetches : Nat := 0
  failures : Nat := 0
  stale : Nat := 0
  renders : Nat := 0
  /-- The cells drawn by the latest rendering. -/
  cellsDrawn : Nat := 0
  /-- The time that all renderings took. -/
  totalMicros : UInt64 := 0
  /-- The time that the latest rendering took. -/
  lastMicros : UInt64 := 0
deriving DecidableEq

namespace Metrics

/-- A load was applied. -/
def countFetch (m : Metrics) : Metrics := { m with fetches := m.fetches + 1 }

/-- A load failed. -/
def countFailure (m : Metrics) : Metrics :=
  { m with fetches := m.fetches + 1, failures := m.failures + 1 }

/-- A response came too late. -/
def countStale (m : Metrics) : Metrics := { m with stale := m.stale + 1 }

/-- A rendering drew the given number of cells. -/
def countRender (m : Metrics) (cells : Nat) : Metrics :=
  { m with renders := m.renders + 1, cellsDrawn := cells }

/-- The latest rendering took the given time. -/
def addTime (m : Metrics) (micros : UInt64) : Metrics :=
  { m with totalMicros := m.totalMicros + micros, lastMicros := micros }

/-- A number of microseconds in milliseconds. -/
def millis (x : Binary64) : Binary64 := x / 1000

/-- The time that a rendering took on average, in milliseconds. -/
def averageMillis (m : Metrics) : Binary64 :=
  if m.renders = 0 then 0
  else millis (Binary64.ofNat m.totalMicros.toNat / Binary64.ofNat m.renders)

/-- The time that the latest rendering took, in milliseconds. -/
def lastMillis (m : Metrics) : Binary64 := millis (Binary64.ofNat m.lastMicros.toNat)

end Metrics

end Barogrid
