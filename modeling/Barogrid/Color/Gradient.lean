import Barogrid.Color

/-!
# Gradients

A gradient assigns a color to every number from 0 to 100: its stops are spread evenly over this
range, and between two stops the color is mixed.
-/

namespace Barogrid

/-- Two or three stops. -/
structure Gradient where
  stops : List Color
  size : 2 ≤ stops.length ∧ stops.length ≤ 3
deriving DecidableEq

namespace Gradient

/-- The objection to a number of stops other than two or three. -/
def sizeObjection (n : Nat) : String := s!"gradient needs 2 or 3 stops, got {n}"

/-- The gradient with the given stops. -/
def ofStops (stops : List Color) : Except Failure Gradient :=
  if h : 2 ≤ stops.length ∧ stops.length ≤ 3 then .ok ⟨stops, h⟩
  else .error (.settings (sizeObjection stops.length))

/-- The gradient whose stops the texts denote. -/
def parse (stops : List String) : Except Failure Gradient := do
  ofStops (← stops.mapM Color.parse)

/-- From green to red. -/
def standard : Gradient := ⟨[⟨0, 255, 0⟩, ⟨255, 0, 0⟩], by decide⟩

/-- The number of ways between neighbouring stops. -/
def segments (g : Gradient) : Nat := g.stops.length - 1

theorem segment_lt (g : Gradient) (i : Nat) : min i (g.segments - 1) + 1 < g.stops.length := by
  have := g.size
  unfold segments
  omega

/-- The color of a number.  Numbers outside the range get the color of the nearer end, a NaN that of
the lower one. -/
def colorAt (g : Gradient) (x : Binary64) : Color :=
  let x := if x.isNaN then 0 else x.clamp 0 100
  let width : Binary64 := 100 / Binary64.ofNat g.segments
  let i := min (x / width).floorNat (g.segments - 1)
  have next : i + 1 < g.stops.length := g.segment_lt _
  have this : i < g.stops.length := Nat.lt_of_succ_lt next
  let t := (x - Binary64.ofNat i * width) / width
  g.stops[i].mix g.stops[i + 1] t

end Gradient

end Barogrid
