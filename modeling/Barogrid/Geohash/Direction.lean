import Barogrid.Geohash.Hash
import Barogrid.Text.LowerCase

/-!
# Neighbouring cells

The neighbour of a cell is found by stepping from its center over an edge by one width of the cell
and naming the cell of the place reached, which has a hash of the same length.  A step over the
edge of the globe ends on that edge, so that a cell there is its own neighbour.
-/

namespace Barogrid.Geohash

/-- The four directions, as they lie on a map with north on top. -/
inductive Direction where
  | top
  | bottom
  | left
  | right
deriving DecidableEq, Repr

namespace Direction

/-- All directions, in the order in which neighbours are listed and visited. -/
def all : List Direction := [.top, .bottom, .left, .right]

/-- The name of a direction. -/
def name : Direction → String
  | .top => "top"
  | .bottom => "bottom"
  | .left => "left"
  | .right => "right"

/-- The direction of a name or of a compass point, in any mixture of cases; otherwise the text in
lower case. -/
def parse (s : String) : Except String Direction :=
  match Text.lower s with
  | "top" | "north" => .ok .top
  | "bottom" | "south" => .ok .bottom
  | "left" | "west" => .ok .left
  | "right" | "east" => .ok .right
  | other => .error other

/-- How a text that names no direction is reported. -/
def unknownMessage (lowered : String) : String := s!"Unknown direction: {lowered}"

/-- The opposite direction. -/
def opposite : Direction → Direction
  | .top => .bottom
  | .bottom => .top
  | .left => .right
  | .right => .left

/-- One step, in widths of the cell. -/
def step : Direction → Place
  | .top => ⟨1, 0⟩
  | .bottom => ⟨-1, 0⟩
  | .left => ⟨0, -1⟩
  | .right => ⟨0, 1⟩

end Direction

/-- The place one step away from the center of a cell, held on the globe. -/
def Direction.target (d : Direction) (b : Bounds) : Place :=
  ⟨(b.center.latitude + d.step.latitude * b.latitude.width).clamp (-90) 90,
    (b.center.longitude + d.step.longitude * b.longitude.width).clamp (-180) 180⟩

/-- The neighbour of a cell. -/
def Hash.adjacent (h : Hash) (d : Direction) : Except Fault Hash :=
  encode (d.target h.bounds) h.length

/-- The neighbour of a cell whose hash is given as text. -/
def adjacent (s : String) (d : Direction) : Except Fault Hash := do
  (← Hash.parse s).adjacent d

/-- The four neighbours of a cell. -/
def neighbors (s : String) : Except Fault (List Hash) := Direction.all.mapM (adjacent s)

/-- The cells met on a walk, one for each step. -/
def walk (s : String) : List Direction → Except Fault (List Hash)
  | [] => .ok []
  | d :: ds => do
    let h ← adjacent s d
    return h :: (← walk h.text ds)

end Barogrid.Geohash
