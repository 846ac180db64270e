import Barogrid.Decimal.Notation
import Barogrid.Decimal.Reader
import Barogrid.Text.Blank

/-!
# Boxes and viewports

A box is a range of longitudes and a range of latitudes.  A box whose western edge lies east of its
eastern edge wraps around: it goes from the western edge over the antimeridian to the eastern one.

Nothing is assumed of the four edges; what the operations make of unordered or infinite edges or of
NaNs follows from the order of doubles alone.
-/

namespace Barogrid

/-- A range of longitudes and a range of latitudes, in degrees. -/
structure Box where
  west : Binary64
  south : Binary64
  east : Binary64
  north : Binary64
deriving DecidableEq

namespace Box

/-! ## 1. Measures -/

/-- The whole globe. -/
def globe : Box := ⟨-180, -90, 180, 90⟩

/-- Does the box wrap around at the antimeridian? -/
def wraps (b : Box) : Bool := b.east < b.west

/-- The extent from west to east. -/
def width (b : Box) : Binary64 := if b.wraps then 360 - b.west + b.east else b.east - b.west

/-- The extent from south to north. -/
def height (b : Box) : Binary64 := b.north - b.south

/-- The longitude in the middle. -/
def centerLongitude (b : Box) : Binary64 :=
  let x := b.west + b.width.half
  if 180 < x then x - 360 else x

/-- The latitude in the middle. -/
def centerLatitude (b : Box) : Binary64 := (b.south + b.north).half

/-- Does the box hold the place, edges included? -/
def contains (b : Box) (longitude latitude : Binary64) : Bool :=
  if latitude < b.south || b.north < latitude then false
  else if b.wraps then b.west ≤ longitude || longitude ≤ b.east
  else b.west ≤ longitude && longitude ≤ b.east

/-- The box with its edges moved onto the globe. -/
def clamped (b : Box) : Box :=
  ⟨b.west.clamp (-180) 180, b.south.clamp (-90) 90, b.east.clamp (-180) 180, b.north.clamp (-90) 90⟩

/-! ## 2. Reading -/

/-- Why a text is no box. -/
inductive Fault where
  | fieldCount (text : String)
  /-- A field is no number; the first such field is given. -/
  | badNumber (field : String)

/-- The text of a fault. -/
def Fault.message : Fault → String
  | .fieldCount text =>
    s!"Invalid bounding box format: {text}. Expected 'min_lon,min_lat,max_lon,max_lat'"
  | .badNumber field => s!"Invalid number in bounding box: {field}"

/-- The number in a field. -/
def readEdge (field : String) : Except Fault Binary64 :=
  match Decimal.readDouble? field with
  | some x => .ok x
  | none => .error (.badNumber field)

/-- A box given as `west,south,east,north`, with blanks allowed around each. -/
def parse (s : String) : Except Fault Box :=
  match (Text.fields ',' s).map Text.trim with
  | [west, south, east, north] => do
    return ⟨← readEdge west, ← readEdge south, ← readEdge east, ← readEdge north⟩
  | _ => .error (.fieldCount s)

end Box

/-- What a map shows: a box and a zoom level. -/
structure Viewport where
  box : Box
  /-- The zoom level, a 32-bit number. -/
  zoom : Int
deriving DecidableEq

end Barogrid
