import Barogrid.Color.Gradient
import Barogrid.Geohash.Hash

/-!
# Map settings

The settings of a map, their default values, and the objections to a choice of values, of which the
first is reported.
-/

namespace Barogrid

/-- The settings of a map. -/
structure Settings where
  /-- Readings below this pressure are left out. -/
  minPressure : Binary64 := 0
  /-- Readings above this pressure are left out. -/
  maxPressure : Binary64 := 1500
  minLength : Nat := 3
  maxLength : Nat := 7
  /-- The zoom level at which keys begin to grow. -/
  minZoom : Int := 3
  /-- The zoom level from which on keys no longer grow. -/
  maxZoom : Int := 14
  stops : List Color := Gradient.standard.stops
  passes : Nat := 10
  opacity : Binary64 := 0.65
deriving DecidableEq

namespace Settings

instance : Inhabited Settings := ⟨{}⟩

/-- What speaks against a choice of settings. -/
inductive Objection where
  | pressures (min max : Binary64)
  /-- A key length is zero or too great. -/
  | lengthBounds
  | lengthOrder
  | zooms (min max : Int)
  /-- There are too few or too many stops. -/
  | stopCount (n : Nat)
  | opacity
deriving DecidableEq

/-- The text of an objection. -/
def Objection.message : Objection → String
  | .pressures min max => s!"min_pressure ({min.plain}) must be below max_pressure ({max.plain})"
  | .lengthBounds => s!"hash lengths must lie in 1-{Geohash.maxLength}"
  | .lengthOrder => "min_hash_length must not exceed max_hash_length"
  | .zooms min max => s!"zoom range {min}..{max} is empty"
  | .stopCount n => Gradient.sizeObjection n
  | .opacity => "fill_opacity must be 0-1"

/-- The first objection to the settings. -/
def objection? (s : Settings) : Option Objection :=
  if !(s.minPressure < s.maxPressure) then some (.pressures s.minPressure s.maxPressure)
  else if s.minLength = 0 ∨ Geohash.maxLength < s.maxLength then some .lengthBounds
  else if s.maxLength < s.minLength then some .lengthOrder
  else if s.maxZoom ≤ s.minZoom ∨ s.maxZoom ≤ 0 then some (.zooms s.minZoom s.maxZoom)
  else if s.stops.length < 2 ∨ 3 < s.stops.length then some (.stopCount s.stops.length)
  else if !s.opacity.within 0 1 then some .opacity
  else none

/-- Refuses settings to which there is an objection. -/
def validate (s : Settings) : Except Failure Unit :=
  match s.objection? with
  | some o => .error (.settings o.message)
  | none => .ok ()

/-- The gradient of the settings. -/
def gradient (s : Settings) : Except Failure Gradient := Gradient.ofStops s.stops

end Settings

end Barogrid
