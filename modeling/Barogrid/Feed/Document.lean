import Barogrid.Box
import Barogrid.Color
import Barogrid.Json.Reader
import Barogrid.Reading

/-!
# Readings, viewports and colors in JSON

The form in which readings arrive and viewports are requested, and the form in which readings are
stored.
-/

namespace Barogrid

/-! ## 1. Reading -/

/-- The fields of a reading.  The time goes by two names. -/
def Reading.fields : List (List String) :=
  [["latitude"], ["longitude"], ["reading"], ["timestamp", "daterecorded"]]

/-- The reading that a document is. -/
def Reading.ofJson? (j : Json) : Option Reading := do
  match ← j.record? Reading.fields with
  | [latitude, longitude, value, time] =>
    return ⟨⟨← latitude.double?, ← longitude.double?⟩, ← value.double?, ← time.integer? .int64⟩
  | _ => none

/-- The readings that a document lists. -/
def Reading.listOfJson? : Json → Option (List Reading)
  | .array items => items.mapM Reading.ofJson?
  | _ => none

/-- The readings that a text lists. -/
def Reading.parseList (s : String) : Except Failure (List Reading) :=
  match (Json.parse? s).bind Reading.listOfJson? with
  | some readings => .ok readings
  | none => .error .badJson

/-- The fields of a viewport. -/
def Viewport.fields : List (List String) :=
  [["min_lat"], ["max_lat"], ["min_lon"], ["max_lon"], ["zoom"]]

/-- The viewport that a document is. -/
def Viewport.ofJson? (j : Json) : Option Viewport := do
  match ← j.record? Viewport.fields with
  | [south, north, west, east, zoom] =>
    let box := ⟨← west.double?, ← south.double?, ← east.double?, ← north.double?⟩
    return ⟨box, ← zoom.integer? .int32⟩
  | _ => none

/-- The viewport that a text describes. -/
def Viewport.parse? (s : String) : Option Viewport := (Json.parse? s).bind Viewport.ofJson?

/-- The color that a text names as a JSON string. -/
def Color.ofJsonText? (s : String) : Option Color := do
  let text ← (← Json.parse? s).text?
  (Color.parse text).toOption

/-! ## 2. Writing -/

/-- A reading as a document. -/
def Reading.toJson (r : Reading) : Json :=
  .ofFields [("latitude", .ofDouble r.place.latitude), ("longitude", .ofDouble r.place.longitude),
    ("reading", .ofDouble r.value), ("timestamp", .ofInt r.time)]

/-- Readings as they are stored. -/
def Reading.listText (readings : List Reading) : String :=
  (Json.array (readings.map Reading.toJson)).compact

/-- A viewport as a document. -/
def Viewport.toJson (v : Viewport) : Json :=
  .ofFields [("min_lat", .ofDouble v.box.south), ("max_lat", .ofDouble v.box.north),
    ("min_lon", .ofDouble v.box.west), ("max_lon", .ofDouble v.box.east), ("zoom", .ofInt v.zoom)]

/-- A color as a document. -/
def Color.toJson (c : Color) : Json := .ofText c.hex

end Barogrid
