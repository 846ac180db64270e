import Barogrid.Geohash.Hash

/-!
# Failures

Everything that can go wrong outside a single notation, with its wording.  Failures to get hold of
readings (`isLoadFailure`) are part of normal service and are shown to the user of a map; the others
end the operation.  `overflow` stands apart: it says that a number did not fit its field, and the
program does not go on after it.
-/

namespace Barogrid

/-- Why an operation failed. -/
inductive Failure where
  | keyLength (n : Nat)
  | key (text : String)
  | place (text : String)
  | noValues (statistic : String)
  /-- The settings contradict themselves or cannot be read. -/
  | settings (text : String)
  | color (text : String)
  | transport (text : String)
  | decode (text : String)
  | file (text : String)
  /-- A quantity does not fit the field that holds it. -/
  | overflow (quantity : String)
deriving DecidableEq, Repr

namespace Failure

/-- The text of a failure. -/
def message : Failure → String
  | .keyLength n => s!"Invalid geohash precision: {n}"
  | .key text => s!"Invalid geohash: {text}"
  | .place text => s!"Invalid coordinate: {text}"
  | .noValues statistic => s!"Cannot compute {statistic} of an empty sequence"
  | .settings text => s!"Invalid configuration: {text}"
  | .color text => s!"Invalid color '{text}': expected #RRGGBB"
  | .transport text => s!"Failed to fetch readings: {text}"
  | .decode text => s!"Failed to decode readings: {text}"
  | .file text => s!"IO error: {text}"
  | .overflow quantity => s!"{quantity} is out of range"

/-- Did readings fail to arrive? -/
def isLoadFailure : Failure → Bool
  | .transport _ | .decode _ | .file _ => true
  | _ => false

/-- A fault of a geohash, as a failure. -/
def ofHash (fault : Geohash.Fault) : Failure :=
  match fault with
  | .length n => .keyLength n
  | .place _ => .place fault.message
  | .emptyHash | .badCharacter .. => .key fault.message

/-- A JSON document could not be read. -/
def badJson : Failure := .decode "JSON error"

/-- A YAML document could not be read. -/
def badYaml : Failure := .settings "YAML error"

end Failure

/-- A result of the geohash grid, as a result of the program. -/
def Geohash.lift {α : Type} (r : Except Fault α) : Except Failure α := r.mapError Failure.ofHash

end Barogrid
