import Barogrid.Grid.Cell

/-!
# Binning

Readings are put into the cells of one key length.  Each cell keeps its readings in the order in
which they came.
-/

namespace Barogrid.Binning

/-- Readings by key, those of a key in their order. -/
abbrev Groups := Std.ExtTreeMap Geohash.Hash (List Reading)

/-- The key of the cell that a reading falls into. -/
def keyOf (length : Nat) (r : Reading) : Except Failure Geohash.Hash :=
  Geohash.lift (Geohash.encode r.place length)

/-- The groups with one more reading. -/
def add (groups : Groups) (key : Geohash.Hash) (r : Reading) : Groups :=
  groups.insert key (groups.getD key [] ++ [r])

/-- The readings by key; the first reading without a key is reported. -/
def group (length : Nat) (readings : List Reading) : Except Failure Groups :=
  readings.foldlM (fun groups r => return add groups (← keyOf length r) r) ∅

/-- The cells of groups. -/
def cellsOf (groups : Groups) : Except Failure (List Cell) :=
  groups.toList.mapM fun (key, readings) => Cell.observed key readings

/-- **The cells into which readings fall.** -/
def bin (readings : List Reading) (length : Nat) : Except Failure CellMap := do
  return CellMap.ofList (← cellsOf (← group length readings))

end Barogrid.Binning
