import Barogrid.Failure
import Barogrid.Geohash.Direction
import Barogrid.Reading
import Barogrid.Statistics
import Std.Data.ExtTreeMap

/-!
# Cells and cell maps

A cell of the grid has a value for one of two reasons: readings fell into it, whose median it has,
or a pass that fills gaps gave it the mean of cells around it.  A `CellMap` holds the cells that have
a value by their key; its keys are listed in ascending order.
-/

namespace Barogrid

/-- Where the value of a cell comes from. -/
inductive Origin where
  | observed (readings : List Reading)
  /-- From its neighbours, in the given pass. -/
  | filled (pass : Nat)
deriving DecidableEq

/-- A cell with a value. -/
structure Cell where
  key : Geohash.Hash
  bounds : Bounds
  average : Binary64
  origin : Origin
deriving DecidableEq

namespace Cell

/-- The readings in a cell. -/
def readings (c : Cell) : List Reading :=
  match c.origin with
  | .observed rs => rs
  | .filled _ => []

/-- Was the cell filled in? -/
def isFilled (c : Cell) : Bool :=
  match c.origin with
  | .observed _ => false
  | .filled _ => true

/-- The pass in which the cell was filled in. -/
def pass? (c : Cell) : Option Nat :=
  match c.origin with
  | .observed _ => none
  | .filled pass => some pass

/-- The cell of a key into which readings fell. -/
def observed (key : Geohash.Hash) (readings : List Reading) : Except Failure Cell := do
  let average ← Statistics.median (readings.map Reading.value)
  return ⟨key, key.bounds, average, .observed readings⟩

/-- The cell of a key that a pass fills in. -/
def filled (key : Geohash.Hash) (average : Binary64) (pass : Nat) : Cell :=
  ⟨key, key.bounds, average, .filled pass⟩

/-- The cell into which readings fell, its key given as text.  Missing readings are reported before a
bad key. -/
def readObserved (key : String) (readings : List Reading) : Except Failure Cell := do
  let _ ← Statistics.median (readings.map Reading.value)
  observed (← Geohash.lift (Geohash.Hash.parse key)) readings

/-- The cell that a pass fills in, its key given as text. -/
def readFilled (key : String) (average : Binary64) (pass : Nat) : Except Failure Cell := do
  return filled (← Geohash.lift (Geohash.Hash.parse key)) average pass

end Cell

/-- Cells by their key. -/
structure CellMap where
  byKey : Std.ExtTreeMap Geohash.Hash Cell

namespace CellMap

/-- No cells. -/
def empty : CellMap := ⟨∅⟩

instance : Inhabited CellMap := ⟨empty⟩

/-- The number of cells. -/
def size (m : CellMap) : Nat := m.byKey.size

/-- The cell of a key. -/
def get? (m : CellMap) (key : Geohash.Hash) : Option Cell := m.byKey[key]?

/-- Is there a cell of this key? -/
def contains (m : CellMap) (key : Geohash.Hash) : Bool := m.byKey.contains key

/-- The value of the cell of a key. -/
def average? (m : CellMap) (key : Geohash.Hash) : Option Binary64 := (m.get? key).map Cell.average

/-- The map with a cell put under its key. -/
def insert (m : CellMap) (c : Cell) : CellMap := ⟨m.byKey.insert c.key c⟩

/-- The keys, ascending. -/
def keys (m : CellMap) : List Geohash.Hash := m.byKey.keys

/-- The cells, by ascending key. -/
def cells (m : CellMap) : List Cell := m.byKey.values

/-- The number of cells that were filled in. -/
def filledCount (m : CellMap) : Nat := m.cells.countP Cell.isFilled

/-- The number of cells into which readings fell. -/
def observedCount (m : CellMap) : Nat := m.size - m.filledCount

/-- The map of a list of cells, of equal keys the last counting. -/
def ofList (cells : List Cell) : CellMap := cells.foldl insert empty

/-! ## What the operations do to a look-up -/

@[ext]
theorem ext {m n : CellMap} (h : ∀ key, m.get? key = n.get? key) : m = n := by
  obtain ⟨m⟩ := m
  obtain ⟨n⟩ := n
  exact congrArg CellMap.mk (Std.ExtTreeMap.ext_getElem? h)

@[simp]
theorem get?_empty (key : Geohash.Hash) : empty.get? key = none := by
  simp [get?, empty]

theorem get?_insert (m : CellMap) (c : Cell) (key : Geohash.Hash) :
    (m.insert c).get? key = if c.key = key then some c else m.get? key := by
  simp [get?, insert, Std.ExtTreeMap.getElem?_insert]

theorem contains_eq (m : CellMap) (key : Geohash.Hash) :
    m.contains key = (m.get? key).isSome := by
  simp [contains, get?]

end CellMap

end Barogrid
