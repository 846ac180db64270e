import Barogrid.Box
import Barogrid.Reading

/-!
# Sample readings

Readings to try a map with: a lattice that covers a box evenly, some readings around New York, and
readings that no map with default settings shows.
-/

namespace Barogrid.Samples

/-- When samples are taken: noon UTC on 15 January 2024. -/
def noon : Int := 1705320000000

/-- A reading at the time of the samples or some minutes later. -/
def sample (latitude longitude value : Binary64) (minutes : Nat := 0) : Reading :=
  ⟨⟨latitude, longitude⟩, value, noon + minutes * 60000⟩

/-! ## 1. Lattices -/

/-- The middle of part `i` of `n` equal parts of a stretch. -/
def partMiddle (start extent : Binary64) (n i : Nat) : Binary64 :=
  start + (Binary64.ofNat i + 0.5) * (extent / Binary64.ofNat (max n 1))

/-- The same value in the middle of each part of a box, row by row from the south. -/
def lattice (box : Box) (rows columns : Nat) (value : Binary64) : List Reading :=
  (List.range rows).flatMap fun row =>
    (List.range columns).map fun column =>
      sample (partMiddle box.south box.height rows row)
        (partMiddle box.west box.width columns column) value

theorem length_lattice (box : Box) (rows columns : Nat) (value : Binary64) :
    (lattice box rows columns value).length = rows * columns := by
  simp [lattice, List.length_flatMap, List.map_const']

/-! ## 2. Given readings -/

/-- Around New York, a minute apart. -/
def newYork : List Reading :=
  [sample 40.0 (-74.0) 1010.0 0, sample 40.01 (-74.01) 1012.0 1,
    sample 40.71 (-74.01) 1013.5 2, sample 40.73 (-73.99) 1013.0 3,
    sample 40.65 (-73.95) 1011.2 4, sample 40.85 (-73.87) 1009.8 5,
    sample 41.03 (-73.76) 1008.4 6, sample 40.22 (-74.76) 1014.1 7]

/-- Too low, too high, and no number. -/
def outliers : List Reading :=
  [-5, 1600, Binary64.nan false].map fun value => sample 40.5 (-74.0) value

end Barogrid.Samples
