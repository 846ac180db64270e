import Barogrid.Grid.Cell

/-!
# Filling gaps

A pass visits the cells that have a value when it begins, by ascending key, and looks at the four
neighbours of each.  A neighbour without a value gets one if at least two of its own neighbours have
one: their mean, in the order of the directions.  Such a value counts at once for the cells looked at
later, but the cell itself is visited from the next pass on.

A pass that fills nothing leaves nothing for later passes to do, so the passes after it are only
reported, as having filled no cell.

A cell whose key is too long has no neighbours that could be named; a visit there ends the work, and
what was filled before stays.

The report has an entry for every pass, in a field of limited size.  Where the passes are too many for
it there is no report, although all gaps are filled that can be.
-/

namespace Barogrid.Filling

open Geohash (Direction)

/-- The number of neighbours with a value that a cell needs to get one. -/
def needed : Nat := 2

/-- A neighbour to look at: that of a cell, in a direction. -/
structure Site where
  key : Geohash.Hash
  direction : Direction
deriving DecidableEq

/-- A map, and how many of its cells the current pass has filled. -/
structure Progress where
  cells : CellMap
  created : Nat

/-- The values of the neighbours of a cell, in the order of the directions. -/
def around (cells : CellMap) (key : Geohash.Hash) : Except Failure (List Binary64) := do
  let neighbors ← Direction.all.mapM fun d => Geohash.lift (key.adjacent d)
  return neighbors.filterMap cells.average?

/-- Looks at one neighbour, and fills it if that can be done. -/
def visit (pass : Nat) (p : Progress) (site : Site) : Except Failure Progress := do
  let candidate ← Geohash.lift (site.key.adjacent site.direction)
  if p.cells.contains candidate then return p
  let averages ← around p.cells candidate
  if averages.length < needed then return p
  let average ← Statistics.mean averages
  return ⟨p.cells.insert (Cell.filled candidate average pass), p.created + 1⟩

/-- Looks at one neighbour after the other, up to a failure. -/
def sweep (pass : Nat) : List Site → Progress → Progress × Option Failure
  | [], p => (p, none)
  | site :: sites, p =>
    match visit pass p site with
    | .ok p => sweep pass sites p
    | .error f => (p, some f)

/-- What a pass over a map looks at. -/
def sites (cells : CellMap) : List Site :=
  cells.keys.flatMap fun key => Direction.all.map fun d => ⟨key, d⟩

/-- What became of a map: its cells, and how many each pass has filled. -/
structure Outcome where
  cells : CellMap
  /-- The number of cells filled, for each pass, unless something failed. -/
  created : Except Failure (List Nat)

/-- Passes up to the given number, of which the first has the number `pass`.  One that fills nothing is
the last to be carried out. -/
def work : Nat → Nat → CellMap → Outcome
  | 0, _, cells => ⟨cells, .ok []⟩
  | left + 1, pass, cells =>
    match sweep pass (sites cells) ⟨cells, 0⟩ with
    | (p, some f) => ⟨p.cells, .error f⟩
    | (p, none) =>
      if p.created = 0 then ⟨p.cells, .ok [0]⟩
      else
        let rest := work left (pass + 1) p.cells
        ⟨rest.cells, rest.created.map (p.created :: ·)⟩

/-- The greatest number of entries in a report: each takes eight bytes, and all of them have to stay
below 2^63. -/
def longestReport : Nat := 0xfffffffffffffff

/-- The report on a number of passes, of which the first ones are counted and the others have filled
nothing. -/
def report (passes : Nat) (counts : List Nat) : Except Failure (List Nat) :=
  if longestReport < passes then .error (.overflow "report of the passes")
  else .ok (counts ++ List.replicate (passes - counts.length) 0)

/-- **Fills the gaps of a map** in the given number of passes. -/
def fill (cells : CellMap) (passes : Nat) : Outcome :=
  let done := work passes 0 cells
  ⟨done.cells, done.created >>= report passes⟩

end Barogrid.Filling
