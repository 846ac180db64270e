import Mathlib
import Barogrid.Proofs.Grid.History
import Barogrid.Proofs.Grid.Simulation
import Barogrid.Proofs.Statistics.Median

/-!
# Maps that differ in the order of readings

Two maps are alike when they have the same keys, and under each key cells that are equal but for the
order of their readings.  Filling gaps reads keys and values only, so it cannot tell such maps apart;
binning makes such maps of lists that are permutations of each other.

* `Cell.Alike`, `CellMap.Alike` -- the relation;
* `fill_alike` -- **filling keeps maps alike**, and reports the same;
* `bin_alike` -- **binning takes permuted readings to maps that are alike.**
-/

namespace Barogrid

open Geohash (Hash)

/-! ## 1. The relation -/

/-- The same readings in some order, or the same pass. -/
inductive Origin.Alike : Origin → Origin → Prop
  | observed {readings readings' : List Reading} (h : readings.Perm readings') :
      Alike (.observed readings) (.observed readings')
  | filled (pass : Nat) : Alike (.filled pass) (.filled pass)

/-- Equal but for the order of the readings. -/
structure Cell.Alike (c c' : Cell) : Prop where
  key : c.key = c'.key
  bounds : c.bounds = c'.bounds
  average : c.average = c'.average
  origin : c.origin.Alike c'.origin

theorem Cell.filled_alike (key : Hash) (average : Binary64) (pass : Nat) :
    (Cell.filled key average pass).Alike (Cell.filled key average pass) :=
  ⟨rfl, rfl, rfl, .filled pass⟩

theorem Cell.Alike.isFilled {c c' : Cell} (h : c.Alike c') : c.isFilled = c'.isFilled := by
  obtain ⟨key, bounds, average, origin⟩ := c
  obtain ⟨key', bounds', average', origin'⟩ := c'
  cases h.origin <;> rfl

/-- Under each key there are cells that are alike, or none. -/
def CellMap.Alike (m m' : CellMap) : Prop :=
  ∀ key, Option.Rel Cell.Alike (m.get? key) (m'.get? key)

namespace CellMap

variable {m m' : CellMap} {c c' : Cell} {key : Hash}

namespace Alike

theorem average? (h : m.Alike m') (key : Hash) : m.average? key = m'.average? key := by
  have hkey := h key
  unfold CellMap.average?
  generalize m.get? key = c at hkey ⊢
  generalize m'.get? key = c' at hkey ⊢
  cases hkey with
  | none => rfl
  | some hc => exact congrArg some hc.average

theorem contains (h : m.Alike m') (key : Hash) : m.contains key = m'.contains key := by
  rw [← average?_isSome, ← average?_isSome, h.average?]

theorem keys (h : m.Alike m') : m.keys = m'.keys := keys_eq h.contains

/-- The cells stand at the same places. -/
theorem cells (h : m.Alike m') : List.Forall₂ Cell.Alike m.cells m'.cells := by
  rw [cells_eq_filterMap, cells_eq_filterMap, ← h.keys]
  induction m.keys with
  | nil => exact List.Forall₂.nil
  | cons key keys ih =>
    have hkey := h key
    rw [List.filterMap_cons, List.filterMap_cons]
    generalize m.get? key = c at hkey
    generalize m'.get? key = c' at hkey
    cases hkey with
    | none => exact ih
    | some hc => exact List.Forall₂.cons hc ih

theorem insert (h : m.Alike m') (hc : c.Alike c') : (m.insert c).Alike (m'.insert c') := by
  intro key
  rw [get?_insert, get?_insert, hc.key]
  by_cases hkey : c'.key = key
  · rw [if_pos hkey, if_pos hkey]
    exact .some hc
  · rw [if_neg hkey, if_neg hkey]
    exact h key

end Alike

end CellMap

/-! ## 2. Filling -/

namespace Filling

variable {m m' : CellMap}

/-- Whether and with what a cell is filled is read off keys and values. -/
theorem alike_simulation : Simulation CellMap.Alike 0 where
  agree h := h.average?
  fill {m m' key} pass h _ := by
    refine h.insert ?_
    unfold filling
    rw [Agree.surroundings h.average?]
    exact Cell.filled_alike _ _ pass

/-- **Filling keeps maps alike and reports the same**, also where it fails. -/
theorem fill_alike (h : m.Alike m') (passes : Nat) :
    (fill m passes).cells.Alike (fill m' passes).cells ∧
      (fill m passes).created = (fill m' passes).created := by
  obtain ⟨hcells, hcreated⟩ := alike_simulation.run h passes 0
  rw [Nat.add_zero] at hcells hcreated
  rw [fill_cells, fill_cells, fill_created, fill_created, hcreated]
  exact ⟨hcells, rfl⟩

end Filling

/-! ## 3. Binning -/

namespace Binning

variable {n : Nat} {readings readings' : List Reading} {key : Hash} {m : CellMap}

theorem under_perm (h : readings.Perm readings') :
    (under n readings key).Perm (under n readings' key) := h.filter _

theorem observedCell_alike (h : readings.Perm readings') :
    (observedCell key readings).Alike (observedCell key readings') :=
  ⟨rfl, rfl, Statistics.medianOf_perm (h.map Reading.value), .observed h⟩

/-- **Readings in another order are binned into a map that is alike.** -/
theorem bin_alike (h : readings.Perm readings') (hm : bin readings n = .ok m) :
    ∃ m', bin readings' n = .ok m' ∧ m.Alike m' := by
  obtain ⟨m', hm'⟩ := bin_isOk_iff.mpr fun r hr =>
    bin_isOk_iff.mp ⟨m, hm⟩ r (h.mem_iff.mpr hr)
  refine ⟨m', hm', fun key => ?_⟩
  by_cases hnil : under n readings key = []
  · have hnil' : under n readings' key = [] :=
      List.perm_nil.mp ((under_perm h).symm.trans (hnil ▸ List.Perm.refl _))
    have hnone : m.get? key = none :=
      Option.eq_none_iff_forall_ne_some.mpr fun c hc => ((get?_bin hm).mp hc).1 hnil
    have hnone' : m'.get? key = none :=
      Option.eq_none_iff_forall_ne_some.mpr fun c hc => ((get?_bin hm').mp hc).1 hnil'
    rw [hnone, hnone']
    exact .none
  · have hne' : under n readings' key ≠ [] := fun hnil' =>
      hnil (List.perm_nil.mp ((under_perm h).trans (hnil' ▸ List.Perm.refl _)))
    rw [(get?_bin hm).mpr ⟨hnil, rfl⟩, (get?_bin hm').mpr ⟨hne', rfl⟩]
    exact .some (observedCell_alike (under_perm h))

end Binning

end Barogrid
