import Mathlib
import Barogrid.Proofs.Grid.Groups
import Barogrid.Proofs.Statistics.Majority

/-!
# One bad sensor does not move a cell

A cell has the median of its readings as its value.  So bounds that hold more than half of the readings
hold the value of the cell, and of three readings any two are more than half.

* `Doublable` -- a double that is no farther from zero than half of the greatest one;
* `average_within_rest` -- **a reading among three or more cannot drag the value of the cell out of the
  range of the others**, whatever it reports;
* `minority_is_outvoted` -- both statements in one.
-/

namespace Barogrid

open Binary64 (Between)
open Geohash (Hash)

namespace Binary64

variable {x : Binary64}

/-! ## 1. Doubles that can be doubled -/

/-- The greatest finite double. -/
def greatestFinite : Binary64 := ⟨false, infiniteMagnitude - 1, by decide⟩

/-- The double is no farther from zero than half of the greatest finite one. -/
def Doublable (x : Binary64) : Prop := Between (-greatestFinite.half) greatestFinite.half x

instance : DecidablePred Doublable := fun x =>
  inferInstanceAs (Decidable (-greatestFinite.half ≤ x ∧ x ≤ greatestFinite.half))

theorem Doublable.double_isFinite (h : x.Doublable) : (x + x).isFinite = true :=
  (add_between (by decide +kernel) (by decide +kernel) h h).isFinite (by decide +kernel)
    (by decide +kernel)

theorem Doublable.isFinite (h : x.Doublable) : x.isFinite = true := (isFinite_of_add h.double_isFinite).1

end Binary64

/-! ## 2. Cells -/

variable {readings : List Reading} {i : Nat}

/-- **The value of a cell of three or more readings stays in the range of the others when one of them is
replaced.** -/
theorem average_within_rest (key : Hash) (hthree : 3 ≤ readings.length) (hi : i < readings.length)
    (hrest : ∀ a ∈ readings.eraseIdx i, a.value.Doublable) (r : Reading) :
    ∃ c, Cell.observed key (readings.set i r) = .ok c ∧ ∃ a ∈ readings.eraseIdx i,
      ∃ b ∈ readings.eraseIdx i, Between a.value b.value c.average := by
  have hperm := List.set_perm_cons_eraseIdx hi r
  have hlength : (readings.eraseIdx i).length = readings.length - 1 := List.length_eraseIdx_of_lt hi
  generalize readings.eraseIdx i = rest at *
  have hsome : rest ≠ [] := List.length_pos_iff.mp (by omega)
  have hset : readings.set i r ≠ [] := List.length_pos_iff.mp (by rw [List.length_set]; omega)
  obtain ⟨a, ha, hleast⟩ := Binary64.exists_least hsome fun a ha => (hrest a ha).isFinite
  obtain ⟨b, hb, hgreatest⟩ := Binary64.exists_greatest hsome fun b hb => (hrest b hb).isFinite
  refine ⟨_, Binning.observed_eq_ok key hset, a, ha, b, hb, ?_⟩
  show Between a.value b.value (Statistics.medianOf ((readings.set i r).map Reading.value))
  rw [Statistics.medianOf_perm (hperm.map Reading.value)]
  refine Statistics.medianOf_of_majority (hrest a ha).double_isFinite (hrest b hb).double_isFinite ?_
  -- all values but one lie within the bounds
  have hall : (rest.map Reading.value).countP (fun x => x.within a.value b.value) = rest.length := by
    rw [← List.length_map Reading.value, List.countP_eq_length]
    intro x hx
    obtain ⟨d, hd, rfl⟩ := List.mem_map.mp hx
    exact Binary64.within_iff.mpr ⟨hleast d hd, hgreatest d hd⟩
  rw [List.map_cons, List.length_cons, List.countP_cons, hall, List.length_map]
  omega

/-- **A minority of bad sensors is outvoted.**  The median lies within the bounds of more than half of
the values, whatever the others are; so the value of a cell of three or more readings stays in the range
of the others when one of them is replaced by any reading. -/
theorem minority_is_outvoted :
    (∀ (xs : List Binary64) (lo hi : Binary64), lo.Doublable → hi.Doublable →
      xs.length < 2 * xs.countP (fun x => x.within lo hi) →
      ∃ m, Statistics.median xs = .ok m ∧ lo ≤ m ∧ m ≤ hi) ∧
    ∀ (key : Hash) (readings : List Reading) (i : Nat), 3 ≤ readings.length → i < readings.length →
      (∀ a ∈ readings.eraseIdx i, a.value.Doublable) → ∀ r : Reading,
        ∃ c, Cell.observed key (readings.set i r) = .ok c ∧ ∃ a ∈ readings.eraseIdx i,
          ∃ b ∈ readings.eraseIdx i, a.value ≤ c.average ∧ c.average ≤ b.value := by
  constructor
  · intro xs lo hi hlo hhi hmajority
    have hsome : xs.isEmpty = false := by
      cases xs with
      | nil => simp at hmajority
      | cons x xs => rfl
    refine ⟨Statistics.medianOf xs, by simp [Statistics.median, hsome], ?_⟩
    exact Statistics.medianOf_of_majority hlo.double_isFinite hhi.double_isFinite hmajority
  · intro key readings i hthree hi hrest r
    exact average_within_rest key hthree hi hrest r

/-- Seven values, of which three are no pressures. -/
def sevenSensors : List Binary64 :=
  [.nan true, 1000, .infinity false, 1013, 1005, .nan false, 1000]

/-- The seven values, and three readings of which the second turns into a NaN. -/
theorem bad_sensors_outvoted :
    ((1000 : Binary64).Doublable ∧ (1013 : Binary64).Doublable ∧
      sevenSensors.length < 2 * sevenSensors.countP (fun x => x.within 1000 1013) ∧
      ∃ m, Statistics.median sevenSensors = .ok m ∧ 1000 ≤ m ∧ m ≤ 1013) ∧
    ∀ key : Hash, ∃ c,
      Cell.observed key [⟨⟨0, 0⟩, 1000, 0⟩, ⟨⟨0, 0⟩, .nan true, 1⟩, ⟨⟨0, 0⟩, 1013, 2⟩] = .ok c ∧
        ∃ a ∈ [(⟨⟨0, 0⟩, 1000, 0⟩ : Reading), ⟨⟨0, 0⟩, 1013, 2⟩],
          ∃ b ∈ [(⟨⟨0, 0⟩, 1000, 0⟩ : Reading), ⟨⟨0, 0⟩, 1013, 2⟩],
            a.value ≤ c.average ∧ c.average ≤ b.value := by
  have hlo : (1000 : Binary64).Doublable := by decide +kernel
  have hhi : (1013 : Binary64).Doublable := by decide +kernel
  have hmajority : sevenSensors.length < 2 * sevenSensors.countP (fun x => x.within 1000 1013) := by
    decide +kernel
  refine ⟨⟨hlo, hhi, hmajority, minority_is_outvoted.1 _ _ _ hlo hhi hmajority⟩, fun key => ?_⟩
  exact minority_is_outvoted.2 key [⟨⟨0, 0⟩, 1000, 0⟩, ⟨⟨0, 0⟩, 1005, 1⟩, ⟨⟨0, 0⟩, 1013, 2⟩] 1
    (by decide) (by decide) (by decide +kernel) ⟨⟨0, 0⟩, .nan true, 1⟩

end Barogrid
