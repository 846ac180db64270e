import Mathlib
import Barogrid.Proofs.Grid.Groups
import Barogrid.Proofs.Grid.Run

/-!
# What all values of a map have in common

A cell has the median of its readings as its value, or the mean of two to four values around it.  So
every property that passes to medians and to such means is one of all values, in whatever number of
passes the gaps are filled.

* `Binning.bin_values` -- **of those of observed cells**;
* `Filling.fill_values` -- **and of those of filled ones.**
-/

namespace Barogrid

open Geohash (Hash)

variable {P : Binary64 → Prop} {m : CellMap}

/-- All values have the property. -/
def CellMap.Values (P : Binary64 → Prop) (m : CellMap) : Prop :=
  ∀ key c, m.get? key = some c → P c.average

theorem CellMap.Values.insert (h : m.Values P) {c : Cell} (hc : P c.average) :
    (m.insert c).Values P := by
  intro key c' hc'
  rw [get?_insert] at hc'
  split at hc'
  · obtain rfl := Option.some.inj hc'
    exact hc
  · exact h key c' hc'

/-- **What passes from readings to their median** is had by all values after binning. -/
theorem Binning.bin_values
    (hmedian : ∀ xs, xs ≠ [] → (∀ x ∈ xs, P x) → P (Statistics.medianOf xs))
    {readings : List Reading} {n : Nat} (hm : bin readings n = .ok m)
    (h : ∀ r ∈ readings, P r.value) : m.Values P := by
  intro key c hc
  obtain ⟨hne, rfl⟩ := (get?_bin hm).mp hc
  refine hmedian _ (by simpa using hne) fun x hx => ?_
  obtain ⟨r, hr, rfl⟩ := List.mem_map.mp hx
  exact h r (mem_under.mp hr).1

namespace Filling

theorem surroundings_values (h : m.Values P) (key : Hash) : ∀ x ∈ surroundings m key, P x := by
  intro x hx
  obtain ⟨key', -, hvalue⟩ := List.mem_filterMap.mp hx
  obtain ⟨c, hc, rfl⟩ := Option.map_eq_some_iff.mp hvalue
  exact h key' c hc

/-- A cell has four neighbours. -/
theorem length_surroundings_le (m : CellMap) (key : Hash) : (surroundings m key).length ≤ 4 :=
  List.length_filterMap_le _ _

section

variable (hmean : ∀ xs : List Binary64, needed ≤ xs.length → xs.length ≤ 4 → (∀ x ∈ xs, P x) →
  P (Statistics.meanOf xs))

include hmean

/-- **What passes to the mean of the values around a gap** is kept by a look, -/
theorem look_values {p : Progress} (h : p.cells.Values P) (pass : Nat) (site : Site) :
    (look pass p site).cells.Values P := by
  unfold look
  split
  · rename_i hready
    exact h.insert (hmean _ hready.2 (length_surroundings_le _ _) (surroundings_values h _))
  · exact h

/-- **and so by filling.** -/
theorem fill_values (h : m.Values P) (passes : Nat) : (fill m passes).cells.Values P :=
  fill_induction (fun pass _ site _ _ hp => look_values hmean hp pass site) h passes

end

end Filling

end Barogrid
