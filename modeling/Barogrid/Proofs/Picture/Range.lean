import Mathlib
import Barogrid.Proofs.Grid.History
import Barogrid.Proofs.Grid.Values
import Barogrid.Proofs.Rendering
import Barogrid.Proofs.Statistics.Range

/-!
# Drawn values stay in the range of the settings

Readings with values outside the range are left out.  Values are then averaged again and again -- the
median of the readings of each cell, and in each pass the means of two to four cells around a gap, which
are medians or means themselves -- and nothing of this leaves the range again, if the bounds of the range
are steady.

* `Stages.within` -- **every value that is drawn lies within steady bounds of the readings**;
* `averages_within` -- what this means for the range of the settings.
-/

namespace Barogrid

open Binary64 (Between)

namespace Rendering

section

variable [Exponential] {s : Settings}

/-- Medians and means stay within steady bounds, and so does what is drawn. -/
theorem Stages.within {r : Rendering} {seen : List Reading} {gradient : Gradient} {m : CellMap}
    {counts : List Nat} (h : r.Stages seen s gradient m counts) {lo hi : Binary64}
    (hlo : lo.Steady) (hhi : hi.Steady) (hseen : ∀ a ∈ seen, Between lo hi a.value) :
    ∀ d ∈ r.picture.cells, Between lo hi d.average := by
  have hbinned : m.Values (Between lo hi) :=
    Binning.bin_values (fun _ => Statistics.medianOf_between hlo.double_isFinite hhi.double_isFinite)
      h.binned hseen
  have hmean : ∀ xs : List Binary64, Filling.needed ≤ xs.length → xs.length ≤ 4 →
      (∀ x ∈ xs, Between lo hi x) → Between lo hi (Statistics.meanOf xs) := by
    intro xs hneeded hfour hxs
    have hsome : xs ≠ [] := List.length_pos_iff.mp (lt_of_lt_of_le (by decide) hneeded)
    exact Statistics.meanOf_between hlo hhi hsome hfour hxs
  intro d hd
  rw [h.picture] at hd
  obtain ⟨c, hc, rfl⟩ := List.mem_map.mp hd
  obtain ⟨key, hkey⟩ := CellMap.mem_cells.mp hc
  exact Filling.fill_values hmean hbinned s.passes key c hkey

/-- **No drawn value leaves the range of the settings**, if three times either bound is a double and four
times either bound does not overflow. -/
theorem averages_within (hvalid : s.validate = .ok ()) (hmin : s.minPressure.Roomy)
    (hmax : s.maxPressure.Roomy) (readings : List Reading) (v : Viewport) (gradient : Gradient) :
    (s.ZoomFits → ¬ Overlong readings v s → ∃ r, of readings v s gradient = .ok r) ∧
      ∀ r, of readings v s gradient = .ok r → ∀ d ∈ r.picture.cells,
        s.minPressure ≤ d.average ∧ d.average ≤ s.maxPressure := by
  have hs := Settings.validate_eq_ok_iff.mp hvalid
  refine ⟨fun hfits hshort => ?_, fun r hr => ?_⟩
  · obtain ⟨r, hr, -⟩ := of_yields hs hfits hshort gradient
    exact ⟨r, hr⟩
  obtain ⟨-, ⟨-, hblank⟩ | ⟨-, m, counts, h⟩⟩ := of_cases hr
  · rw [hblank]
    exact fun d hd => absurd hd List.not_mem_nil
  · refine h.within hmin.steady hmax.steady fun a ha => ?_
    rw [Selection.visible_eq_filter, List.mem_filter, decide_eq_true_eq] at ha
    obtain ⟨-, -, hlow, hhigh, -⟩ := ha
    exact ⟨hlow, hhigh⟩

end

/-- Three readings at the upper bound of the standard range around a gap, and one at the lower bound. -/
theorem standard_averages_within :
    ({} : Settings).validate = .ok () ∧ ({} : Settings).minPressure.Roomy ∧
      ({} : Settings).maxPressure.Roomy ∧
      ∃ r, @of Exponential.hardware
          [⟨⟨0.7, -0.7⟩, 1500, 0⟩, ⟨⟨0.7, 2.1⟩, 1500, 0⟩, ⟨⟨2.1, 0.7⟩, 1500, 0⟩, ⟨⟨0.7, 2.1⟩, 0, 0⟩]
          ⟨.globe, 3⟩ {} .standard = .ok r ∧
        ∀ d ∈ r.picture.cells, 0 ≤ d.average ∧ d.average ≤ 1500 := by
  have hvalid : ({} : Settings).validate = .ok () := by rfl
  have hmin : ({} : Settings).minPressure.Roomy := Binary64.roomy_ofNat (by decide)
  have hmax : ({} : Settings).maxPressure.Roomy := Binary64.roomy_ofNat (by decide)
  obtain ⟨hexists, hwithin⟩ := @averages_within Exponential.hardware {} hvalid hmin hmax
    [⟨⟨0.7, -0.7⟩, 1500, 0⟩, ⟨⟨0.7, 2.1⟩, 1500, 0⟩, ⟨⟨2.1, 0.7⟩, 1500, 0⟩, ⟨⟨0.7, 2.1⟩, 0, 0⟩]
    ⟨.globe, 3⟩ .standard
  obtain ⟨r, hr⟩ := hexists (by rfl) (not_overlong_of_fits (by decide))
  exact ⟨hvalid, hmin, hmax, r, hr, hwithin r hr⟩

end Rendering

end Barogrid
