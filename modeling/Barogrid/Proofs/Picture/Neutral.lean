import Mathlib
import Barogrid.Proofs.Choropleth
import Barogrid.Proofs.Grid.Values
import Barogrid.Proofs.Picture.Faithful
import Barogrid.Proofs.Statistics.Flat

/-!
# Readings without spread

Readings that all have one value should be drawn in the middle of the gradient.  Drawing tests for a
standard deviation of zero, but the deviation of equal doubles need not be zero: it is computed from
their mean, which may be another double.  What saves the picture then is that the values themselves
are still at no distance from the median.  So it remains to see which cells have exactly the value of
the readings:

* `Binning.bin_constant` -- every cell into which readings fall;
* `Filling.fill_constant` -- and every cell that is filled in, **unless a mean of three neighbours
  strays** (`Binary64.TripleStrays`);
* `Rendering.flat_is_neutral` -- both together, for every rendering of such readings.
-/

namespace Barogrid

open Geohash (Hash)
open Binary64 (copies)

variable {y : Binary64} {n : Nat} {seen : List Reading} {m : CellMap} {key : Hash}

theorem Binary64.eq_of_units {x : Binary64} (h : x.units = y.units) (h0 : y.units ≠ 0) : x = y := by
  refine eq_of_rank_eq ((rank_eq_iff_units_eq x y).mpr h) fun hrank => h0 ?_
  have hzero := (rank_eq_iff_units_eq y (zero false)).mp (hrank.trans rfl)
  rw [hzero]
  rfl

/-! ## 1. Maps with one value -/

/-- Equal values are zeros, or copies of one double. -/
theorem Reading.zeros_or_copies (hseen : seen ≠ []) (hfinite : ∀ a ∈ seen, a.value.isFinite = true)
    (hflat : ∀ a ∈ seen, ∀ b ∈ seen, a.value ≤ b.value) :
    (∀ x ∈ seen.map Reading.value, x.isZero = true) ∨
      ∃ a ∈ seen, a.value.units ≠ 0 ∧ ∀ b ∈ seen, b.value = a.value := by
  obtain ⟨a, ha⟩ := List.exists_mem_of_ne_nil seen hseen
  have hunits : ∀ b ∈ seen, b.value.units = a.value.units := by
    intro b hb
    have hba := (Binary64.le_iff_units_le (hfinite b hb) (hfinite a ha)).mp (hflat b hb a ha)
    have hab := (Binary64.le_iff_units_le (hfinite a ha) (hfinite b hb)).mp (hflat a ha b hb)
    exact le_antisymm hba hab
  by_cases h0 : a.value.units = 0
  · refine Or.inl fun x hx => ?_
    obtain ⟨b, hb, rfl⟩ := List.mem_map.mp hx
    exact Binary64.isZero_iff.mpr ⟨hfinite b hb, (hunits b hb).trans h0⟩
  · exact Or.inr ⟨a, ha, h0, fun b hb => Binary64.eq_of_units (hunits b hb) h0⟩

/-- Every cell has the value `y`. -/
def CellMap.Constant (y : Binary64) (m : CellMap) : Prop :=
  ∀ key c, m.get? key = some c → c.average = y

/-- Readings of one value are binned into cells of this value. -/
theorem Binning.bin_constant (h : bin seen n = .ok m) (hvalues : ∀ r ∈ seen, r.value = y)
    (hy : y.isFinite = true) (h0 : y.units ≠ 0) (htwo : (copies 2 y).isFinite = true) :
    m.Constant y := by
  refine bin_values (P := (· = y)) (fun xs hne hxs => ?_) h hvalues
  rw [List.eq_replicate_of_mem hxs]
  exact Binary64.eq_of_units
    (Statistics.medianOf_replicate hy (List.length_pos_iff.mpr hne) (Or.inr htwo)).2 h0

namespace Filling

/-- **Filling keeps the map constant**, if the mean of two, three and four copies is the value. -/
theorem fill_constant (hmean : ∀ k, 2 ≤ k → k ≤ 4 → Statistics.meanOf (List.replicate k y) = y)
    (h : m.Constant y) (passes : Nat) : (fill m passes).cells.Constant y := by
  refine fill_values (P := (· = y)) (fun xs htwo hfour hxs => ?_) h passes
  rw [List.eq_replicate_of_mem hxs]
  exact hmean xs.length htwo hfour

end Filling

section

variable [e : Exponential]

/-! ## 2. At the median -/

/-- What the exponential of zero is, of either sign. -/
def Exponential.StartsAtOne (e : Exponential) : Prop :=
  ∀ z : Binary64, z.isZero = true → e.exp z = 1

namespace Choropleth

variable {x median stdev : Binary64}

theorem normalize_of_flat (h : stdev.isZero = true ∨ stdev.isFinite = false) :
    normalize x median stdev = neutral := by
  unfold normalize
  rw [if_pos]
  rcases h with h | h <;> simp [h]

/-- At no distance from the median, a value stands in the middle. -/
theorem normalize_at_median (hexp : e.StartsAtOne) (hx : x.isFinite = true)
    (hmedian : median.isFinite = true) (h : x.units = median.units) :
    normalize x median stdev = neutral := by
  by_cases hflat : stdev.isZero = true ∨ stdev.isFinite = false
  · exact normalize_of_flat hflat
  simp only [not_or, Bool.not_eq_true, Bool.not_eq_false] at hflat
  obtain ⟨hzero, hfinite⟩ := hflat
  have hdistance := Binary64.sub_isZero hx hmedian h
  have hstanding : (-((x - median) / stdev)).isZero = true :=
    Binary64.div_isZero hdistance (Binary64.isNaN_of_isFinite hfinite) hzero
  unfold normalize Statistics.logistic
  rw [hexp _ hstanding]
  simp only [hzero, hfinite, Bool.not_true, Bool.or_self, Bool.false_eq_true, ↓reduceIte]
  decide +kernel

end Choropleth

/-! ## 3. Renderings -/

namespace Rendering

variable {s : Settings} {gradient : Gradient} {r : Rendering} {counts : List Nat}

namespace Stages

variable (h : r.Stages seen s gradient m counts)

include h

/-- Without a deviation to divide by, all is drawn in the middle. -/
theorem neutral_of_stdev
    (hstdev : (Statistics.stdevOf (seen.map Reading.value)).isZero = true ∨
      (Statistics.stdevOf (seen.map Reading.value)).isFinite = false) :
    ∀ d ∈ r.picture.cells, d.normalized = Choropleth.neutral := by
  intro d hd
  obtain ⟨c, -, rfl⟩ := h.mem_cells.mp hd
  exact Choropleth.normalize_of_flat hstdev

/-- What has the value of the readings is drawn in the middle. -/
theorem neutral_of_average (hexp : e.StartsAtOne) (hy : y.isFinite = true)
    (hmedian : (Statistics.medianOf (seen.map Reading.value)).isFinite = true ∧
      (Statistics.medianOf (seen.map Reading.value)).units = y.units)
    {d : DrawnCell} (hd : d ∈ r.picture.cells) (haverage : d.average = y) :
    d.normalized = Choropleth.neutral := by
  obtain ⟨c, -, rfl⟩ := h.mem_cells.mp hd
  have haverage : c.average = y := haverage
  show Choropleth.normalize c.average _ _ = _
  rw [haverage]
  exact Choropleth.normalize_at_median hexp hy hmedian.1 hmedian.2.symm

/-- Copies of one double other than zero. -/
theorem neutral_of_copies (hexp : e.StartsAtOne) (hseen : seen ≠ [])
    (hlen : r.keyLength ≤ Geohash.maxLength) (hvalues : ∀ reading ∈ seen, reading.value = y)
    (hy : y.isFinite = true) (h0 : y.units ≠ 0) :
    (∀ d ∈ r.picture.cells, d.isFilled = false → d.normalized = Choropleth.neutral) ∧
      (¬ y.TripleStrays → ∀ d ∈ r.picture.cells, d.normalized = Choropleth.neutral) := by
  have hpos : 1 ≤ seen.length := List.length_pos_iff.mpr hseen
  have hreplicate : seen.map Reading.value = List.replicate seen.length y :=
    List.map_eq_replicate_iff.mpr hvalues
  rcases or_assoc.mpr (Statistics.stdevOf_replicate_cases hy hpos) with hstdev | ⟨hsum, hmean⟩
  · rw [← hreplicate] at hstdev
    have hall := h.neutral_of_stdev hstdev
    exact ⟨fun d hd _ => hall d hd, fun _ => hall⟩
  -- the mean of one copy or of two is no other double
  have htwo : 2 ≤ seen.length := by
    by_contra hone
    exact hmean (Statistics.meanOf_replicate hy hpos (by omega) hsum (by omega)).2
  have hcopies := Binary64.copies_isFinite htwo hsum
  have hmedian := Statistics.medianOf_replicate hy hpos (Or.inr hcopies)
  rw [← hreplicate] at hmedian
  have hconstant := Binning.bin_constant h.binned hvalues hy h0 hcopies
  constructor
  · intro d hd hobserved
    refine h.neutral_of_average hexp hy hmedian hd ?_
    obtain ⟨c, hc, rfl⟩ := h.mem_cells.mp hd
    exact hconstant c.key c (Filling.fill_of_observed (h.short hlen) hc hobserved)
  · intro hstays d hd
    -- and neither is that of three or of four
    have hfour : 4 ≤ seen.length := by
      by_contra hfew
      exact hmean (Statistics.meanOf_replicate hy hpos (by omega) hsum fun _ => hstays).2
    have hmeans : ∀ k, 2 ≤ k → k ≤ 4 → Statistics.meanOf (List.replicate k y) = y := by
      intro k hk hk'
      exact Binary64.eq_of_units (Statistics.meanOf_replicate hy (by omega) hk'
        (Binary64.copies_isFinite (hk'.trans hfour) hsum) fun _ => hstays).2 h0
    refine h.neutral_of_average hexp hy hmedian hd ?_
    obtain ⟨c, hc, rfl⟩ := h.mem_cells.mp hd
    exact Filling.fill_constant hmeans hconstant s.passes c.key c hc

end Stages

/-- **Readings without spread are drawn in the middle**: all cells into which readings fall, and all
cells whatsoever unless the sum of three copies of the value strays. -/
theorem flat_is_neutral (hexp : e.StartsAtOne) (hvalid : s.validate = .ok ())
    {readings : List Reading} {v : Viewport}
    (hsome : readings.filter (Selection.Shows s v.box) ≠ [])
    (hflat : ∀ a ∈ readings.filter (Selection.Shows s v.box),
      ∀ b ∈ readings.filter (Selection.Shows s v.box), a.value ≤ b.value) (gradient : Gradient) :
    (s.ZoomFits → ¬ Overlong readings v s → ∃ r, of readings v s gradient = .ok r) ∧
    ∀ r, of readings v s gradient = .ok r →
      (∀ d ∈ r.picture.cells, d.isFilled = false → d.normalized = Choropleth.neutral) ∧
      ((∀ a ∈ readings.filter (Selection.Shows s v.box), ¬ a.value.TripleStrays) →
        ∀ d ∈ r.picture.cells, d.normalized = Choropleth.neutral) := by
  have hs := Settings.validate_eq_ok_iff.mp hvalid
  constructor
  · intro hfits hshort
    obtain ⟨r, hr, -⟩ := of_yields hs hfits hshort gradient
    exact ⟨r, hr⟩
  intro r hr
  obtain ⟨hkey, hcases⟩ := of_cases hr
  have hlen := (Resolution.keyLength_within hs hkey).2.trans hs.maxLength_le
  rw [← Selection.visible_eq_filter] at hsome hflat ⊢
  have hfinite : ∀ a ∈ Selection.visible readings v.box s, a.value.isFinite = true := by
    intro a ha
    have hwell := Selection.isWellFormed_of_visible ha
    rw [Reading.isWellFormed, Bool.and_eq_true] at hwell
    exact hwell.2
  obtain ⟨m, counts, h⟩ := (hcases.resolve_left fun hnone => hsome hnone.1).2
  rcases Reading.zeros_or_copies hsome hfinite hflat with hzeros | ⟨a, ha, h0, hvalues⟩
  · have hall := h.neutral_of_stdev
      (Or.inl (Statistics.stdevOf_of_zeros (by simpa using hsome) hzeros))
    exact ⟨fun d hd _ => hall d hd, fun _ => hall⟩
  · obtain ⟨hobserved, hall⟩ := h.neutral_of_copies hexp hsome hlen hvalues (hfinite a ha) h0
    exact ⟨hobserved, fun hstays => hall (hstays a ha)⟩

end Rendering

end

/-- Seven readings of one value in three cells around a gap.  The mean of the seven values is another
double. -/
def aroundGap : List Reading :=
  List.replicate 3 ⟨⟨0.7, -0.7⟩, 1000.1, 0⟩ ++ List.replicate 2 ⟨⟨0.7, 2.1⟩, 1000.1, 0⟩ ++
    List.replicate 2 ⟨⟨2.1, 0.7⟩, 1000.1, 0⟩

theorem Exponential.steps_startsAtOne : Exponential.steps.StartsAtOne := by
  intro z hz
  rw [Binary64.eq_zero hz]
  cases z.negative <;> decide +kernel

theorem Rendering.aroundGap_is_neutral :
    Exponential.steps.StartsAtOne ∧ ({} : Settings).validate = .ok () ∧
    aroundGap.filter (Selection.Shows {} .globe) ≠ [] ∧
    (∀ a ∈ aroundGap.filter (Selection.Shows {} .globe),
      ∀ b ∈ aroundGap.filter (Selection.Shows {} .globe), a.value ≤ b.value) ∧
    (∀ a ∈ aroundGap.filter (Selection.Shows {} .globe), ¬ a.value.TripleStrays) ∧
    ∃ r, @of Exponential.steps aroundGap ⟨.globe, 3⟩ {} .standard = .ok r ∧
      ∀ d ∈ r.picture.cells, d.normalized = 50 := by
  have hvalid : ({} : Settings).validate = .ok () := by rfl
  have hall : aroundGap.filter (Selection.Shows {} .globe) = aroundGap := by decide +kernel
  have hsome : aroundGap.filter (Selection.Shows {} .globe) ≠ [] := by
    rw [hall]
    simp [aroundGap]
  have hflat : ∀ a ∈ aroundGap.filter (Selection.Shows {} .globe),
      ∀ b ∈ aroundGap.filter (Selection.Shows {} .globe), a.value ≤ b.value := by
    rw [hall]
    decide +kernel
  have hstays : ∀ a ∈ aroundGap.filter (Selection.Shows {} .globe), ¬ a.value.TripleStrays := by
    rw [hall]
    decide +kernel
  obtain ⟨hexists, hneutral⟩ := @flat_is_neutral Exponential.steps {} Exponential.steps_startsAtOne
    hvalid aroundGap ⟨.globe, 3⟩ hsome hflat .standard
  obtain ⟨r, hr⟩ := hexists (by rfl) (Rendering.not_overlong_of_fits (by decide))
  exact ⟨Exponential.steps_startsAtOne, hvalid, hsome, hflat, hstays, r, hr, (hneutral r hr).2 hstays⟩

end Barogrid
