import Mathlib
import Barogrid.Settings

/-!
# What validation promises

Settings to which there is no objection satisfy a handful of inequalities, from which everything
else in the program starts.  `validate_eq_ok_iff` gives them all at once, so that nothing has to go
through the list of objections again.
-/

namespace Barogrid.Settings

/-- Settings to which there is no objection. -/
structure Valid (s : Settings) : Prop where
  pressures : s.minPressure < s.maxPressure
  minLength_pos : 1 ≤ s.minLength
  lengths : s.minLength ≤ s.maxLength
  maxLength_le : s.maxLength ≤ Geohash.maxLength
  zooms : s.minZoom < s.maxZoom
  maxZoom_pos : 1 ≤ s.maxZoom
  stops : 2 ≤ s.stops.length ∧ s.stops.length ≤ 3
  opacity : s.opacity.within 0 1 = true

theorem objection?_eq_none_iff {s : Settings} : s.objection? = none ↔ s.Valid := by
  unfold objection?
  constructor
  · intro h
    split at h <;> try cases h
    rename_i h₁
    split at h <;> try cases h
    rename_i h₂
    split at h <;> try cases h
    rename_i h₃
    split at h <;> try cases h
    rename_i h₄
    split at h <;> try cases h
    rename_i h₅
    split at h <;> try cases h
    rename_i h₆
    simp only [Bool.not_eq_true', decide_eq_false_iff_not, not_not, Bool.not_eq_false] at h₁ h₆
    exact ⟨h₁, by omega, by omega, by omega, by omega, by omega, by omega, h₆⟩
  · rintro ⟨h₁, h₂, h₃, h₄, h₅, h₆, h₇, h₈⟩
    have hlengths : ¬ (s.minLength = 0 ∨ Geohash.maxLength < s.maxLength) := by omega
    have hzooms : ¬ (s.maxZoom ≤ s.minZoom ∨ s.maxZoom ≤ 0) := by omega
    have hstops : ¬ (s.stops.length < 2 ∨ 3 < s.stops.length) := by omega
    rw [if_neg (by simpa using h₁), if_neg hlengths, if_neg (not_lt.mpr h₃), if_neg hzooms,
      if_neg hstops, if_neg (by simp [h₈])]

/-- **Validation accepts settings exactly when all of this holds.** -/
theorem validate_eq_ok_iff {s : Settings} : s.validate = .ok () ↔ s.Valid := by
  rw [← objection?_eq_none_iff]
  unfold validate
  cases s.objection? <;> simp

/-- Valid settings have a gradient. -/
theorem Valid.gradient {s : Settings} (h : s.Valid) : s.gradient = .ok ⟨s.stops, h.stops⟩ := by
  unfold Settings.gradient Gradient.ofStops
  rw [dif_pos h.stops]

/-- Keys have from 1 to 12 digits. -/
theorem Valid.span_le {s : Settings} (h : s.Valid) : s.maxLength - s.minLength ≤ 11 := by
  have hleast := h.minLength_pos
  have hlongest := h.maxLength_le
  unfold Geohash.maxLength at hlongest
  omega

/-- Do the zoom levels lie close enough together for the field that holds their distance? -/
def ZoomFits (s : Settings) : Prop :=
  IntegerRange.int32.contains (s.maxZoom - s.minZoom) = true

end Barogrid.Settings
