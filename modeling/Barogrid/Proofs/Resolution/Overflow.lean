import Mathlib
import Barogrid.Proofs.Resolution

/-!
# Where the key length overflows

Three things can go wrong in the arithmetic of the key length: the distance of a zoom level from the least one
has to fit 32 bits, the length 64 bits, and the greatest zoom level must not be a zero.  Validation sees to
the second and the third.  For the first it asks too little: the greatest zoom level has to lie above the
least one, but it may lie `2 ^ 31` levels above it.

* `zoomOffset_fits_iff` -- at which zoom levels the distance fits;
* `overflows_by_distance_only` -- **only the distance overflows**, at exactly these zoom levels, and there are
  none if and only if the distance between the two ends fits.
-/

namespace Barogrid.Resolution

variable {s : Settings}

/-- Are there more levels between the least zoom level and this one than 32 bits can count? -/
def Overflows (zoom : Int) (s : Settings) : Prop := s.minZoom + 0x80000000 ≤ min zoom s.maxZoom

instance (zoom : Int) (s : Settings) : Decidable (Overflows zoom s) :=
  inferInstanceAs (Decidable (_ ≤ _))

theorem zoomOffset_fits_iff (h : s.Valid) (zoom : Int) :
    IntegerRange.int32.contains (zoomOffset zoom s) = true ↔ ¬ Overflows zoom s := by
  have hzooms := h.zooms
  rw [IntegerRange.contains_iff]
  unfold Overflows zoomOffset heldZoom
  simp only [IntegerRange.int32]
  omega

/-- It is enough to look at the greatest zoom level. -/
theorem zoomFits_iff (h : s.Valid) : s.ZoomFits ↔ ∀ zoom, ¬ Overflows zoom s := by
  have hzooms := h.zooms
  unfold Settings.ZoomFits Overflows
  rw [IntegerRange.contains_iff]
  simp only [IntegerRange.int32]
  constructor
  · intro hfits zoom
    omega
  · intro hnone
    have hlast := hnone s.maxZoom
    omega

/-- **Only the distance overflows**: at each zoom level either it does, or it fits, the length fits as well
and there is a key length.  It overflows nowhere exactly if the two ends of the zoom range are near enough.
The greatest zoom level is never divided by as a zero. -/
theorem overflows_by_distance_only (hvalid : s.validate = .ok ()) :
    (∀ zoom, if Overflows zoom s then keyLength zoom s = .error (.overflow "zoom offset")
      else IntegerRange.int32.contains (zoomOffset zoom s) = true ∧
        IntegerRange.word.contains
          ((lengthOffset (zoomOffset zoom s) s + s.minLength : Nat) : Int) = true ∧
        ∃ n, keyLength zoom s = .ok n) ∧
    (s.ZoomFits ↔ ∀ zoom, ¬ Overflows zoom s) ∧ (Binary64.ofInt s.maxZoom).isZero = false := by
  have h := Settings.validate_eq_ok_iff.mp hvalid
  refine ⟨fun zoom => ?_, zoomFits_iff h, ?_⟩
  · split
    · rename_i hover
      have hfits : IntegerRange.int32.contains (zoomOffset zoom s) = false := by
        rw [Bool.eq_false_iff, ne_eq, zoomOffset_fits_iff h, not_not]
        exact hover
      simp [keyLength, hfits]
    · rename_i hover
      have hfits := (zoomOffset_fits_iff h zoom).mpr hover
      exact ⟨hfits, length_fits h hfits, _, keyLength_eq h hfits⟩
  · have hpos : (0 : Int) < 2 ^ Binary64.oneScale := by positivity
    exact Binary64.isZero_of_units_pos (hpos.trans_le (Binary64.ofInt_units_le h.maxZoom_pos))

/-- Zoom levels that begin at the least 32-bit number. -/
def farApart : Settings := { minZoom := -0x80000000, maxZoom := 1 }

theorem farApart_overflows : farApart.validate = .ok () ∧ ¬ farApart.ZoomFits ∧
    keyLength 1 farApart = .error (.overflow "zoom offset") ∧
    IntegerRange.int32.contains (zoomOffset (-1) farApart) = true ∧ keyLength (-1) farApart = .ok 7 := by
  have hvalid : farApart.validate = .ok () := by rfl
  have hlast : Overflows 1 farApart := by decide
  obtain ⟨hevery, hnone, -⟩ := overflows_by_distance_only hvalid
  have hover := hevery 1
  have hbefore := hevery (-1)
  rw [if_pos hlast] at hover
  rw [if_neg (by decide)] at hbefore
  exact ⟨hvalid, fun hfits => hnone.mp hfits 1 hlast, hover, hbefore.1, by rfl⟩

end Barogrid.Resolution
