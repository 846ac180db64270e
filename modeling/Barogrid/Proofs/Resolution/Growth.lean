import Mathlib
import Barogrid.Proofs.Resolution

/-!
# Key lengths grow with the zoom level

Between the zoom level and the key length there are a quotient and a product, both rounded, and the rounding
to a whole number.  Each of them keeps the order; the two ends of the zoom range hold the rest in place.

* `div_ofInt_le` -- quotients by a whole number keep the order, be it so great that it is infinite;
* `lengthOffset_mono` -- **what is added to the least length grows with the distance**;
* `keyLength_follows_zoom` -- **the key length grows with the zoom level**, from the least length on and up
  to the greatest zoom level.
-/

namespace Barogrid

namespace Binary64

/-- Quotients by the same whole number are in the order of what is divided. -/
theorem div_ofInt_le {x y : Binary64} (hx : x.isFinite = true) (hy : y.isFinite = true) {i : Int}
    (hi : 1 ≤ i) (hxy : x ≤ y) : x / ofInt i ≤ y / ofInt i := by
  cases hinf : (ofInt i).isInfinite with
  | true =>
    rw [div_of_isInfinite hx hinf, div_of_isInfinite hy hinf]
    have hzero : ∀ negative negative', zero negative ≤ zero negative' := by decide
    exact hzero _ _
  | false =>
    have hpos : 0 < (ofInt i).units := lt_of_lt_of_le (by positivity) (ofInt_units_le hi)
    exact (div_follows (isFinite_of_not (ofInt_roundsTo i).isNaN hinf) hpos).le hxy

end Binary64

namespace Resolution

variable {s : Settings} {zoom : Int}

/-! ## 1. Distances -/

theorem zoomOffset_of_le (h : s.Valid) (hlow : zoom ≤ s.minZoom) : zoomOffset zoom s = 0 := by
  have := h.zooms
  unfold zoomOffset heldZoom
  omega

theorem zoomOffset_of_ge (h : s.Valid) (hhigh : s.maxZoom ≤ zoom) :
    zoomOffset zoom s = s.maxZoom - s.minZoom := by
  have := h.zooms
  unfold zoomOffset heldZoom
  omega

theorem zoomOffset_mono (s : Settings) : Monotone (zoomOffset · s) := by
  intro zoom zoom' hle
  show zoomOffset zoom s ≤ zoomOffset zoom' s
  unfold zoomOffset heldZoom
  omega

/-- **What is added to the least length grows with the distance.** -/
theorem lengthOffset_mono (h : s.Valid) {n m : Nat} (hnm : n ≤ m) (hm : m ≤ 2 ^ 31) :
    lengthOffset n s ≤ lengthOffset m s := by
  rcases Nat.eq_zero_or_pos (s.maxLength - s.minLength) with hnone | hspan
  · have hadded := lengthOffset_le h hnm hm
    rw [hnone, Nat.mul_zero] at hadded
    omega
  have hshort := h.span_le
  have hratio := Binary64.div_ofInt_le (Binary64.ofNat_exact (n := n) (by omega)).1
    (Binary64.ofNat_exact (n := m) (by omega)).1 h.maxZoom_pos (Binary64.ofNat_le hnm)
  exact Binary64.roundNat_mul_ofNat_le hspan (by omega) hratio

theorem lengthOffset_zero (h : s.Valid) : lengthOffset 0 s = 0 := by
  have hadded := lengthOffset_le h (n := 0) (k := 0) le_rfl (by omega)
  rw [Nat.zero_mul] at hadded
  exact Nat.le_zero.mp hadded

/-! ## 2. Zoom levels -/

/-- **The key length grows with the zoom level**: there is one at every zoom level, it stays within the
range of the settings, it is the least length up to the least zoom level, and from the greatest one on it does
not change any more. -/
theorem keyLength_follows_zoom (hvalid : s.validate = .ok ()) (hfits : s.ZoomFits) :
    ∃ length : Int → Nat, (∀ zoom, keyLength zoom s = .ok (length zoom)) ∧ Monotone length ∧
      (∀ zoom, s.minLength ≤ length zoom ∧ length zoom ≤ s.maxLength) ∧
      (∀ zoom ≤ s.minZoom, length zoom = s.minLength) ∧
      ∀ zoom, s.maxZoom ≤ zoom → length zoom = length s.maxZoom := by
  have h := Settings.validate_eq_ok_iff.mp hvalid
  have hlengths := h.lengths
  have hspan : s.maxZoom - s.minZoom ≤ 0x7fffffff := (IntegerRange.contains_iff.mp hfits).2
  refine ⟨fun zoom => min (lengthOffset (zoomOffset zoom s) s + s.minLength) s.maxLength,
    fun zoom => keyLength_eq h (zoomOffset_fits h hfits zoom), fun zoom zoom' hle => ?_,
    fun zoom => by simp [hlengths], fun zoom hlow => ?_, fun zoom hhigh => ?_⟩
  · have hdistance : zoomOffset zoom s ≤ zoomOffset zoom' s := zoomOffset_mono s hle
    obtain ⟨n, hn⟩ := Int.eq_ofNat_of_zero_le (zoomOffset_bounds h zoom).1
    obtain ⟨hfirst, hlast⟩ := zoomOffset_bounds h zoom'
    obtain ⟨m, hm⟩ := Int.eq_ofNat_of_zero_le hfirst
    rw [hn, hm] at hdistance
    have hadded := lengthOffset_mono h (n := n) (m := m) (by omega) (by omega)
    simp only [hn, hm]
    omega
  · simp only [zoomOffset_of_le h hlow, lengthOffset_zero h, Nat.zero_add]
    exact min_eq_left hlengths
  · simp only [zoomOffset_of_ge h hhigh, zoomOffset_of_ge h le_rfl]

/-- Settings whose zoom levels begin below zero, so that the distance can exceed the greatest one. -/
def belowZero : Settings := { minZoom := -4, maxZoom := 5 }

theorem belowZero_follows_zoom : belowZero.validate = .ok () ∧ belowZero.ZoomFits ∧
    ∃ length : Int → Nat, Monotone length ∧ length (-9) = 3 ∧ keyLength 0 belowZero = .ok (length 0) ∧
      length 0 = 6 ∧ length 20 = length 5 := by
  have hvalid : belowZero.validate = .ok () := by rfl
  have hfits : belowZero.ZoomFits := by rfl
  obtain ⟨length, hlength, hmono, -, hlow, hhigh⟩ := keyLength_follows_zoom hvalid hfits
  have hzero : keyLength 0 belowZero = .ok 6 := by rfl
  refine ⟨hvalid, hfits, length, hmono, hlow (-9) (by decide), hlength 0, ?_, hhigh 20 (by decide)⟩
  rw [hlength] at hzero
  exact Except.ok.inj hzero

end Resolution

end Barogrid
