import Mathlib
import Barogrid.Resolution
import Barogrid.Proofs.Binary64.Order
import Barogrid.Proofs.Settings

/-!
# Key lengths of valid settings

With valid settings the distance of a zoom level from the lower end is not negative, and the upper
end is at least one; so the part of the span that is added to the least length is a moderate number,
far below what a 64-bit number can hold.

* `lengthOffset_le` -- what is added is moderate;
* `keyLength_eq` -- **the key length** where there is one;
* `keyLength_spec` -- **the key length lies in the range of the settings**, unless the distance does
  not fit its field, which takes settings whose zoom levels are farther apart than that.
-/

namespace Barogrid

namespace Binary64

/-! ## 1. Moderate doubles -/

/-- A double that is a number from 0 to `k`. -/
structure Moderate (k : Nat) (x : Binary64) : Prop where
  isFinite : x.isFinite = true
  nonneg : 0 ≤ x.units
  le : x.units ≤ k * 2 ^ oneScale

/-- What is rounded from a value between 0 and `k` stays between them. -/
theorem RoundsTo.moderate {v : ℚ} {x : Binary64} (h : RoundsTo v x) {k : Nat} (hk : k ≤ 2 ^ 53)
    (h0 : 0 ≤ v) (hv : v ≤ k * 2 ^ oneScale) : x.Moderate k := by
  obtain ⟨hfinite, hunits⟩ := ofNat_exact hk
  have hle : v ≤ (ofNat k).units := by
    rw [hunits]
    push_cast
    exact hv
  have hge : ((0 : Binary64).units : ℚ) ≤ v := by
    rw [zero_units.2]
    exact_mod_cast h0
  refine ⟨h.isFinite_of_abs_le hfinite ?_, ?_, ?_⟩
  · rw [abs_of_nonneg h0]
    exact hle.trans (le_abs_self _)
  · rw [← zero_units.2]
    exact (rank_le_iff_units_le _ _).mp (h.le_rank zero_units.1 hge)
  · have := (rank_le_iff_units_le _ _).mp (h.rank_le hfinite hle)
    rwa [hunits] at this

/-- A quotient by an infinity is a zero. -/
theorem div_of_isInfinite {x y : Binary64} (hx : x.isFinite = true) (hy : y.isInfinite = true) :
    x / y = zero (x.negative != y.negative) := by
  have hnumber : y.isNaN = false := by
    rw [eq_infinity hy]
    exact isNaN_infinity _
  show div x y = _
  simp [div, isNaN_of_isFinite hx, isInfinite_of_isFinite hx, hy, hnumber]

/-- A whole number of at least one does not become less than one. -/
theorem ofInt_units_le {i : Int} (hi : 1 ≤ i) : 2 ^ oneScale ≤ (ofInt i).units := by
  have hi : (1 : ℚ) ≤ i := by exact_mod_cast hi
  have hrank := (ofInt_roundsTo i).le_rank one_units.1 (by
    rw [one_units.2]
    push_cast
    exact le_mul_of_one_le_left (by positivity) hi)
  have hle := (rank_le_iff_units_le _ _).mp hrank
  rwa [one_units.2] at hle

namespace Moderate

variable {x y : Binary64} {j k : Nat}

theorem ofNat {n : Nat} (hn : n ≤ k) (hk : k ≤ 2 ^ 53) : (Binary64.ofNat n).Moderate k := by
  refine (ofNat_roundsTo n).moderate hk (by positivity) ?_
  have : (n : ℚ) ≤ k := by exact_mod_cast hn
  gcongr

theorem mul (hx : x.Moderate j) (hy : y.Moderate k) (hjk : j * k ≤ 2 ^ 53) :
    (x * y).Moderate (j * k) := by
  have hpow : (0 : ℚ) < 2 ^ oneScale := by positivity
  have hx₀ : (0 : ℚ) ≤ x.units := by exact_mod_cast hx.nonneg
  have hy₀ : (0 : ℚ) ≤ y.units := by exact_mod_cast hy.nonneg
  have hx₁ : (x.units : ℚ) ≤ j * 2 ^ oneScale := by exact_mod_cast hx.le
  have hy₁ : (y.units : ℚ) ≤ k * 2 ^ oneScale := by exact_mod_cast hy.le
  refine (mul_roundsTo hx.isFinite hy.isFinite).moderate hjk (by positivity) ?_
  rw [div_le_iff₀ hpow]
  generalize (2 : ℚ) ^ oneScale = u at *
  calc (x.units * y.units : ℚ) ≤ (j * u) * (k * u) := mul_le_mul hx₁ hy₁ hy₀ (by positivity)
    _ = (j * k : Nat) * u * u := by push_cast; ring

/-- A quotient by something that is at least one, be it infinite. -/
theorem div_ofInt (hx : x.Moderate k) (hk : k ≤ 2 ^ 53) {i : Int} (hi : 1 ≤ i) :
    (x / Binary64.ofInt i).Moderate k := by
  cases hinf : (Binary64.ofInt i).isInfinite with
  | true =>
    rw [div_of_isInfinite hx.isFinite hinf]
    exact (roundsTo_self (x := zero _) rfl).moderate hk (by simp [units_eq, zero, signed])
      (by simp [units_eq, zero, signed])
  | false =>
    have hfinite := isFinite_of_not (ofInt_roundsTo i).isNaN hinf
    have hge := ofInt_units_le hi
    have hpow : (0 : ℚ) < 2 ^ oneScale := by positivity
    have hge' : (2 ^ oneScale : ℚ) ≤ (Binary64.ofInt i).units := by exact_mod_cast hge
    have hx₀ : (0 : ℚ) ≤ x.units := by exact_mod_cast hx.nonneg
    have hx₁ : (x.units : ℚ) ≤ k * 2 ^ oneScale := by exact_mod_cast hx.le
    have hpos : (0 : ℚ) < (Binary64.ofInt i).units := hpow.trans_le hge'
    have hnonzero := isZero_of_units_pos (x := Binary64.ofInt i) (by exact_mod_cast hpos)
    refine (div_roundsTo hx.isFinite hfinite hnonzero).moderate hk (by positivity) ?_
    rw [div_mul_eq_mul_div, div_le_iff₀ hpos]
    exact mul_le_mul hx₁ hge' hpow.le (hx₀.trans hx₁)

end Moderate

end Binary64

namespace Resolution

/-! ## 2. Key lengths -/

theorem zoomOffset_bounds {s : Settings} (h : s.Valid) (zoom : Int) :
    0 ≤ zoomOffset zoom s ∧ zoomOffset zoom s ≤ s.maxZoom - s.minZoom := by
  have := h.zooms
  unfold zoomOffset heldZoom
  omega

theorem zoomOffset_fits {s : Settings} (h : s.Valid) (hfits : s.ZoomFits) (zoom : Int) :
    IntegerRange.int32.contains (zoomOffset zoom s) = true := by
  obtain ⟨h0, hle⟩ := zoomOffset_bounds h zoom
  have hspan := (IntegerRange.contains_iff.mp hfits).2
  rw [IntegerRange.contains_iff]
  simp only [IntegerRange.int32] at *
  omega

/-- What is added to the least length is moderate: no more than the whole span for each step. -/
theorem lengthOffset_le {s : Settings} (h : s.Valid) {n k : Nat} (hn : n ≤ k) (hk : k ≤ 2 ^ 31) :
    lengthOffset n s ≤ k * (s.maxLength - s.minLength) := by
  have hspan := h.span_le
  have hoffset : (Binary64.ofInt n).Moderate k := Binary64.Moderate.ofNat hn (by omega)
  have hproduct := (hoffset.div_ofInt (by omega) h.maxZoom_pos).mul
    (Binary64.Moderate.ofNat le_rfl (by omega)) ((Nat.mul_le_mul hk hspan).trans (by decide))
  exact Binary64.roundNat_le hproduct.isFinite hproduct.le

/-- Where the distance of the zoom level fits its field, the length before it is held in the range of the
settings fits its own. -/
theorem length_fits {s : Settings} (h : s.Valid) {zoom : Int}
    (hfits : IntegerRange.int32.contains (zoomOffset zoom s) = true) :
    IntegerRange.word.contains
      ((lengthOffset (zoomOffset zoom s) s + s.minLength : Nat) : Int) = true := by
  have hle : zoomOffset zoom s ≤ 0x7fffffff := (IntegerRange.contains_iff.mp hfits).2
  obtain ⟨n, hn⟩ := Int.eq_ofNat_of_zero_le (zoomOffset_bounds h zoom).1
  have hsmall : lengthOffset (zoomOffset zoom s) s ≤ 2 ^ 31 * 11 := by
    rw [hn]
    exact (lengthOffset_le h (k := 2 ^ 31) (by omega) le_rfl).trans
      (Nat.mul_le_mul_left _ h.span_le)
  have hlengths := h.lengths
  have hlongest := h.maxLength_le
  unfold Geohash.maxLength at hlongest
  rw [IntegerRange.contains_iff]
  simp only [IntegerRange.word]
  omega

/-- **The key length**, where the distance of the zoom level fits its field: the least length and what is
added to it, as far as the range of the settings goes. -/
theorem keyLength_eq {s : Settings} (h : s.Valid) {zoom : Int}
    (hfits : IntegerRange.int32.contains (zoomOffset zoom s) = true) :
    keyLength zoom s =
      .ok (min (lengthOffset (zoomOffset zoom s) s + s.minLength) s.maxLength) := by
  simp only [keyLength, hfits, length_fits h hfits, Bool.not_true, Bool.false_eq_true, ↓reduceIte]
  rw [max_eq_left (Nat.le_add_left _ _)]

/-- **The key length lies in the range of the settings**, unless the distance of the zoom level does
not fit its field. -/
theorem keyLength_spec {s : Settings} (h : s.Valid) (zoom : Int) :
    (∃ n, keyLength zoom s = .ok n ∧ s.minLength ≤ n ∧ n ≤ s.maxLength) ∨
      (keyLength zoom s = .error (.overflow "zoom offset") ∧
        IntegerRange.int32.contains (s.maxZoom - s.minZoom) = false) := by
  obtain ⟨h0, hle⟩ := zoomOffset_bounds h zoom
  cases hfits : IntegerRange.int32.contains (zoomOffset zoom s) with
  | false =>
    refine Or.inr ⟨by simp [keyLength, hfits], ?_⟩
    rw [Bool.eq_false_iff, ne_eq, IntegerRange.contains_iff] at hfits ⊢
    simp only [IntegerRange.int32] at *
    omega
  | true =>
    have hlengths := h.lengths
    exact Or.inl ⟨_, keyLength_eq h hfits, by omega, by omega⟩

theorem keyLength_within {s : Settings} (h : s.Valid) {zoom : Int} {n : Nat}
    (hkey : keyLength zoom s = .ok n) : s.minLength ≤ n ∧ n ≤ s.maxLength := by
  rcases keyLength_spec h zoom with ⟨n', hkey', hbounds⟩ | ⟨hfail, -⟩
  · rw [hkey'] at hkey
    exact Except.ok.inj hkey ▸ hbounds
  · rw [hfail] at hkey
    cases hkey

/-- Zoom levels that fit all have a key length. -/
theorem exists_keyLength {s : Settings} (h : s.Valid) (hfits : s.ZoomFits) (zoom : Int) :
    ∃ n, keyLength zoom s = .ok n := by
  rcases keyLength_spec h zoom with ⟨n, hkey, -⟩ | ⟨-, hfails⟩
  · exact ⟨n, hkey⟩
  · rw [hfits] at hfails
    cases hfails

end Resolution

end Barogrid
