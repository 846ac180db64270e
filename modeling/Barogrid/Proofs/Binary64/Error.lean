import Mathlib
import Barogrid.Proofs.Binary64.Operations

/-!
# How far rounding goes

`RoundsTo v x` says which magnitudes `x` passes.  What a computation has to know is how far from `v`
this leads:

* `RoundsTo.nearest` -- **no magnitude is nearer to the value** than that of a finite result;
* `RoundsTo.error_le` -- a value of at most 53 digits on some scale is missed by half a place of this
  scale at most, and `RoundsTo.isFinite_of_short` says that it does not overflow;
* `RoundsTo.units_eq_of_near` -- a value that is less than half a place away from what can be
  represented is rounded to it, unless the places become finer there.
-/

namespace Barogrid

namespace Binary64

variable {v : ℚ} {x : Binary64}

/-! ## 1. Nothing is nearer -/

theorem abs_units (x : Binary64) : |(x.units : ℚ)| = magnitudeUnits x.magnitude := by
  rw [← natAbs_units, Nat.cast_natAbs, Int.cast_abs]

namespace RoundsTo

/-- The sign is right, so the error is one of magnitudes. -/
theorem abs_error (h : RoundsTo v x) :
    |(x.units : ℚ) - v| = |(magnitudeUnits x.magnitude : ℚ) - abs v| := by
  rw [units_eq, signed]
  rcases lt_trichotomy v 0 with hneg | rfl | hpos
  · rw [h.negative_of_neg hneg, abs_of_neg hneg, ← abs_neg]
    simp [add_comm]
  · simp [h.magnitude_of_zero]
  · rw [h.negative_of_pos hpos, abs_of_pos hpos]
    simp

/-- **No magnitude is nearer to the value than that of the result.** -/
theorem nearest (h : RoundsTo v x) (hx : x.isFinite = true) (m : Nat) :
    |(x.units : ℚ) - v| ≤ |(magnitudeUnits m : ℚ) - abs v| := by
  have hfinite : x.magnitude < infiniteMagnitude := by simpa [isFinite] using hx
  have hle : ∀ {a b : Nat}, a ≤ b → (magnitudeUnits a : ℚ) ≤ magnitudeUnits b := fun hab => by
    exact_mod_cast magnitudeUnits_strictMono.monotone hab
  rw [h.abs_error]
  rcases Nat.lt_trichotomy m x.magnitude with hlt | rfl | hgt
  · -- the value lies beyond the middle before the result
    have hbefore := ((h.lt_magnitude_iff (x.magnitude - 1)).mp (by omega)).2
    have hmiddle : (magnitudeUnits (x.magnitude - 1) : ℚ) + magnitudeUnits x.magnitude ≤ 2 * |v| := by
      rw [RoundsAbove, Nat.sub_add_cancel (by omega)] at hbefore
      rcases hbefore with hlt | ⟨heq, -⟩
      · exact hlt.le
      · exact heq.le
    have hm := hle (show m ≤ x.magnitude - 1 by omega)
    have hself := hle (Nat.sub_le x.magnitude 1)
    rw [abs_sub_comm (magnitudeUnits m : ℚ),
      abs_of_nonneg (show 0 ≤ |v| - magnitudeUnits m by linarith)]
    exact abs_le.mpr ⟨by linarith, by linarith⟩
  · exact le_rfl
  · -- and not beyond the middle after it
    have hafter : ¬ RoundsAbove |v| x.magnitude := by
      intro habove
      exact absurd ((h.lt_magnitude_iff x.magnitude).mpr ⟨hfinite, habove⟩) (lt_irrefl _)
    have hmiddle : 2 * |v| ≤ magnitudeUnits x.magnitude + magnitudeUnits (x.magnitude + 1) := by
      by_contra hlt
      exact hafter (Or.inl (not_le.mp hlt))
    have hm := hle (show x.magnitude + 1 ≤ m from hgt)
    have hself := hle (Nat.le_succ x.magnitude)
    rw [abs_of_nonneg (show 0 ≤ (magnitudeUnits m : ℚ) - |v| by linarith)]
    exact abs_le.mpr ⟨by linarith, by linarith⟩

/-- No number of places, on any scale, is nearer. -/
theorem error_le_of_places (h : RoundsTo v x) (hx : x.isFinite = true) (e : Nat) {q : Nat}
    (hq : q ≤ 2 * leadingBit) : |(x.units : ℚ) - v| ≤ |(q : ℚ) * 2 ^ e - abs v| := by
  obtain ⟨m, -, hm⟩ := exists_magnitude e hq
  have hnearest := h.nearest hx m
  rw [hm] at hnearest
  exact_mod_cast hnearest

theorem eq_of_places (h : RoundsTo v x) (hx : x.isFinite = true) {e q : Nat}
    (hq : q ≤ 2 * leadingBit) (hv : |v| = q * 2 ^ e) : (x.units : ℚ) = v := by
  have herror := h.error_le_of_places hx e hq
  rw [hv, sub_self, abs_zero] at herror
  exact sub_eq_zero.mp (abs_nonpos_iff.mp herror)

/-! ## 2. Half a place -/

/-- A value of at most 53 digits on a scale that is not too high does not overflow. -/
theorem isFinite_of_short (h : RoundsTo v x) {e : Nat} (he : e ≤ 2044)
    (hv : |v| ≤ 2 ^ 53 * 2 ^ e) : x.isFinite = true := by
  obtain ⟨y, hy, hunits⟩ := exists_units (2 ^ 53) e (by decide) he
  refine h.isFinite_of_abs_le hy (hv.trans_eq ?_)
  rw [hunits]
  push_cast
  exact (abs_of_nonneg (by positivity)).symm

/-- **It is missed by half a place at most.** -/
theorem error_le (h : RoundsTo v x) (hx : x.isFinite = true) {e : Nat}
    (hv : |v| ≤ 2 ^ 53 * 2 ^ e) : |(x.units : ℚ) - v| ≤ 2 ^ e / 2 := by
  have hpow : (0 : ℚ) < 2 ^ e := by positivity
  -- the number of places nearest to the value
  obtain ⟨q, hq, hnear⟩ : ∃ q : Nat, q ≤ 2 * leadingBit ∧ |(q : ℚ) - |v| / 2 ^ e| ≤ 1 / 2 := by
    have hle : |v| / 2 ^ e ≤ 2 ^ 53 := (div_le_iff₀ hpow).mpr hv
    have hnonneg : 0 ≤ |v| / 2 ^ e := by positivity
    refine ⟨⌊|v| / 2 ^ e + 1 / 2⌋₊, ?_, ?_⟩
    · refine Nat.le_of_lt_succ ((Nat.floor_lt (by positivity)).mpr ?_)
      rw [leadingBit_eq]
      push_cast
      linarith
    · have hfloor := Nat.floor_le (show 0 ≤ |v| / 2 ^ e + 1 / 2 by positivity)
      have hceil := Nat.lt_floor_add_one (|v| / 2 ^ e + 1 / 2)
      exact abs_le.mpr ⟨by linarith, by linarith⟩
  refine (h.error_le_of_places hx e hq).trans ?_
  calc |(q : ℚ) * 2 ^ e - abs v| = |((q : ℚ) - |v| / 2 ^ e) * 2 ^ e| := by
        rw [sub_mul, div_mul_cancel₀ _ hpow.ne']
    _ = |(q : ℚ) - |v| / 2 ^ e| * 2 ^ e := by rw [abs_mul, abs_of_pos hpow]
    _ ≤ 1 / 2 * 2 ^ e := by gcongr
    _ = 2 ^ e / 2 := by ring

end RoundsTo

/-! ## 3. Less than half a place -/

theorem RoundsAbove.of_le {k m : Nat} (h : RoundsAbove v m) (hkm : k ≤ m) : RoundsAbove v k := by
  rcases hkm.lt_or_eq with hlt | rfl
  · have hk : (magnitudeUnits k : ℚ) < magnitudeUnits m := by
      exact_mod_cast magnitudeUnits_strictMono hlt
    have hk' : (magnitudeUnits (k + 1) : ℚ) ≤ magnitudeUnits m := by
      exact_mod_cast magnitudeUnits_strictMono.monotone hlt
    have hm : (magnitudeUnits m : ℚ) ≤ magnitudeUnits (m + 1) := by
      exact_mod_cast magnitudeUnits_strictMono.monotone (Nat.le_succ m)
    refine Or.inl ?_
    rcases h with h | ⟨h, -⟩ <;> linarith
  · exact h

/-- A value that is less than half a place away from `q` places -- or half a place, if `q` is even --
has their magnitude, if the places are as wide on both sides. -/
theorem RoundsTo.magnitude_eq_of_near (h : RoundsTo v x) (hx : x.isFinite = true) {s q : Nat}
    (hbit : s = 0 ∨ leadingBit < q) (hq : q < 2 * leadingBit)
    (hnear : |abs v - q * 2 ^ s| < 2 ^ s / 2 ∨ (|abs v - q * 2 ^ s| ≤ 2 ^ s / 2 ∧ q % 2 = 0)) :
    x.magnitude = s * leadingBit + q := by
  have hfinite : x.magnitude < infiniteMagnitude := by simpa [isFinite] using hx
  have hplace : ∀ {p : Nat}, (s = 0 ∨ leadingBit ≤ p) → p ≤ 2 * leadingBit →
      (magnitudeUnits (s * leadingBit + p) : ℚ) = p * 2 ^ s := fun hp hp' => by
    rw [magnitudeUnits_place hp hp']
    push_cast
    rfl
  have hparity : ∀ p : Nat, (s * leadingBit + p) % 2 = p % 2 := fun p => by
    unfold leadingBit
    omega
  have hhalf : |abs v - q * 2 ^ s| ≤ 2 ^ s / 2 := hnear.elim le_of_lt And.left
  have heven : |abs v - q * 2 ^ s| = 2 ^ s / 2 → q % 2 = 0 := fun heq =>
    hnear.elim (fun hlt => absurd heq hlt.ne) And.right
  rw [abs_le] at hhalf
  refine le_antisymm (not_lt.mp fun hlt => ?_) (not_lt.mp fun hlt => ?_)
  · -- beyond the middle after the places
    have habove := ((h.lt_magnitude_iff _).mp hlt).2
    rw [RoundsAbove, Nat.add_assoc, hplace (hbit.imp_right le_of_lt) hq.le,
      hplace (hbit.imp_right (by omega)) hq, hparity] at habove
    push_cast at habove
    rcases habove with hmiddle | ⟨hmiddle, hodd⟩
    · linarith
    · have htie := heven (by rw [abs_of_nonneg (by linarith)]; linarith)
      omega
  · -- not beyond the middle before them
    obtain ⟨p, rfl⟩ : ∃ p, q = p + 1 := by
      rcases hbit with rfl | hbit
      · exact ⟨q - 1, by omega⟩
      · exact ⟨q - 1, by omega⟩
    refine absurd ((h.lt_magnitude_iff x.magnitude).mpr ⟨hfinite, ?_⟩) (lt_irrefl _)
    refine RoundsAbove.of_le (m := s * leadingBit + p) ?_ (by omega)
    rw [RoundsAbove, Nat.add_assoc, hplace (hbit.imp_right (by omega)) (by omega),
      hplace (hbit.imp_right le_of_lt) hq.le, hparity]
    push_cast at hhalf ⊢
    rcases (show (p : ℚ) * 2 ^ s + (p + 1) * 2 ^ s ≤ 2 * |v| by linarith).lt_or_eq with hlt | heq
    · exact Or.inl hlt
    · have htie := heven (by push_cast; rw [abs_of_nonpos (by linarith)]; linarith)
      exact Or.inr ⟨heq, by omega⟩

/-- What is as far from zero as `w` and no farther from `v` than `w` is `w`, if both are near. -/
theorem eq_of_abs_eq_of_near {u w : ℚ} {s q : Nat} (hw : |w| = q * 2 ^ s) (habs : |u| = |w|)
    (hu : |u - v| ≤ |v - w|) (hnear : |v - w| ≤ 2 ^ s / 2) : u = w := by
  rcases abs_eq_abs.mp habs with heq | hopp
  · exact heq
  -- the opposite value would be twice `w` away
  have hsum : -(2 * w) = (u - v) + (v - w) := by
    rw [hopp]
    ring
  have htwice : 2 * |w| ≤ 2 ^ s := calc
    2 * |w| = |(u - v) + (v - w)| := by rw [← hsum, abs_neg, abs_mul, abs_two]
    _ ≤ |u - v| + |v - w| := abs_add_le _ _
    _ ≤ 2 ^ s := by linarith
  have hzero : q = 0 := by
    by_contra hne
    have hpos : (1 : ℚ) ≤ q := by exact_mod_cast Nat.one_le_iff_ne_zero.mpr hne
    have hpow : (0 : ℚ) < 2 ^ s := by positivity
    rw [hw] at htwice
    nlinarith
  rw [hzero, Nat.cast_zero, zero_mul, abs_eq_zero] at hw
  rw [hopp, hw, neg_zero]

/-- **What is that near to a value of `q` places is rounded to this value.** -/
theorem RoundsTo.units_eq_of_near (h : RoundsTo v x) (hx : x.isFinite = true) {w : ℚ} {s q : Nat}
    (hw : |w| = q * 2 ^ s) (hbit : s = 0 ∨ leadingBit < q) (hq : q < 2 * leadingBit)
    (hnear : |v - w| < 2 ^ s / 2 ∨ (|v - w| ≤ 2 ^ s / 2 ∧ q % 2 = 0)) : (x.units : ℚ) = w := by
  have hdistance : |abs v - q * 2 ^ s| ≤ |v - w| := by
    rw [← hw]
    exact abs_abs_sub_abs_le v w
  have hmagnitude := h.magnitude_eq_of_near hx hbit hq
    (hnear.imp hdistance.trans_lt (And.imp_left hdistance.trans))
  have hplaces : (magnitudeUnits x.magnitude : ℚ) = |w| := by
    rw [hmagnitude, magnitudeUnits_place (hbit.imp_right le_of_lt) hq.le, hw]
    push_cast
    rfl
  have herror : |(x.units : ℚ) - v| ≤ |v - w| := by
    rw [h.abs_error, hplaces, abs_sub_comm v]
    exact abs_abs_sub_abs_le w v
  refine eq_of_abs_eq_of_near hw ?_ herror (hnear.elim le_of_lt And.left)
  rw [abs_units, hplaces]

end Binary64

end Barogrid
