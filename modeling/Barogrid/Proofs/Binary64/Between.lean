import Mathlib
import Barogrid.Proofs.Binary64.Copies

/-!
# Doubles within bounds

Rounding is monotone.  So the sum of two doubles within bounds lies within the sums of the bounds, and half
of this sum lies within the bounds again, however narrow they are.

* `Between` -- a double lies within bounds, ends included;
* `add_between` -- **sums stay within the sums of the bounds**;
* `half_between` -- **the middle of two doubles stays within the bounds**, if these can be doubled without
  overflow;
* `clamp_le`, `le_clamp` -- **clamping does not pass what lies within the bounds**;
* `clamp_lt_clamp_iff` -- and it keeps two doubles apart, unless both lie beyond the same end.
-/

namespace Barogrid

namespace Binary64

variable {v : ℚ} {lo hi x y : Binary64}

/-! ## 1. Sums and their halves -/

/-- The double lies within the bounds. -/
def Between (lo hi x : Binary64) : Prop := lo ≤ x ∧ x ≤ hi

theorem not_lt_iff (hx : x.isNaN = false) (hy : y.isNaN = false) : ¬ x < y ↔ y ≤ x := by
  rw [lt_iff, le_iff]
  simp [hx, hy]

theorem within_iff : x.within lo hi = true ↔ Between lo hi x := by
  simp [within, Between]

/-- What lies within finite bounds is finite. -/
theorem Between.isFinite (h : Between lo hi x) (hlo : lo.isFinite = true) (hhi : hi.isFinite = true) :
    x.isFinite = true := by
  rcases le_cases h.1 with rfl | rfl | ⟨-, hx⟩
  · rw [isFinite_infinity] at hlo
    cases hlo
  · rcases le_cases h.2 with hsame | rfl | ⟨hx, -⟩
    · cases hsame
    · exact hhi
    · exact hx
  · exact hx

theorem between_iff_units (hlo : lo.isFinite = true) (hhi : hi.isFinite = true)
    (hx : x.isFinite = true) : Between lo hi x ↔ lo.units ≤ x.units ∧ x.units ≤ hi.units :=
  and_congr (le_iff_units_le hlo hx) (le_iff_units_le hx hhi)

/-- A double is never passed by rounding, from below -/
theorem RoundsTo.units_le (h : RoundsTo v x) (hx : x.isFinite = true) (hy : y.isFinite = true)
    (hv : v ≤ y.units) : (x.units : ℚ) ≤ y.units := by
  exact_mod_cast (le_iff_units_le hx hy).mp (h.le (roundsTo_self hy) hv)

/-- or from above. -/
theorem RoundsTo.le_units (h : RoundsTo v x) (hx : x.isFinite = true) (hy : y.isFinite = true)
    (hv : (y.units : ℚ) ≤ v) : (y.units : ℚ) ≤ x.units := by
  exact_mod_cast (le_iff_units_le hy hx).mp ((roundsTo_self hy).le h hv)

/-- What lies within the bounds is rounded to a double within them. -/
theorem RoundsTo.between (h : RoundsTo v x) (hlo : lo.isFinite = true) (hhi : hi.isFinite = true)
    (hv : (lo.units : ℚ) ≤ v ∧ v ≤ hi.units) : Between lo hi x :=
  ⟨(roundsTo_self hlo).le h hv.1, h.le (roundsTo_self hhi) hv.2⟩

/-- Sums of two stay between the sums of the bounds. -/
theorem add_between {lo' hi' : Binary64} (hlo : (lo + lo').isFinite = true)
    (hhi : (hi + hi').isFinite = true) (hx : Between lo hi x) (hy : Between lo' hi' y) :
    Between (lo + lo') (hi + hi') (x + y) := by
  obtain ⟨hlof, hlof'⟩ := isFinite_of_add hlo
  obtain ⟨hhif, hhif'⟩ := isFinite_of_add hhi
  have hxf := hx.isFinite hlof hhif
  have hyf := hy.isFinite hlof' hhif'
  obtain ⟨hxlo, hxhi⟩ := (between_iff_units hlof hhif hxf).mp hx
  obtain ⟨hylo, hyhi⟩ := (between_iff_units hlof' hhif' hyf).mp hy
  have hsum := add_roundsTo hxf hyf
  exact ⟨(add_roundsTo hlof hlof').le hsum (by exact_mod_cast add_le_add hxlo hylo),
    hsum.le (add_roundsTo hhif hhif') (by exact_mod_cast add_le_add hxhi hyhi)⟩

/-- **The middle of two doubles within the bounds lies within them.** -/
theorem half_between (hlo : (lo + lo).isFinite = true) (hhi : (hi + hi).isFinite = true)
    (hx : Between lo hi x) (hy : Between lo hi y) : Between lo hi (x + y).half := by
  have hsum := add_between hlo hhi hx hy
  have hfinite := hsum.isFinite hlo hhi
  obtain ⟨hbelow, habove⟩ := (between_iff_units hlo hhi hfinite).mp hsum
  have hbelow : ((lo + lo).units : ℚ) ≤ (x + y).units := by exact_mod_cast hbelow
  have habove : ((x + y).units : ℚ) ≤ (hi + hi).units := by exact_mod_cast habove
  rw [add_self_units hlo] at hbelow
  rw [add_self_units hhi] at habove
  refine (half_roundsTo hfinite).between (isFinite_of_add hlo).1 (isFinite_of_add hhi).1 ⟨?_, ?_⟩ <;>
    linarith

/-- A whole number is at least some number of one binary digit and at most twice this number. -/
theorem exists_digit_le {d k : Nat} (hd : d < 2 ^ k) :
    ∃ i e : Nat, i ≤ 1 ∧ e ≤ k ∧ i * 2 ^ e ≤ d ∧ d ≤ i * 2 ^ (e + 1) := by
  rcases Nat.eq_zero_or_pos d with rfl | hpos
  · exact ⟨0, 0, by decide, by omega, by simp, by simp⟩
  · refine ⟨1, d.log2, le_rfl, ((Nat.log2_lt hpos.ne').mpr hd).le, ?_, ?_⟩
    · rw [one_mul]
      exact Nat.log2_self_le hpos.ne'
    · rw [one_mul]
      exact Nat.lt_log2_self.le

theorem half_isFinite (hx : x.isFinite = true) : x.half.isFinite = true := by
  refine (half_roundsTo hx).isFinite_of_abs_le hx ?_
  rw [abs_div]
  exact div_le_self (abs_nonneg _) (by norm_num)

/-- Half of what `d` is rounded to is rounded to `d` at most, even if both roundings go up. -/
theorem half_units_le {d k : Nat} (h : RoundsTo d x) (hd : d < 2 ^ k) (hk : k < 2044) :
    x.isFinite = true ∧ x.half.units ≤ d := by
  obtain ⟨i, e, hi, he, hlow, hhigh⟩ := exists_digit_le hd
  obtain ⟨twice, htwice, htwiceUnits⟩ := exists_units i (e + 1) (by omega) (by omega)
  obtain ⟨once, honce, honceUnits⟩ := exists_units i e (by omega) (by omega)
  have hle : (d : ℚ) ≤ twice.units := by
    rw [htwiceUnits]
    exact_mod_cast hhigh
  have hx : x.isFinite = true := by
    refine h.isFinite_of_abs_le htwice ?_
    rw [Nat.abs_cast]
    exact hle.trans (le_abs_self _)
  have hbelow := h.units_le hx htwice hle
  have hhalf : (x.units / 2 : ℚ) ≤ once.units := by
    rw [htwiceUnits] at hbelow
    rw [honceUnits]
    push_cast at hbelow ⊢
    rw [pow_succ] at hbelow
    linarith
  have honceLe : once.units ≤ d := by
    rw [honceUnits]
    exact_mod_cast hlow
  have hhalfLe := (half_roundsTo hx).units_le (half_isFinite hx) honce hhalf
  exact ⟨hx, (by exact_mod_cast hhalfLe : x.half.units ≤ once.units).trans honceLe⟩

theorem half_nonneg (hx : x.isFinite = true) (h : 0 ≤ x.units) : 0 ≤ x.half.units := by
  have hhalf := (half_roundsTo hx).nonneg (by positivity)
  have hunits := (le_iff_units_le zero_units.1 (half_isFinite hx)).mp hhalf
  rwa [zero_units.2] at hunits

/-- **The middle of two doubles, taken as the lower one and half of what is missing, lies between
them.** -/
theorem add_half_sub_between {k : Nat} (hlo : lo.isFinite = true) (hhi : hi.isFinite = true)
    (h : lo ≤ hi) (hgap : hi.units - lo.units < 2 ^ k) (hk : k < 2044) :
    Between lo hi (lo + (hi - lo).half) := by
  obtain ⟨d, hd⟩ := Int.eq_ofNat_of_zero_le (sub_nonneg.mpr ((le_iff_units_le hlo hhi).mp h))
  have hsub := sub_roundsTo hhi hlo
  rw [← Int.cast_sub, hd, Int.cast_natCast] at hsub
  rw [hd] at hgap
  obtain ⟨hfinite, hle⟩ := half_units_le hsub (by exact_mod_cast hgap) hk
  have hunits := (le_iff_units_le zero_units.1 hfinite).mp (hsub.nonneg (by positivity))
  rw [zero_units.2] at hunits
  have hnonneg := half_nonneg hfinite hunits
  refine (add_roundsTo hlo (half_isFinite hfinite)).between hlo hhi ⟨?_, ?_⟩
  · exact_mod_cast Int.le_add_of_nonneg_right hnonneg
  · have hbelow : lo.units + (hi - lo).half.units ≤ hi.units := by omega
    exact_mod_cast hbelow

/-! ## 2. Clamping -/

/-- What lies within the bounds is not passed by clamping, from below -/
theorem clamp_le (hxy : x ≤ y) (hy : Between lo hi y) : x.clamp lo hi ≤ y := by
  obtain ⟨hx, hyNaN, hrank⟩ := le_iff.mp hxy
  obtain ⟨hclamp, hclampRank⟩ := clamp_rank hx (Binary64.le_trans hy.1 hy.2)
  have hlow := (le_iff.mp hy.1).2.2
  exact le_iff.mpr ⟨hclamp, hyNaN, by omega⟩

/-- or from above. -/
theorem le_clamp (hyx : y ≤ x) (hy : Between lo hi y) : y ≤ x.clamp lo hi := by
  obtain ⟨hyNaN, hx, hrank⟩ := le_iff.mp hyx
  obtain ⟨hclamp, hclampRank⟩ := clamp_rank hx (Binary64.le_trans hy.1 hy.2)
  have hhigh := (le_iff.mp hy.2).2.2
  exact le_iff.mpr ⟨hyNaN, hclamp, by omega⟩

/-- A NaN is left alone. -/
theorem clamp_of_isNaN (hx : x.isNaN = true) (lo hi : Binary64) : x.clamp lo hi = x := by
  have hbelow : ¬ x < lo := fun h => Bool.false_ne_true ((lt_iff.mp h).1.symm.trans hx)
  have habove : ¬ hi < x := fun h => Bool.false_ne_true ((lt_iff.mp h).2.1.symm.trans hx)
  unfold clamp
  rw [if_neg hbelow, if_neg habove]

theorem lt_of_lt_clamp (h : y < x.clamp lo hi) (hy : Between lo hi y) : y < x := by
  by_contra hlt
  cases hx : x.isNaN with
  | true => exact hlt (clamp_of_isNaN hx lo hi ▸ h)
  | false =>
    have hle := clamp_le ((not_lt_iff (lt_iff.mp h).1 hx).mp hlt) hy
    exact (not_lt_iff (lt_iff.mp h).1 (le_iff.mp hle).1).mpr hle h

theorem lt_of_clamp_lt (h : x.clamp lo hi < y) (hy : Between lo hi y) : x < y := by
  by_contra hlt
  cases hx : x.isNaN with
  | true => exact hlt (clamp_of_isNaN hx lo hi ▸ h)
  | false =>
    have hle := le_clamp ((not_lt_iff hx (lt_iff.mp h).2.1).mp hlt) hy
    exact (not_lt_iff (le_iff.mp hle).2.1 (lt_iff.mp h).2.1).mpr hle h

/-- **Two doubles stay apart unless both lie beyond the same end.** -/
theorem clamp_lt_clamp_iff (h : lo < hi) :
    x.clamp lo hi < y.clamp lo hi ↔ x < y ∧ ¬ (hi ≤ x ∨ y ≤ lo) := by
  obtain ⟨hlo, hhi, hends⟩ := lt_iff.mp h
  have hle : lo ≤ hi := le_iff.mpr ⟨hlo, hhi, hends.le⟩
  cases hx : x.isNaN with
  | true => simp [clamp_of_isNaN hx, lt_iff, hx]
  | false =>
    cases hy : y.isNaN with
    | true => simp [clamp_of_isNaN hy, lt_iff, hy]
    | false =>
      obtain ⟨hxClamp, hxRank⟩ := clamp_rank hx hle
      obtain ⟨hyClamp, hyRank⟩ := clamp_rank hy hle
      simp only [lt_iff, le_iff, hxClamp, hyClamp, hx, hy, hlo, hhi, true_and]
      omega

end Binary64

end Barogrid
