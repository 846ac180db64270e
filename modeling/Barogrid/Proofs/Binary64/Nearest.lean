import Mathlib
import Barogrid.Proofs.Binary64.Value

/-!
# What rounding to the nearest double comes to

`nearestMagnitude n d e` is computed from logarithms, shifts and a division.  This file reduces it
to one fact about the exact value `v = n / d · 2 ^ e`:

* `RoundsAbove v m` -- `v` lies beyond the middle between the magnitudes `m` and `m + 1`, or on it
  with `m` odd;
* `lt_nearestMagnitude_iff` -- **the nearest magnitude is greater than `m` exactly when `v` rounds
  above `m`.**  The three properties that arithmetic needs follow from it without looking at the
  algorithm again: rounding is monotone, it keeps what can be represented, and it depends on the
  exact value alone;
* `RoundsTo v x` -- `x` is the double nearest to `v` units, its sign included.

The order of results (`RoundsTo.rank_mono`) is that of the values also where these are too large: the
infinities stand behind the greatest finite magnitude like a further finite one.
-/

namespace Barogrid

/-! ## 1. The parts of the computation -/

/-- `n / d · 2 ^ e`, the value that is rounded. -/
def exactUnits (n d : Nat) (e : Int) : ℚ := (n : ℚ) / d * 2 ^ e

/-- The positive part of an exponent is the exponent and its negative part. -/
theorem two_pow_toNat (k : Int) : (2 : ℚ) ^ k.toNat = 2 ^ k * 2 ^ (-k).toNat := by
  have h : (k.toNat : Int) = k + ((-k).toNat : Int) := by omega
  rw [← zpow_natCast, h, zpow_add₀ (by norm_num), zpow_natCast]

/-- Rounding half to even goes beyond `k` when the quotient is beyond the middle after `k`. -/
theorem lt_halfEven_iff {n d k : Nat} (hd : 0 < d) :
    k < halfEven n d ↔ (2 * k + 1) * d < 2 * n ∨ ((2 * k + 1) * d = 2 * n ∧ k % 2 = 1) := by
  have hsplit : d * (n / d) + n % d = n := Nat.div_add_mod n d
  have hmod : n % d < d := Nat.mod_lt n hd
  have hval : halfEven n d =
      if d < 2 * (n % d) ∨ (2 * (n % d) = d ∧ n / d % 2 = 1) then n / d + 1 else n / d := rfl
  rw [hval]
  generalize n / d = q at *
  generalize n % d = r at *
  have hexp : (2 * k + 1) * d = 2 * (d * k) + d := by ring
  rw [hexp]
  rcases Nat.lt_trichotomy k q with hlt | rfl | hgt
  · have : d * (k + 1) ≤ d * q := Nat.mul_le_mul_left d hlt
    rw [Nat.mul_add, Nat.mul_one] at this
    constructor
    · intro _
      omega
    · intro _
      split <;> omega
  · split <;> omega
  · have : d * (q + 1) ≤ d * k := Nat.mul_le_mul_left d hgt
    rw [Nat.mul_add, Nat.mul_one] at this
    constructor
    · intro h
      split at h <;> omega
    · intro h
      omega

theorem floorLog2_le {n d : Nat} (hn : 0 < n) (hd : 0 < d) :
    (2 : ℚ) ^ floorLog2 n d ≤ (n : ℚ) / d ∧ (n : ℚ) / d < 2 ^ (floorLog2 n d + 1) := by
  have hdq : (0 : ℚ) < d := by exact_mod_cast hd
  have hn₁ : (2 : ℚ) ^ (n.log2 : Int) ≤ n := by
    rw [zpow_natCast]
    exact_mod_cast Nat.log2_self_le hn.ne'
  have hn₂ : (n : ℚ) < 2 ^ ((n.log2 : Int) + 1) := by
    have : n < 2 ^ (n.log2 + 1) := Nat.lt_log2_self
    exact_mod_cast this
  have hd₁ : (2 : ℚ) ^ (d.log2 : Int) ≤ d := by
    rw [zpow_natCast]
    exact_mod_cast Nat.log2_self_le hd.ne'
  have hd₂ : (d : ℚ) < 2 ^ ((d.log2 : Int) + 1) := by
    have : d < 2 ^ (d.log2 + 1) := Nat.lt_log2_self
    exact_mod_cast this
  have htest : ∀ k : Int, n <<< (-k).toNat < d <<< k.toNat ↔ (n : ℚ) / d < 2 ^ k := by
    intro k
    rw [Nat.shiftLeft_eq, Nat.shiftLeft_eq, ← Nat.cast_lt (α := ℚ)]
    push_cast
    rw [two_pow_toNat k, ← mul_assoc, mul_lt_mul_iff_left₀ (by positivity), div_lt_iff₀ hdq,
      mul_comm (d : ℚ)]
  unfold floorLog2
  simp only [htest]
  generalize hk : (n.log2 : Int) - d.log2 = k
  split
  · rename_i hlt
    refine ⟨?_, by simpa using hlt⟩
    rw [le_div_iff₀ hdq]
    calc (2 : ℚ) ^ (k - 1) * d ≤ 2 ^ (k - 1) * 2 ^ ((d.log2 : Int) + 1) := by gcongr
      _ = 2 ^ (n.log2 : Int) := by
        rw [← zpow_add₀ (by norm_num)]
        congr 1
        omega
      _ ≤ n := hn₁
  · rename_i hge
    refine ⟨not_lt.mp hge, ?_⟩
    rw [div_lt_iff₀ hdq]
    calc (n : ℚ) < 2 ^ ((n.log2 : Int) + 1) := hn₂
      _ = 2 ^ (k + 1) * 2 ^ (d.log2 : Int) := by
        rw [← zpow_add₀ (by norm_num)]
        congr 1
        omega
      _ ≤ 2 ^ (k + 1) * d := by gcongr

namespace Binary64

/-- `places` rounds the value, in places of scale `s`, half to even. -/
theorem lt_places_iff {n d k : Nat} {e : Int} (s : Nat) (hd : 0 < d) :
    k < places n d e s ↔
      (2 * k + 1) * 2 ^ s < 2 * exactUnits n d e ∨
        ((2 * k + 1) * 2 ^ s = 2 * exactUnits n d e ∧ k % 2 = 1) := by
  have hdq : (0 : ℚ) < d := by exact_mod_cast hd
  have hneg : -((s : Int) - e) = e - s := by omega
  have hscale : ((2 : ℚ) ^ ((s : Int) - e).toNat) * 2 ^ e = 2 ^ s * 2 ^ (e - (s : Int)).toNat := by
    rw [two_pow_toNat, hneg, mul_right_comm, ← zpow_add₀ (by norm_num), sub_add_cancel, zpow_natCast]
  -- both sides of a comparison, multiplied by the positive `d · 2 ^ (s - e)`
  have hleft : (((2 * k + 1) * d <<< ((s : Int) - e).toNat : Nat) : ℚ) * 2 ^ e =
      (2 * k + 1) * 2 ^ s * (d * 2 ^ (e - (s : Int)).toNat) := by
    rw [Nat.shiftLeft_eq]
    push_cast
    linear_combination ((2 * k + 1) * d : ℚ) * hscale
  have hright : ((2 * n <<< (e - (s : Int)).toNat : Nat) : ℚ) * 2 ^ e =
      2 * exactUnits n d e * (d * 2 ^ (e - (s : Int)).toNat) := by
    rw [Nat.shiftLeft_eq]
    unfold exactUnits
    push_cast
    field_simp
  have hfactor : (0 : ℚ) < d * 2 ^ (e - (s : Int)).toNat := by positivity
  have he : (0 : ℚ) < 2 ^ e := by positivity
  unfold places
  rw [lt_halfEven_iff (by rw [Nat.shiftLeft_eq]; positivity)]
  refine or_congr ?_ (and_congr_left fun _ => ?_)
  · rw [← Nat.cast_lt (α := ℚ), ← mul_lt_mul_iff_left₀ he, hleft, hright,
      mul_lt_mul_iff_left₀ hfactor]
  · rw [← Nat.cast_inj (R := ℚ), ← mul_left_inj' he.ne', hleft, hright,
      mul_left_inj' hfactor.ne']

/-! ## 2. The nearest magnitude -/

/-- Does `v` lie beyond the middle between the magnitudes `m` and `m + 1`?  On the middle the even
one of the two is taken. -/
def RoundsAbove (v : ℚ) (m : Nat) : Prop :=
  (magnitudeUnits m : ℚ) + magnitudeUnits (m + 1) < 2 * v ∨
    ((magnitudeUnits m : ℚ) + magnitudeUnits (m + 1) = 2 * v ∧ m % 2 = 1)

theorem RoundsAbove.mono {v w : ℚ} {m : Nat} (h : RoundsAbove v m) (hvw : v ≤ w) :
    RoundsAbove w m := by
  rcases h with h | ⟨h, hodd⟩
  · exact Or.inl (by linarith)
  · rcases hvw.lt_or_eq with hlt | rfl
    · exact Or.inl (by linarith)
    · exact Or.inr ⟨h, hodd⟩

/-- A value that is a magnitude rounds above those before it, and no others. -/
theorem roundsAbove_magnitudeUnits (a m : Nat) : RoundsAbove (magnitudeUnits a) m ↔ m < a := by
  unfold RoundsAbove
  have hstep : magnitudeUnits m < magnitudeUnits (m + 1) :=
    magnitudeUnits_strictMono (Nat.lt_succ_self m)
  norm_cast
  constructor
  · intro h
    by_contra hle
    have := magnitudeUnits_strictMono.monotone (not_lt.mp hle)
    omega
  · intro h
    have := magnitudeUnits_strictMono.monotone (show m + 1 ≤ a from h)
    omega

/-- The value has at most 53 digits on the rounding scale, and at least that many above scale 0. -/
theorem exactUnits_lt {n d : Nat} (e : Int) (hn : 0 < n) (hd : 0 < d) :
    exactUnits n d e < 2 * leadingBit * 2 ^ roundingScale n d e ∧
      (roundingScale n d e ≠ 0 → leadingBit * 2 ^ roundingScale n d e ≤ exactUnits n d e) := by
  obtain ⟨hlow, hhigh⟩ := floorLog2_le hn hd
  have hbit : (leadingBit : ℚ) = 2 ^ (52 : Int) := by norm_num [leadingBit_eq]
  have hs : roundingScale n d e = (floorLog2 n d + e - 52).toNat := rfl
  generalize floorLog2 n d = k at *
  generalize roundingScale n d e = s at *
  rw [hbit, ← zpow_natCast]
  unfold exactUnits
  constructor
  · calc (n : ℚ) / d * 2 ^ e < 2 ^ (k + 1) * 2 ^ e := by gcongr
      _ = 2 ^ (k + 1 + e) := (zpow_add₀ (by norm_num) _ _).symm
      _ ≤ 2 ^ (53 + (s : Int)) := zpow_le_zpow_right₀ (by norm_num) (by omega)
      _ = 2 * 2 ^ (52 : Int) * 2 ^ (s : Int) := by
        rw [zpow_add₀ (by norm_num)]
        norm_num
  · intro hne
    calc (2 : ℚ) ^ (52 : Int) * 2 ^ (s : Int) = 2 ^ (52 + (s : Int)) :=
          (zpow_add₀ (by norm_num) _ _).symm
      _ = 2 ^ (k + e) := by
        congr 1
        omega
      _ = 2 ^ k * 2 ^ e := zpow_add₀ (by norm_num) _ _
      _ ≤ (n : ℚ) / d * 2 ^ e := by gcongr

/-- The rounded value has at most 53 digits on the rounding scale too, or the next power of two. -/
theorem places_bounds {n d : Nat} (e : Int) (hn : 0 < n) (hd : 0 < d) :
    places n d e (roundingScale n d e) ≤ 2 * leadingBit ∧
      (roundingScale n d e ≠ 0 → leadingBit ≤ places n d e (roundingScale n d e)) := by
  obtain ⟨hbelow, habove⟩ := exactUnits_lt e hn hd
  generalize roundingScale n d e = s at *
  have hplaces : ∀ k, k < places n d e s ↔ _ := fun k => lt_places_iff (e := e) s hd
  have hpow : (0 : ℚ) < 2 ^ s := by positivity
  constructor
  · by_contra hlt
    rcases (hplaces _).mp (not_le.mp hlt) with h | ⟨h, -⟩ <;> push_cast at h <;> nlinarith
  · intro hs
    have hbit : 1 ≤ leadingBit := by decide
    have hlast : leadingBit - 1 < places n d e s := by
      refine (hplaces _).mpr (Or.inl ?_)
      have := habove hs
      push_cast [hbit]
      nlinarith
    omega

/-- On its scale, a place is passed exactly when the magnitude is, for their middles are the same
numbers. -/
theorem lt_places_iff_roundsAbove {n d s k : Nat} {e : Int} (hd : 0 < d)
    (hbit : s = 0 ∨ leadingBit ≤ k) (hk : k < 2 * leadingBit) :
    k < places n d e s ↔ RoundsAbove (exactUnits n d e) (s * leadingBit + k) := by
  have hsum : ((k * 2 ^ s : Nat) : ℚ) + ((k + 1) * 2 ^ s : Nat) = (2 * k + 1) * 2 ^ s := by
    push_cast
    ring
  have hodd : (s * leadingBit + k) % 2 = k % 2 := by
    unfold leadingBit
    omega
  rw [lt_places_iff s hd]
  unfold RoundsAbove
  rw [magnitudeUnits_place hbit hk.le, Nat.add_assoc,
    magnitudeUnits_place (hbit.imp_right (by omega)) hk, hsum, hodd]

/-- **The nearest magnitude is greater than `m` exactly when the value rounds above `m`.** -/
theorem lt_nearestMagnitude_iff {n d m : Nat} {e : Int} (hd : 0 < d) :
    m < nearestMagnitude n d e ↔ RoundsAbove (exactUnits n d e) m := by
  rcases Nat.eq_zero_or_pos n with rfl | hn
  · have h0 : exactUnits 0 d e = (magnitudeUnits 0 : ℚ) := by simp [exactUnits]
    rw [h0, roundsAbove_magnitudeUnits]
    simp [nearestMagnitude]
  obtain ⟨hbelow, habove⟩ := exactUnits_lt e hn hd
  obtain ⟨hmost, hleast⟩ := places_bounds e hn hd
  have hval : nearestMagnitude n d e =
      roundingScale n d e * leadingBit + places n d e (roundingScale n d e) := by
    simp [nearestMagnitude, hn.ne']
  rw [hval]
  generalize roundingScale n d e = s at *
  by_cases hlow : s ≠ 0 ∧ m < s * leadingBit + leadingBit
  · -- before the scale begins, the value is a whole binade away
    obtain ⟨hs, hm⟩ := hlow
    have hbase : magnitudeUnits (s * leadingBit + leadingBit) = leadingBit * 2 ^ s :=
      magnitudeUnits_place (Or.inr le_rfl) (by omega)
    refine iff_of_true (by have := hleast hs; omega) ?_
    refine RoundsAbove.mono ((roundsAbove_magnitudeUnits _ m).mpr hm) ?_
    rw [hbase]
    push_cast
    exact habove hs
  have hstart : s * leadingBit ≤ m := by
    rcases Nat.eq_zero_or_pos s with rfl | hs
    · omega
    · have := not_and.mp hlow hs.ne'
      omega
  obtain ⟨k, rfl⟩ := Nat.exists_eq_add_of_le hstart
  rw [Nat.add_lt_add_iff_left]
  rcases Nat.lt_or_ge k (2 * leadingBit) with hk | hk
  · exact lt_places_iff_roundsAbove hd (by omega) hk
  · -- beyond the scale, the value was left behind
    have htop : magnitudeUnits (s * leadingBit + 2 * leadingBit) = 2 * leadingBit * 2 ^ s :=
      magnitudeUnits_place (Or.inr (by omega)) le_rfl
    refine iff_of_false (by omega) fun h => ?_
    have hle : exactUnits n d e ≤ (magnitudeUnits (s * leadingBit + 2 * leadingBit) : Nat) := by
      rw [htop]
      push_cast
      exact hbelow.le
    have := (roundsAbove_magnitudeUnits _ _).mp (h.mono hle)
    omega

/-! ## 3. The nearest double -/

/-- `x` is the double nearest to `v` units, or an infinity when `v` is too large.  A zero may have
either sign. -/
structure RoundsTo (v : ℚ) (x : Binary64) : Prop where
  lt_magnitude_iff : ∀ m, m < x.magnitude ↔ m < infiniteMagnitude ∧ RoundsAbove |v| m
  negative_of_neg : v < 0 → x.negative = true
  negative_of_pos : 0 < v → x.negative = false

theorem exactUnits_nonneg (n d : Nat) (e : Int) : 0 ≤ exactUnits n d e := by
  unfold exactUnits
  positivity

/-- The factor that a sign stands for. -/
def signFactor (negative : Bool) : ℚ := if negative then -1 else 1

theorem abs_signFactor (negative : Bool) : |signFactor negative| = 1 := by
  cases negative <;> simp [signFactor]

/-- **`nearest` rounds to nearest.** -/
theorem nearest_roundsTo (negative : Bool) (n : Nat) {d : Nat} (e : Int) (hd : 0 < d) :
    RoundsTo (signFactor negative * exactUnits n d e) (nearest negative n d e) where
  lt_magnitude_iff m := by
    rw [abs_mul, abs_signFactor, one_mul, abs_of_nonneg (exactUnits_nonneg n d e),
      ← lt_nearestMagnitude_iff hd]
    unfold nearest ofMagnitude
    rw [lt_min_iff, and_comm]
  negative_of_neg h := by
    have := exactUnits_nonneg n d e
    cases negative with
    | false =>
      simp only [signFactor, Bool.false_eq_true, ↓reduceIte] at h
      linarith
    | true => rfl
  negative_of_pos h := by
    have := exactUnits_nonneg n d e
    cases negative with
    | false => rfl
    | true =>
      simp only [signFactor, ↓reduceIte] at h
      linarith

/-- A finite double is nearest to its own value. -/
theorem roundsTo_self {x : Binary64} (h : x.isFinite = true) : RoundsTo x.units x where
  lt_magnitude_iff m := by
    have habs : |(x.units : ℚ)| = magnitudeUnits x.magnitude := by
      rw [← natAbs_units, Nat.cast_natAbs, Int.cast_abs]
    rw [habs, roundsAbove_magnitudeUnits]
    simp only [isFinite, decide_eq_true_eq] at h
    omega
  negative_of_neg h := by
    have h : x.units < 0 := by exact_mod_cast h
    rw [units_eq, signed] at h
    split at h
    · assumption
    · omega
  negative_of_pos h := by
    have h : 0 < x.units := by exact_mod_cast h
    rw [units_eq, signed] at h
    split at h
    · omega
    · simp_all

namespace RoundsTo

variable {v w : ℚ} {x y : Binary64}

theorem isNaN (h : RoundsTo v x) : x.isNaN = false := by
  rw [Binary64.isNaN, decide_eq_false_iff_not]
  intro hlt
  exact absurd ((h.lt_magnitude_iff _).mp hlt).1 (lt_irrefl _)

theorem magnitude_mono (hx : RoundsTo v x) (hy : RoundsTo w y) (h : |v| ≤ |w|) :
    x.magnitude ≤ y.magnitude := by
  refine le_of_forall_lt fun m hm => ?_
  obtain ⟨hinf, habove⟩ := (hx.lt_magnitude_iff m).mp hm
  exact (hy.lt_magnitude_iff m).mpr ⟨hinf, habove.mono h⟩

theorem magnitude_of_zero (h : RoundsTo 0 x) : x.magnitude = 0 := by
  by_contra hne
  have habove := ((h.lt_magnitude_iff 0).mp (Nat.pos_of_ne_zero hne)).2
  rw [abs_zero] at habove
  have hzero : RoundsAbove (magnitudeUnits 0) 0 := by simpa using habove
  exact absurd ((roundsAbove_magnitudeUnits 0 0).mp hzero) (lt_irrefl 0)

theorem rank_of_nonneg (h : RoundsTo v x) (hv : 0 ≤ v) : x.rank = x.magnitude := by
  unfold rank signed
  rcases hv.lt_or_eq with hpos | rfl
  · rw [h.negative_of_pos hpos]
    rfl
  · rw [h.magnitude_of_zero]
    simp

theorem rank_of_nonpos (h : RoundsTo v x) (hv : v ≤ 0) : x.rank = -x.magnitude := by
  unfold rank signed
  rcases hv.lt_or_eq with hneg | rfl
  · rw [h.negative_of_neg hneg]
    rfl
  · rw [h.magnitude_of_zero]
    simp

/-- **Rounding is monotone.** -/
theorem rank_mono (hx : RoundsTo v x) (hy : RoundsTo w y) (h : v ≤ w) : x.rank ≤ y.rank := by
  rcases le_total 0 v with hv | hv
  · have hw : 0 ≤ w := hv.trans h
    have := hx.magnitude_mono hy (by rwa [abs_of_nonneg hv, abs_of_nonneg hw])
    rw [hx.rank_of_nonneg hv, hy.rank_of_nonneg hw]
    omega
  rcases le_total 0 w with hw | hw
  · rw [hx.rank_of_nonpos hv, hy.rank_of_nonneg hw]
    omega
  · have := hy.magnitude_mono hx (by rw [abs_of_nonpos hv, abs_of_nonpos hw]; linarith)
    rw [hx.rank_of_nonpos hv, hy.rank_of_nonpos hw]
    omega

/-- What lies at or below a finite double is not rounded beyond it. -/
theorem rank_le (hx : RoundsTo v x) (hy : y.isFinite = true) (h : v ≤ y.units) :
    x.rank ≤ y.rank :=
  hx.rank_mono (roundsTo_self hy) h

theorem le_rank (hx : RoundsTo v x) (hy : y.isFinite = true) (h : (y.units : ℚ) ≤ v) :
    y.rank ≤ x.rank :=
  (roundsTo_self hy).rank_mono hx h

/-- **What can be represented is kept.** -/
theorem exact (hx : RoundsTo v x) (hy : y.isFinite = true) (h : v = y.units) :
    x.isFinite = true ∧ x.units = y.units := by
  have hself := roundsTo_self hy
  have hxy := hx.magnitude_mono hself (by rw [h])
  have hrank : x.rank = y.rank := le_antisymm (hx.rank_le hy h.le) (hx.le_rank hy h.ge)
  simp only [isFinite, decide_eq_true_eq] at hy ⊢
  exact ⟨by omega, (rank_eq_iff_units_eq x y).mp hrank⟩

end RoundsTo

end Binary64

end Barogrid
