import Mathlib
import Barogrid.Proofs.Binary64.Operations

/-!
# Operations that keep the order

Rounding is monotone, so an operation whose exact result grows with its argument keeps the order of
doubles, provided that it does the right thing at the infinities.  This is proved once (`Follows.le`)
and then read off for each operation:

* `sub_follows`, `div_follows`, `one_add_follows`, `mul_follows` -- taking away a double, dividing by
  and multiplying with a positive one, and adding to one;
* `neg_le_neg`, `one_div_le_one_div` -- the two operations that turn the order around;
* `sqrt_units_pos` -- a square root other than zero is positive;
* `le_roundNat_iff`, `le_floorNat_iff` -- what rounding to a whole number and leaving out the fraction
  give, and `roundNat_mono` -- that rounding keeps the order.
-/

namespace Barogrid

namespace Binary64

variable {x y : Binary64} {v w : ℚ}

/-! ## 1. The line of doubles -/

theorem RoundsTo.le (hx : RoundsTo v x) (hy : RoundsTo w y) (h : v ≤ w) : x ≤ y :=
  le_iff.mpr ⟨hx.isNaN, hy.isNaN, hx.rank_mono hy h⟩

theorem ofNat_le {n m : Nat} (h : n ≤ m) : ofNat n ≤ ofNat m := by
  have h : (n : ℚ) ≤ m := by exact_mod_cast h
  exact (ofNat_roundsTo n).le (ofNat_roundsTo m) (by gcongr)

protected theorem le_trans {z : Binary64} (h : x ≤ y) (h' : y ≤ z) : x ≤ z := by
  rw [le_iff] at *
  exact ⟨h.1, h'.2.1, h.2.2.trans h'.2.2⟩

theorem isNaN_infinity (negative : Bool) : (infinity negative).isNaN = false := by
  cases negative <;> decide

@[simp]
theorem infinity_negative (negative : Bool) : (infinity negative).negative = negative := rfl

theorem isInfinite_infinity (negative : Bool) : (infinity negative).isInfinite = true := by
  cases negative <;> decide

theorem isFinite_infinity (negative : Bool) : (infinity negative).isFinite = false := by
  cases negative <;> decide

theorem eq_infinity (h : x.isInfinite = true) : x = infinity x.negative := by
  obtain ⟨negative, magnitude, hlt⟩ := x
  have h : magnitude = infiniteMagnitude := by simpa [isInfinite] using h
  simp [infinity, h]

theorem magnitude_le (h : x.isNaN = false) : x.magnitude ≤ infiniteMagnitude := by
  simpa [isNaN] using h

theorem le_infinity (h : x.isNaN = false) : x ≤ infinity false := by
  have := magnitude_le h
  refine le_iff.mpr ⟨h, isNaN_infinity false, ?_⟩
  show x.rank ≤ infiniteMagnitude
  unfold rank signed
  split <;> omega

theorem infinity_le (h : x.isNaN = false) : infinity true ≤ x := by
  have := magnitude_le h
  refine le_iff.mpr ⟨isNaN_infinity true, h, ?_⟩
  show -(infiniteMagnitude : Int) ≤ x.rank
  unfold rank signed
  split <;> omega

theorem rank_infinity_ne (negative : Bool) : (infinity negative).rank ≠ 0 := by
  cases negative <;> decide

/-- Comparable doubles are finite, or one of them is the end of the line on its side. -/
theorem le_cases (h : x ≤ y) :
    x = infinity true ∨ y = infinity false ∨ (x.isFinite = true ∧ y.isFinite = true) := by
  obtain ⟨hx, hy, hrank⟩ := le_iff.mp h
  by_cases hxinf : x.isInfinite = true
  · have heq := eq_infinity hxinf
    cases hsign : x.negative with
    | true => exact Or.inl (hsign ▸ heq)
    | false =>
      rw [hsign] at heq
      refine Or.inr (Or.inl (eq_of_rank_eq (le_antisymm (le_iff.mp (le_infinity hy)).2.2 ?_)
        (rank_infinity_ne false)))
      rw [← heq]
      exact hrank
  by_cases hyinf : y.isInfinite = true
  · have heq := eq_infinity hyinf
    cases hsign : y.negative with
    | false => exact Or.inr (Or.inl (hsign ▸ heq))
    | true =>
      rw [hsign] at heq
      refine Or.inl (eq_of_rank_eq (le_antisymm ?_ (le_iff.mp (infinity_le hx)).2.2)
        (rank_infinity_ne true))
      rw [← heq]
      exact hrank
  · exact Or.inr (Or.inr ⟨isFinite_of_not hx (by simpa using hxinf),
      isFinite_of_not hy (by simpa using hyinf)⟩)

@[simp]
theorem neg_isNaN (x : Binary64) : (-x).isNaN = x.isNaN := rfl

theorem neg_rank (x : Binary64) : (-x).rank = -x.rank := by
  show (neg x).rank = -x.rank
  unfold rank signed neg
  cases x.negative <;> simp

/-- The other sign turns the order around. -/
protected theorem neg_le_neg (h : x ≤ y) : -y ≤ -x := by
  rw [le_iff] at *
  rw [neg_rank, neg_rank, neg_isNaN, neg_isNaN]
  exact ⟨h.2.1, h.1, by omega⟩

/-! ## 2. Operations that follow a monotone function -/

/-- `f` is the function `g`, rounded once, and leaves the infinities where they are. -/
structure Follows (g : ℚ → ℚ) (f : Binary64 → Binary64) : Prop where
  mono : Monotone g
  finite : ∀ {x : Binary64}, x.isFinite = true → RoundsTo (g x.units) (f x)
  infinite : ∀ negative, f (infinity negative) = infinity negative

namespace Follows

variable {g : ℚ → ℚ} {f : Binary64 → Binary64}

theorem isNaN (h : Follows g f) (hx : x.isNaN = false) : (f x).isNaN = false := by
  cases hinf : x.isInfinite with
  | true =>
    rw [eq_infinity hinf, h.infinite]
    exact isNaN_infinity _
  | false => exact (h.finite (isFinite_of_not hx hinf)).isNaN

/-- **Such an operation keeps the order.** -/
theorem le (h : Follows g f) (hxy : x ≤ y) : f x ≤ f y := by
  obtain ⟨hx, hy, -⟩ := le_iff.mp hxy
  rcases le_cases hxy with rfl | rfl | ⟨hxf, hyf⟩
  · rw [h.infinite]
    exact infinity_le (h.isNaN hy)
  · rw [h.infinite]
    exact le_infinity (h.isNaN hx)
  · refine (h.finite hxf).le (h.finite hyf) (h.mono ?_)
    exact_mod_cast (le_iff_units_le hxf hyf).mp hxy

end Follows

theorem one_add_follows : Follows (fun v => (1 : Binary64).units + v) (1 + ·) where
  mono v w h := add_le_add_right h _
  finite hx := add_roundsTo one_units.1 hx
  infinite negative := by
    have hnan := isNaN_of_isFinite one_units.1
    have hinf := isInfinite_of_isFinite one_units.1
    show add 1 (infinity negative) = _
    simp [add, hnan, hinf, isNaN_infinity, isInfinite_infinity]

theorem isZero_of_units_pos (h : 0 < x.units) : x.isZero = false := by
  by_contra hzero
  have hzero : x.magnitude = 0 := by simpa [isZero] using hzero
  rw [units_eq, hzero] at h
  simp [signed] at h

theorem negative_of_units_pos (h : 0 < x.units) : x.negative = false := by
  by_contra hneg
  have := (negative_iff_units_neg h.ne').mp (by simpa using hneg)
  omega

section

variable {c : Binary64} (hc : c.isFinite = true)

include hc

theorem sub_follows : Follows (fun v => v - c.units) (· - c) where
  mono v w h := sub_le_sub_right h _
  finite hx := sub_roundsTo hx hc
  infinite negative := by
    have hneg : (neg c).isInfinite = false := isInfinite_of_isFinite ((neg_isFinite c).trans hc)
    have hnan : (neg c).isNaN = false := isNaN_of_isFinite hc
    show add (infinity negative) (neg c) = _
    simp [add, hnan, hneg, isNaN_infinity, isInfinite_infinity]

variable (hpos : 0 < c.units)

include hpos

theorem div_follows : Follows (fun v => v / c.units * 2 ^ oneScale) (· / c) where
  mono v w h := by
    have hcq : (0 : ℚ) < c.units := by exact_mod_cast hpos
    show v / c.units * 2 ^ oneScale ≤ w / c.units * 2 ^ oneScale
    gcongr
  finite hx := div_roundsTo hx hc (isZero_of_units_pos hpos)
  infinite negative := by
    show div (infinity negative) c = _
    simp [div, isNaN_infinity, isInfinite_infinity, isNaN_of_isFinite hc, isInfinite_of_isFinite hc,
      negative_of_units_pos hpos]

theorem mul_follows : Follows (fun v => v * c.units / 2 ^ oneScale) (· * c) where
  mono v w h := by
    have hcq : (0 : ℚ) < c.units := by exact_mod_cast hpos
    show v * c.units / 2 ^ oneScale ≤ w * c.units / 2 ^ oneScale
    gcongr
  finite hx := mul_roundsTo hx hc
  infinite negative := by
    have hzero : (infinity negative).isZero = false := by cases negative <;> decide
    show mul (infinity negative) c = _
    simp [mul, isNaN_infinity, isInfinite_infinity, isNaN_of_isFinite hc, hzero,
      isZero_of_units_pos hpos, negative_of_units_pos hpos]

end

/-- A quotient by a whole number. -/
theorem div_ofNat_roundsTo (hx : x.isFinite = true) {n : Nat} (hn : 1 ≤ n) (hshort : n ≤ 2 ^ 53) :
    RoundsTo (x.units / n) (x / ofNat n) := by
  have hone : (2 : ℚ) ^ oneScale ≠ 0 := by positivity
  have hnq : (n : ℚ) ≠ 0 := by exact_mod_cast (Nat.one_le_iff_ne_zero.mp hn)
  obtain ⟨hfinite, hunits⟩ := ofNat_exact hshort
  have hzero : (ofNat n).isZero = false := by
    refine isZero_of_units_pos ?_
    rw [hunits]
    exact Int.mul_pos (by omega) (by positivity)
  have hdiv := div_roundsTo hx hfinite hzero
  rw [hunits] at hdiv
  convert hdiv using 1
  push_cast
  field_simp

/-! ## 3. The reciprocal -/

theorem RoundsTo.nonneg (h : RoundsTo v x) (hv : 0 ≤ v) : 0 ≤ x := by
  have hzero := roundsTo_self zero_units.1
  rw [zero_units.2] at hzero
  exact hzero.le h (by simpa using hv)

/-- The reciprocal of what is at least one. -/
theorem one_div_roundsTo (hx : x.isFinite = true) (h : 1 ≤ x) :
    (2 : ℚ) ^ oneScale ≤ x.units ∧
      RoundsTo ((2 : ℚ) ^ oneScale / x.units * 2 ^ oneScale) (1 / x) := by
  have hunits := (le_iff_units_le one_units.1 hx).mp h
  rw [one_units.2] at hunits
  have hpos : 0 < x.units := lt_of_lt_of_le (by positivity) hunits
  have hdiv := div_roundsTo one_units.1 hx (isZero_of_units_pos hpos)
  rw [one_units.2] at hdiv
  exact ⟨by exact_mod_cast hunits, by exact_mod_cast hdiv⟩

theorem one_div_infinity : 1 / infinity false = zero false := by
  have hnan := isNaN_of_isFinite one_units.1
  have hinf := isInfinite_of_isFinite one_units.1
  have hpos : (1 : Binary64).negative = false := by decide +kernel
  show div 1 (infinity false) = _
  simp [div, hnan, hinf, hpos, isNaN_infinity, isInfinite_infinity]

/-- What is at least one is finite or the positive infinity. -/
theorem eq_infinity_or_isFinite_of_one_le (h : 1 ≤ x) : x = infinity false ∨ x.isFinite = true := by
  rcases le_cases h with hone | hinf | ⟨-, hx⟩
  · exact absurd hone (by decide +kernel)
  · exact Or.inl hinf
  · exact Or.inr hx

/-- What is at least one has a reciprocal from zero to one, -/
theorem one_div_bounds (h : 1 ≤ x) : 0 ≤ 1 / x ∧ 1 / x ≤ 1 := by
  rcases eq_infinity_or_isFinite_of_one_le h with rfl | hx
  · rw [one_div_infinity]
    decide +kernel
  · obtain ⟨hunits, hdiv⟩ := one_div_roundsTo hx h
    have hpow : (0 : ℚ) < 2 ^ oneScale := by positivity
    have hpos : (0 : ℚ) < x.units := hpow.trans_le hunits
    refine ⟨hdiv.nonneg (by positivity), hdiv.le (roundsTo_self one_units.1) ?_⟩
    rw [one_units.2]
    push_cast
    exact mul_le_of_le_one_left hpow.le ((div_le_one hpos).mpr hunits)

/-- **and the greater it is, the smaller is the reciprocal.** -/
protected theorem one_div_le_one_div (h : 1 ≤ x) (hxy : x ≤ y) : 1 / y ≤ 1 / x := by
  rcases eq_infinity_or_isFinite_of_one_le (Binary64.le_trans h hxy) with rfl | hy
  · rw [one_div_infinity]
    exact (one_div_bounds h).1
  rcases eq_infinity_or_isFinite_of_one_le h with rfl | hx
  · have hnot := (le_iff.mp hxy).2.2
    have hle := (le_iff.mp (le_infinity (isNaN_of_isFinite hy))).2.2
    have heq := eq_of_rank_eq (le_antisymm hle hnot) (rank_infinity_ne false)
    rw [heq]
    exact Binary64.le_self (by decide +kernel)
  · obtain ⟨hxunits, hxdiv⟩ := one_div_roundsTo hx h
    obtain ⟨hyunits, hydiv⟩ := one_div_roundsTo hy (Binary64.le_trans h hxy)
    have hpow : (0 : ℚ) < 2 ^ oneScale := by positivity
    have hunits : (x.units : ℚ) ≤ y.units := by exact_mod_cast (le_iff_units_le hx hy).mp hxy
    have hpos : (0 : ℚ) < x.units := hpow.trans_le hxunits
    refine hydiv.le hxdiv ?_
    gcongr

/-! ## 4. The square root -/

/-- A root that is no NaN and not zero has no sign. -/
theorem sqrt_negative (hnan : x.sqrt.isNaN = false) (hzero : x.sqrt.isZero = false) :
    x.sqrt.negative = false := by
  unfold sqrt at *
  by_cases hsame : (x.isNaN || x.isZero) = true
  · rw [if_pos hsame] at hnan hzero
    rw [hnan, hzero] at hsame
    cases hsame
  rw [if_neg hsame] at *
  by_cases hneg : x.negative = true
  · rw [if_pos hneg] at hnan
    exact absurd hnan (by decide)
  rw [if_neg hneg] at *
  by_cases hinf : x.isInfinite = true
  · rw [if_pos hinf]
    simpa using hneg
  · rw [if_neg hinf]
    rfl

/-- A finite root other than zero is positive. -/
theorem sqrt_units_pos (hfinite : x.sqrt.isFinite = true) (hzero : x.sqrt.isZero = false) :
    0 < x.sqrt.units := by
  have hsign := sqrt_negative (isNaN_of_isFinite hfinite) hzero
  have hmagnitude : 0 < x.sqrt.magnitude := by
    simpa [isZero, Nat.pos_iff_ne_zero] using hzero
  rw [units_eq, signed, hsign]
  simpa using magnitudeUnits_strictMono hmagnitude

/-! ## 5. Whole numbers -/

/-- The value as a fraction, over a power of two that numerator and denominator have in common. -/
theorem exists_fraction (x : Binary64) : ∃ c, 0 < c ∧
    (x.significand <<< (x.scale - oneScale)) * c = x.significand * 2 ^ x.scale ∧
      (1 <<< (oneScale - x.scale)) * c = 2 ^ oneScale := by
  refine ⟨2 ^ min x.scale oneScale, Nat.two_pow_pos _, ?_, ?_⟩
  · rw [Nat.shiftLeft_eq, Nat.mul_assoc, ← Nat.pow_add]
    congr 2
    omega
  · rw [Nat.shiftLeft_eq, Nat.one_mul, ← Nat.pow_add]
    congr 1
    omega

/-- The fraction `n / d` rounded to a whole number, middles up. -/
theorem le_div_rounded_iff {n d k : Nat} (hd : 0 < d) :
    k ≤ (2 * n + d) / (2 * d) ↔ (2 * k - 1 : Int) * d ≤ 2 * n := by
  rw [Nat.le_div_iff_mul_le (by omega)]
  have hsplit : (2 * k - 1 : Int) * d = (k * (2 * d) : Nat) - d := by
    push_cast
    ring
  rw [hsplit]
  omega

/-- What making a whole number gives, by a `part` of fractions that is at least `k` from `threshold k`
halves on. -/
theorem le_toWord_iff {part : Nat → Nat → Nat} (threshold : Nat → Int) (hx : x.isFinite = true) {k : Nat}
    (hpart : ∀ {n d : Nat}, 0 < d → (k ≤ part n d ↔ threshold k * d ≤ 2 * n)) (hk : 1 ≤ k)
    (hpos : 0 < threshold k) :
    k ≤ x.toWord part ↔ k ≤ largestWord ∧ threshold k * 2 ^ oneScale ≤ 2 * x.units := by
  simp only [toWord, isNaN_of_isFinite hx, isInfinite_of_isFinite hx, Bool.false_or,
    Bool.false_eq_true, ↓reduceIte]
  have hunits : x.units = x.signed (x.significand * 2 ^ x.scale) := by
    rw [units, Nat.shiftLeft_eq]
  have hone : (0 : Int) < 2 ^ oneScale := by positivity
  cases hneg : x.negative with
  | true =>
    simp only [signed, hneg, ↓reduceIte] at hunits ⊢
    have hleft : ¬ k ≤ 0 := by omega
    have hright : ¬ threshold k * 2 ^ oneScale ≤ 2 * x.units := by
      have hnonneg : (0 : Int) ≤ (x.significand * 2 ^ x.scale : Nat) := Int.natCast_nonneg _
      have hproduct : 0 < threshold k * 2 ^ oneScale := Int.mul_pos hpos hone
      omega
    simp [hleft, hright]
  | false =>
    simp only [signed, hneg, Bool.false_eq_true, ↓reduceIte] at hunits ⊢
    obtain ⟨c, hc, hn, hd⟩ := exists_fraction x
    have hcz : (0 : Int) < c := by exact_mod_cast hc
    have hdpos : 0 < 1 <<< (oneScale - x.scale) := by rw [Nat.shiftLeft_eq]; positivity
    have hd : (2 : Int) ^ oneScale = (1 <<< (oneScale - x.scale) : Nat) * c := by
      exact_mod_cast hd.symm
    have hn : x.units = (x.significand <<< (x.scale - oneScale) : Nat) * c := by
      rw [hunits]
      exact_mod_cast hn.symm
    unfold wholeBy
    rw [le_min_iff, and_comm, hpart hdpos, hd, hn, ← mul_assoc, ← mul_assoc]
    exact and_congr_right fun _ => (mul_le_mul_iff_left₀ hcz).symm

/-- **What rounding to a whole number gives**: at least `k` from the middle before `k` on. -/
theorem le_roundNat_iff (hx : x.isFinite = true) {k : Nat} (hk : 1 ≤ k) :
    k ≤ x.roundNat ↔ k ≤ largestWord ∧ (2 * k - 1 : Int) * 2 ^ oneScale ≤ 2 * x.units :=
  le_toWord_iff (fun k => 2 * k - 1) hx le_div_rounded_iff hk (by omega)

/-- **What leaving out the fraction gives**: at least `k` from `k` on. -/
theorem le_floorNat_iff (hx : x.isFinite = true) {k : Nat} (hk : 1 ≤ k) :
    k ≤ x.floorNat ↔ k ≤ largestWord ∧ (2 * k : Int) * 2 ^ oneScale ≤ 2 * x.units := by
  refine le_toWord_iff (fun k => 2 * k) hx (fun {n d} hd => ?_) hk (by omega)
  rw [Nat.le_div_iff_mul_le hd, mul_assoc, ← Nat.cast_mul]
  omega

/-- Whole numbers around a double hold what it is rounded to. -/
theorem roundNat_bounds {lo hi : Nat} (hx : x.isFinite = true) (hword : lo ≤ largestWord)
    (hlo : (2 * lo - 1 : Int) * 2 ^ oneScale ≤ 2 * x.units)
    (hhi : 2 * x.units < (2 * hi + 1 : Int) * 2 ^ oneScale) : lo ≤ x.roundNat ∧ x.roundNat ≤ hi := by
  constructor
  · rcases Nat.eq_zero_or_pos lo with rfl | hpos
    · exact Nat.zero_le _
    · exact (le_roundNat_iff hx hpos).mpr ⟨hword, hlo⟩
  · by_contra hlt
    have hmiddle := ((le_roundNat_iff hx (by omega)).mp (not_le.mp hlt)).2
    have hsame : (2 * (hi + 1 : Nat) - 1 : Int) = 2 * hi + 1 := by omega
    rw [hsame] at hmiddle
    omega

/-- **Rounding to whole numbers keeps the order.** -/
theorem roundNat_mono (h : x ≤ y) : x.roundNat ≤ y.roundNat := by
  have htop : ∀ z : Binary64, z.roundNat ≤ largestWord := by
    intro z
    unfold roundNat toWord
    split
    · exact Nat.zero_le _
    split
    · exact le_rfl
    · exact Nat.min_le_right _ _
  rcases le_cases h with rfl | rfl | ⟨hx, hy⟩
  · have hzero : (infinity true).roundNat = 0 := by decide +kernel
    rw [hzero]
    exact Nat.zero_le _
  · have hlast : (infinity false).roundNat = largestWord := by decide +kernel
    rw [hlast]
    exact htop x
  · rcases Nat.eq_zero_or_pos x.roundNat with hzero | hpos
    · rw [hzero]
      exact Nat.zero_le _
    · obtain ⟨hword, hmiddle⟩ := (le_roundNat_iff hx hpos).mp le_rfl
      have hunits := (le_iff_units_le hx hy).mp h
      exact (le_roundNat_iff hy hpos).mpr ⟨hword, by linarith⟩

/-- So does the product with a whole number before it. -/
theorem roundNat_mul_ofNat_le {n : Nat} (hn : 1 ≤ n) (hshort : n ≤ 2 ^ 53) (h : x ≤ y) :
    (x * ofNat n).roundNat ≤ (y * ofNat n).roundNat := by
  obtain ⟨hfinite, hunits⟩ := ofNat_exact hshort
  have hpos : 0 < (ofNat n).units := by
    rw [hunits]
    positivity
  exact roundNat_mono ((mul_follows hfinite hpos).le h)

end Binary64

end Barogrid
