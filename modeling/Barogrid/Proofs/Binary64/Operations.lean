import Mathlib
import Barogrid.Proofs.Binary64.Nearest

/-!
# The four operations, rounded once

Sum, difference, product, quotient and half of finite doubles are the exact result rounded to
nearest (`add_roundsTo` and its companions).  No later argument has to open an operation again: what
is monotone, what stays finite and what is exact follows from `RoundsTo`.

* `RoundsTo.exact_of_short` -- **a result of at most 53 digits is exact**;
* `clamp_within`, `add_isNaN` -- what keeps NaNs away;
* `roundNat_le` -- the bound of a rounded whole number.
-/

namespace Barogrid

namespace Binary64

/-! ## 1. Short values -/

/-- At most 53 digits on any scale are a magnitude. -/
theorem exists_magnitude (e : Nat) {n : Nat} (hn : n ≤ 2 * leadingBit) :
    ∃ m, m ≤ (e + 2) * leadingBit ∧ magnitudeUnits m = n * 2 ^ e := by
  induction e generalizing n with
  | zero => exact ⟨n, by omega, by simpa using magnitudeUnits_place (Or.inl rfl) hn⟩
  | succ e ih =>
    rcases Nat.lt_or_ge n leadingBit with hlt | hge
    · obtain ⟨m, hm, hval⟩ := ih (n := 2 * n) (by omega)
      refine ⟨m, hm.trans (Nat.mul_le_mul_right _ (by omega)), ?_⟩
      rw [hval, Nat.pow_succ]
      ring
    · refine ⟨(e + 1) * leadingBit + n, ?_, magnitudeUnits_place (Or.inr hge) hn⟩
      rw [Nat.add_mul (e + 1)]
      omega

/-- The bound on the digits that are kept exactly. -/
theorem exists_units (i : Int) (e : Nat) (hi : i.natAbs ≤ 2 ^ 53) (he : e ≤ 2044) :
    ∃ x : Binary64, x.isFinite = true ∧ x.units = i * 2 ^ e := by
  obtain ⟨m, hm, hval⟩ := exists_magnitude e (n := i.natAbs) (by simpa [leadingBit_eq] using hi)
  have hfinite : m < infiniteMagnitude := by
    refine lt_of_le_of_lt (hm.trans (Nat.mul_le_mul_right _ (Nat.add_le_add_right he 2))) ?_
    decide
  refine ⟨⟨i < 0, m, hfinite.trans infiniteMagnitude_lt⟩, ?_, ?_⟩
  · simpa [isFinite] using hfinite
  · rw [units_eq, signed, hval]
    push_cast
    split
    · rename_i hneg
      have hneg : i < 0 := by simpa using hneg
      rw [abs_of_neg hneg]
      ring
    · rename_i hneg
      have hpos : 0 ≤ i := by simpa using hneg
      rw [abs_of_nonneg hpos]

/-- **A result of at most 53 digits is exact.** -/
theorem RoundsTo.exact_of_short {v : ℚ} {x : Binary64} (h : RoundsTo v x) {i : Int} {e : Nat}
    (hi : i.natAbs ≤ 2 ^ 53) (he : e ≤ 2044) (hv : v = i * 2 ^ e) :
    x.isFinite = true ∧ x.units = i * 2 ^ e := by
  obtain ⟨y, hy, hval⟩ := exists_units i e hi he
  rw [← hval]
  refine h.exact hy ?_
  rw [hv, hval]
  push_cast
  rfl

/-- What is not farther from zero than a finite double stays finite. -/
theorem RoundsTo.isFinite_of_abs_le {v : ℚ} {x y : Binary64} (h : RoundsTo v x)
    (hy : y.isFinite = true) (hv : |v| ≤ |(y.units : ℚ)|) : x.isFinite = true := by
  have := h.magnitude_mono (roundsTo_self hy) hv
  simp only [isFinite, decide_eq_true_eq] at hy ⊢
  omega

/-! ## 2. The operations -/

theorem units_cast (x : Binary64) :
    (x.units : ℚ) = signFactor x.negative * (x.significand * 2 ^ x.scale) := by
  unfold units signed signFactor
  rw [Nat.shiftLeft_eq]
  split <;> push_cast <;> ring

theorem isInfinite_of_isFinite {x : Binary64} (h : x.isFinite = true) : x.isInfinite = false := by
  simp only [isFinite, isInfinite, decide_eq_true_eq, beq_eq_false_iff_ne] at *
  omega

theorem isFinite_of_not {x : Binary64} (hn : x.isNaN = false) (hi : x.isInfinite = false) :
    x.isFinite = true := by
  simp only [isFinite, isNaN, isInfinite, decide_eq_true_eq, decide_eq_false_iff_not,
    beq_eq_false_iff_ne] at *
  omega

theorem exactUnits_one (n : Nat) (e : Int) : exactUnits n 1 e = n * 2 ^ e := by
  simp [exactUnits]

theorem atScale_mul {x : Binary64} {e : Nat} (h : e ≤ x.scale) :
    (x.atScale e : ℚ) * 2 ^ e = x.significand * 2 ^ x.scale := by
  have hsplit : x.scale = (x.scale - e) + e := by omega
  unfold atScale
  rw [Nat.shiftLeft_eq]
  push_cast
  rw [mul_assoc, ← pow_add, ← hsplit]

theorem signFactor_of_ne {a b : Bool} (h : a ≠ b) : signFactor a = -signFactor b := by
  revert h
  cases a <;> cases b <;> simp [signFactor]

section Operations

variable {x y : Binary64}

theorem add_roundsTo (hx : x.isFinite = true) (hy : y.isFinite = true) :
    RoundsTo (x.units + y.units) (x + y) := by
  have hxe := atScale_mul (min_le_left x.scale y.scale)
  have hye := atScale_mul (min_le_right x.scale y.scale)
  have hsum : (x.units : ℚ) + y.units =
      (signFactor x.negative * x.atScale (min x.scale y.scale) +
        signFactor y.negative * y.atScale (min x.scale y.scale)) *
          2 ^ ((min x.scale y.scale : Nat) : Int) := by
    rw [units_cast, units_cast, ← hxe, ← hye, zpow_natCast]
    ring
  show RoundsTo _ (add x y)
  rw [hsum]
  simp only [add, isNaN_of_isFinite hx, isNaN_of_isFinite hy, isInfinite_of_isFinite hx,
    isInfinite_of_isFinite hy, Bool.or_self, Bool.false_eq_true, ↓reduceIte]
  generalize min x.scale y.scale = e
  generalize x.atScale e = m
  generalize y.atScale e = n
  split
  · rename_i hsign
    convert nearest_roundsTo x.negative (m + n) e Nat.one_pos using 1
    rw [exactUnits_one, ← hsign]
    push_cast
    ring
  rename_i hsign
  have hopp : signFactor x.negative = -signFactor y.negative := signFactor_of_ne hsign
  rw [hopp]
  split
  · rename_i hmn
    rw [hmn, neg_mul, neg_add_cancel, zero_mul]
    exact roundsTo_self (x := zero false) rfl
  split
  · rename_i hlt
    convert nearest_roundsTo y.negative (n - m) e Nat.one_pos using 1
    rw [exactUnits_one, Nat.cast_sub hlt.le]
    ring
  · rename_i hne hge
    convert nearest_roundsTo x.negative (m - n) e Nat.one_pos using 1
    rw [exactUnits_one, Nat.cast_sub (not_lt.mp hge), hopp]
    ring

@[simp]
theorem neg_isFinite (x : Binary64) : (-x).isFinite = x.isFinite := rfl

@[simp]
theorem neg_units (x : Binary64) : (-x).units = -x.units := by
  rw [units_eq, units_eq]
  show signed (neg x) (magnitudeUnits x.magnitude) = _
  cases h : x.negative <;> simp [neg, signed, h]

theorem sub_roundsTo (hx : x.isFinite = true) (hy : y.isFinite = true) :
    RoundsTo (x.units - y.units) (x - y) := by
  have h := add_roundsTo hx ((neg_isFinite y).trans hy)
  rw [neg_units, Int.cast_neg, ← sub_eq_add_neg] at h
  exact h

theorem signFactor_bne (a b : Bool) : signFactor (a != b) = signFactor a * signFactor b := by
  cases a <;> cases b <;> simp [signFactor]

theorem mul_roundsTo (hx : x.isFinite = true) (hy : y.isFinite = true) :
    RoundsTo (x.units * y.units / 2 ^ oneScale) (x * y) := by
  show RoundsTo _ (mul x y)
  simp only [mul, isNaN_of_isFinite hx, isNaN_of_isFinite hy, isInfinite_of_isFinite hx,
    isInfinite_of_isFinite hy, Bool.or_self, Bool.false_eq_true, ↓reduceIte]
  convert nearest_roundsTo (x.negative != y.negative) (x.significand * y.significand)
    (x.scale + y.scale - oneScale : Int) Nat.one_pos using 1
  rw [units_cast, units_cast, exactUnits_one, signFactor_bne, zpow_sub₀ (by norm_num),
    zpow_add₀ (by norm_num), zpow_natCast, zpow_natCast, zpow_natCast]
  push_cast
  ring

theorem significand_pos (h : x.isZero = false) : 0 < x.significand := by
  have h : x.magnitude ≠ 0 := by simpa [isZero] using h
  unfold significand leadingBit
  split <;> omega

theorem signFactor_mul_self (a : Bool) : signFactor a * signFactor a = 1 := by
  cases a <;> simp [signFactor]

theorem div_roundsTo (hx : x.isFinite = true) (hy : y.isFinite = true) (h0 : y.isZero = false) :
    RoundsTo (x.units / y.units * 2 ^ oneScale) (x / y) := by
  have hpos : 0 < y.significand := significand_pos h0
  have hne : (y.significand : ℚ) ≠ 0 := by exact_mod_cast hpos.ne'
  have hfactor : signFactor y.negative ≠ 0 := by cases y.negative <;> simp [signFactor]
  show RoundsTo _ (div x y)
  simp only [div, isNaN_of_isFinite hx, isNaN_of_isFinite hy, isInfinite_of_isFinite hx,
    isInfinite_of_isFinite hy, h0, Bool.or_self, Bool.false_eq_true, ↓reduceIte]
  convert nearest_roundsTo (x.negative != y.negative) x.significand
    (x.scale - y.scale + oneScale : Int) hpos using 1
  rw [units_cast, units_cast, signFactor_bne, exactUnits, zpow_add₀ (by norm_num),
    zpow_sub₀ (by norm_num), zpow_natCast, zpow_natCast, zpow_natCast]
  field_simp
  rw [pow_two, signFactor_mul_self, mul_one]

theorem half_roundsTo (hx : x.isFinite = true) : RoundsTo (x.units / 2) x.half := by
  simp only [half, isNaN_of_isFinite hx, isInfinite_of_isFinite hx, Bool.false_eq_true,
    ↓reduceIte]
  convert nearest_roundsTo x.negative x.significand (x.scale - 1 : Int) Nat.one_pos using 1
  rw [units_cast, exactUnits_one, zpow_sub₀ (by norm_num), zpow_natCast, zpow_one]
  ring

theorem ofNat_roundsTo (n : Nat) : RoundsTo (n * 2 ^ oneScale) (ofNat n) := by
  show RoundsTo _ (nearest false n 1 oneScale)
  convert nearest_roundsTo false n oneScale Nat.one_pos using 1
  rw [exactUnits_one, zpow_natCast]
  simp [signFactor]

theorem ofInt_roundsTo (i : Int) : RoundsTo (i * 2 ^ oneScale) (ofInt i) := by
  show RoundsTo _ (nearest (i < 0) i.natAbs 1 oneScale)
  convert nearest_roundsTo (i < 0) i.natAbs oneScale Nat.one_pos using 1
  rw [exactUnits_one, zpow_natCast, Nat.cast_natAbs, Int.cast_abs]
  rcases lt_or_ge i 0 with h | h
  · have hq : (i : ℚ) < 0 := by exact_mod_cast h
    simp [signFactor, h, abs_of_neg hq]
  · have hq : (0 : ℚ) ≤ i := by exact_mod_cast h
    simp [signFactor, not_lt.mpr h, abs_of_nonneg hq]

/-- Whole numbers of at most 53 digits are doubles. -/
theorem ofNat_exact {n : Nat} (h : n ≤ 2 ^ 53) :
    (ofNat n).isFinite = true ∧ (ofNat n).units = n * 2 ^ oneScale :=
  (ofNat_roundsTo n).exact_of_short (i := n) (by simpa using h) (by decide) (by push_cast; rfl)

/-- Opposite values cancel to the positive zero. -/
theorem add_eq_zero {x y : Binary64} (hx : x.isFinite = true) (hy : y.isFinite = true)
    (h : x.units + y.units = 0) (h0 : x.units ≠ 0) : x + y = zero false := by
  have hsign : x.negative ≠ y.negative := by
    intro e
    have hxneg := negative_iff_units_neg h0
    have hyneg := negative_iff_units_neg (x := y) (by omega)
    rw [← e, hxneg] at hyneg
    omega
  have hxe := atScale_mul (min_le_left x.scale y.scale)
  have hye := atScale_mul (min_le_right x.scale y.scale)
  have hopp := signFactor_of_ne hsign
  have hmn : x.atScale (min x.scale y.scale) = y.atScale (min x.scale y.scale) := by
    have hcast : (x.units : ℚ) + y.units = 0 := by exact_mod_cast h
    have hfactor : signFactor y.negative ≠ 0 := by cases y.negative <;> simp [signFactor]
    rw [units_cast, units_cast, ← hxe, ← hye, hopp] at hcast
    have hpow : (2 : ℚ) ^ min x.scale y.scale ≠ 0 := by positivity
    have heq : (x.atScale (min x.scale y.scale) : ℚ) = y.atScale (min x.scale y.scale) := by
      have : signFactor y.negative * 2 ^ min x.scale y.scale *
          ((y.atScale (min x.scale y.scale) : ℚ) - x.atScale (min x.scale y.scale)) = 0 := by
        linear_combination hcast
      rcases mul_eq_zero.mp this with h | h
      · exact absurd h (mul_ne_zero hfactor hpow)
      · linarith
    exact_mod_cast heq
  show add x y = _
  simp only [add, isNaN_of_isFinite hx, isNaN_of_isFinite hy, isInfinite_of_isFinite hx,
    isInfinite_of_isFinite hy, Bool.or_self, Bool.false_eq_true, ↓reduceIte, if_neg hsign, if_pos hmn]

theorem zero_units : (0 : Binary64).isFinite = true ∧ (0 : Binary64).units = 0 := by
  obtain ⟨hfinite, hunits⟩ := ofNat_exact (n := 0) (by decide)
  exact ⟨hfinite, hunits.trans (by simp)⟩

theorem one_units : (1 : Binary64).isFinite = true ∧ (1 : Binary64).units = 2 ^ oneScale := by
  obtain ⟨hfinite, hunits⟩ := ofNat_exact (n := 1) (by decide)
  exact ⟨hfinite, hunits.trans (by simp)⟩

/-! ## 3. Staying a number -/

/-- The order is reflexive but for NaNs. -/
protected theorem le_self (hx : x.isNaN = false) : x ≤ x := le_iff.mpr ⟨hx, hx, le_rfl⟩

/-- A finite double and what is no NaN have a sum that is no NaN. -/
theorem add_isNaN (hx : x.isFinite = true) (hy : y.isNaN = false) : (x + y).isNaN = false := by
  cases hinf : y.isInfinite with
  | false => exact (add_roundsTo hx (isFinite_of_not hy hinf)).isNaN
  | true =>
    show (add x y).isNaN = false
    simp [add, isNaN_of_isFinite hx, hy, isInfinite_of_isFinite hx, hinf]

/-- Clamping cuts the line of doubles off at the ends. -/
theorem clamp_rank {lo hi : Binary64} (hx : x.isNaN = false) (h : lo ≤ hi) :
    (x.clamp lo hi).isNaN = false ∧ (x.clamp lo hi).rank = max lo.rank (min x.rank hi.rank) := by
  obtain ⟨hlo, hhi, hle⟩ := le_iff.mp h
  unfold clamp
  by_cases hbelow : x < lo
  · have hrank := (lt_iff.mp hbelow).2.2
    have hle' : ¬ hi < lo := fun hlt => absurd (lt_iff.mp hlt).2.2 (not_lt.mpr hle)
    rw [if_pos hbelow, if_neg hle']
    exact ⟨hlo, by omega⟩
  rw [if_neg hbelow]
  have hge : lo.rank ≤ x.rank := not_lt.mp fun hlt => hbelow (lt_iff.mpr ⟨hx, hlo, hlt⟩)
  by_cases habove : hi < x
  · have hrank := (lt_iff.mp habove).2.2
    rw [if_pos habove]
    exact ⟨hhi, by omega⟩
  · have hrank : x.rank ≤ hi.rank := not_lt.mp fun hlt => habove (lt_iff.mpr ⟨hhi, hx, hlt⟩)
    rw [if_neg habove]
    exact ⟨hx, by omega⟩

theorem clamp_within {lo hi : Binary64} (hx : x.isNaN = false) (h : lo ≤ hi) :
    (x.clamp lo hi).within lo hi = true := by
  obtain ⟨hlo, hhi, hle⟩ := le_iff.mp h
  obtain ⟨hclamp, hrank⟩ := clamp_rank hx h
  have key : lo ≤ x.clamp lo hi ∧ x.clamp lo hi ≤ hi :=
    ⟨le_iff.mpr ⟨hlo, hclamp, by omega⟩, le_iff.mpr ⟨hclamp, hhi, by omega⟩⟩
  simpa [within] using key

theorem clamp_eq_self {x lo hi : Binary64} (h : x.within lo hi = true) : x.clamp lo hi = x := by
  obtain ⟨hlo, hhi⟩ : lo ≤ x ∧ x ≤ hi := by simpa [within] using h
  have hnlo : ¬ x < lo := fun hlt => absurd (lt_iff.mp hlt).2.2 (not_lt.mpr (le_iff.mp hlo).2.2)
  have hnhi : ¬ hi < x := fun hlt => absurd (lt_iff.mp hlt).2.2 (not_lt.mpr (le_iff.mp hhi).2.2)
  unfold clamp
  rw [if_neg hnlo, if_neg hnhi]

theorem clamp_eq_lo {x lo hi : Binary64} (h : lo ≤ hi) (h0 : lo.rank ≠ 0) (hx : x.isNaN = false)
    (hle : x.rank ≤ lo.rank) : x.clamp lo hi = lo := by
  have hrank := (clamp_rank hx h).2
  exact eq_of_rank_eq (by omega) h0

theorem clamp_eq_hi {x lo hi : Binary64} (h : lo ≤ hi) (h0 : hi.rank ≠ 0) (hx : x.isNaN = false)
    (hle : hi.rank ≤ x.rank) : x.clamp lo hi = hi := by
  have hends := (le_iff.mp h).2.2
  have hrank := (clamp_rank hx h).2
  exact eq_of_rank_eq (by omega) h0

end Operations

/-! ## 4. Whole numbers -/

/-- A double of at most `k` is rounded to at most `k`. -/
theorem roundNat_le {x : Binary64} {k : Nat} (hx : x.isFinite = true)
    (h : x.units ≤ k * 2 ^ oneScale) : x.roundNat ≤ k := by
  simp only [roundNat, toWord, isNaN_of_isFinite hx, isInfinite_of_isFinite hx, Bool.false_or,
    Bool.false_eq_true, ↓reduceIte]
  split
  · exact Nat.zero_le k
  rename_i hpos
  have hval : x.significand * 2 ^ x.scale ≤ k * 2 ^ oneScale := by
    have hunits : x.units = (x.significand * 2 ^ x.scale : Nat) := by
      simp [units, signed, hpos, Nat.shiftLeft_eq]
    rw [hunits] at h
    exact_mod_cast h
  refine (Nat.min_le_left _ _).trans ?_
  unfold wholeBy
  rw [Nat.shiftLeft_eq, Nat.shiftLeft_eq, Nat.one_mul]
  have hd : 0 < 2 ^ (oneScale - x.scale) := Nat.two_pow_pos _
  -- the fraction, over the power of two that both sides have in common
  have hnum : x.significand * 2 ^ (x.scale - oneScale) ≤ k * 2 ^ (oneScale - x.scale) := by
    have hcommon : 0 < 2 ^ min x.scale oneScale := Nat.two_pow_pos _
    refine Nat.le_of_mul_le_mul_right ?_ hcommon
    rw [Nat.mul_assoc, Nat.mul_assoc, ← Nat.pow_add, ← Nat.pow_add]
    convert hval using 3 <;> omega
  generalize x.significand * 2 ^ (x.scale - oneScale) = n at *
  generalize 2 ^ (oneScale - x.scale) = d at *
  refine Nat.le_of_lt_succ ((Nat.div_lt_iff_lt_mul (by omega)).mpr ?_)
  have hexp : (k + 1) * (2 * d) = 2 * (k * d) + 2 * d := by ring
  rw [Nat.succ_eq_add_one, hexp]
  omega

end Binary64

end Barogrid
