import Mathlib
import Barogrid.Proofs.Binary64.Error
import Barogrid.Proofs.Binary64.Order

/-!
# Sums of a few copies of one double

The sum of copies of `y` is rounded at each step.  Two copies sum to twice `y` exactly.  Three need
two binary digits more than `y` has, so that their sum may be missed by two places of `y`; the fourth
makes up for it.  Divided again:

* `copies_two`, `copies_four`, `mean_of_exact` -- the mean of two copies, and that of four, is `y`
  again;
* `mean_three_iff` -- **so is that of three, except where the sum of three is missed by two places**
  (`TripleStrays`), as it is for a quarter of the significands from a third of `2 ^ 54` on.

All of this holds only where the sum does not overflow.
-/

namespace Barogrid

namespace Binary64

variable {x y : Binary64}

/-! ## 1. The places of a double -/

theorem significand_lt (y : Binary64) : y.significand < 2 * leadingBit := by
  unfold significand leadingBit
  split <;> omega

theorem scale_eq_zero_or (y : Binary64) : y.scale = 0 ∨ leadingBit ≤ y.significand := by
  unfold scale significand leadingBit
  split <;> omega

theorem abs_units_eq (y : Binary64) : |(y.units : ℚ)| = y.significand * 2 ^ y.scale := by
  rw [units_cast, abs_mul, abs_signFactor, one_mul, abs_of_nonneg (by positivity)]

theorem natAbs_units_eq (y : Binary64) : y.units.natAbs = y.significand * 2 ^ y.scale := by
  have h := abs_units_eq y
  rw [← Int.cast_abs, ← Nat.cast_natAbs] at h
  exact_mod_cast h

/-- A double of 53 digits above a place is a multiple of it. -/
theorem two_pow_dvd_units {e : Nat} (h : leadingBit * 2 ^ e ≤ y.units.natAbs) :
    (2 : Int) ^ e ∣ y.units := by
  have he : e ≤ y.scale := by
    have hlt : leadingBit * 2 ^ e < leadingBit * 2 ^ (y.scale + 1) := calc
      leadingBit * 2 ^ e ≤ y.significand * 2 ^ y.scale := natAbs_units_eq y ▸ h
      _ < 2 * leadingBit * 2 ^ y.scale :=
        Nat.mul_lt_mul_of_pos_right (significand_lt y) (Nat.two_pow_pos _)
      _ = leadingBit * 2 ^ (y.scale + 1) := by ring
    exact Nat.le_of_lt_succ ((Nat.pow_lt_pow_iff_right (by decide)).mp (Nat.lt_of_mul_lt_mul_left hlt))
  have hdvd : 2 ^ e ∣ y.units.natAbs := natAbs_units_eq y ▸ (pow_dvd_pow 2 he).mul_left _
  exact_mod_cast Int.natCast_dvd.mpr hdvd

/-- Three times the significand lies in the middle between two multiples of four, and is so long that
only multiples of four are left of it. -/
def TripleStrays (y : Binary64) : Prop := y.significand % 4 = 2 ∧ 2 ^ 54 ≤ 3 * y.significand

instance : DecidablePred TripleStrays := fun y =>
  inferInstanceAs (Decidable (y.significand % 4 = 2 ∧ 2 ^ 54 ≤ 3 * y.significand))

/-- Three times the significand has no digit that would be rounded away. -/
def TripleFits (y : Binary64) : Prop :=
  3 * y.significand ≤ 2 ^ 53 ∨ (y.significand % 2 = 0 ∧ 3 * y.significand ≤ 2 ^ 54)

/-! ## 2. Sums -/

theorem isFinite_of_add (h : (x + y).isFinite = true) : x.isFinite = true ∧ y.isFinite = true := by
  have h : (add x y).isFinite = true := h
  unfold add at h
  by_cases hnan : (x.isNaN || y.isNaN) = true
  · rw [if_pos hnan] at h
    exact absurd h (by decide)
  rw [if_neg hnan] at h
  simp only [Bool.or_eq_true, not_or, Bool.not_eq_true] at hnan
  by_cases hx : x.isInfinite = true
  · rw [if_pos hx] at h
    split at h
    · exact absurd h (by decide)
    · rw [isInfinite_of_isFinite h] at hx
      cases hx
  rw [if_neg hx] at h
  by_cases hy : y.isInfinite = true
  · rw [if_pos hy] at h
    rw [isInfinite_of_isFinite h] at hy
    cases hy
  · exact ⟨isFinite_of_not hnan.1 (by simpa using hx), isFinite_of_not hnan.2 (by simpa using hy)⟩

theorem sum_append_singleton (xs : List Binary64) (y : Binary64) : sum (xs ++ [y]) = sum xs + y := by
  simp [sum]

/-- The sum of `n` copies. -/
def copies (n : Nat) (y : Binary64) : Binary64 := sum (List.replicate n y)

theorem copies_succ (n : Nat) (y : Binary64) : copies (n + 1) y = copies n y + y := by
  unfold copies
  rw [List.replicate_succ', sum_append_singleton]

/-- What does not overflow has not overflowed before. -/
theorem copies_isFinite {m n : Nat} (hmn : m ≤ n) (h : (copies n y).isFinite = true) :
    (copies m y).isFinite = true := by
  induction n with
  | zero => rwa [Nat.le_zero.mp hmn]
  | succ n ih =>
    rcases hmn.lt_or_eq with hlt | rfl
    · rw [copies_succ] at h
      exact ih (Nat.le_of_lt_succ hlt) (isFinite_of_add h).1
    · exact h

theorem copies_roundsTo {n : Nat} (h : (copies (n + 1) y).isFinite = true) :
    RoundsTo ((copies n y).units + y.units) (copies (n + 1) y) := by
  rw [copies_succ] at h ⊢
  obtain ⟨hsum, hy⟩ := isFinite_of_add h
  exact add_roundsTo hsum hy

theorem copies_one (h : y.isFinite = true) :
    (copies 1 y).isFinite = true ∧ (copies 1 y).units = y.units := by
  have hsum := add_roundsTo (x := zero true) rfl h
  have hone : copies 1 y = zero true + y := rfl
  rw [hone]
  exact hsum.exact h (by simp [units, signed, significand, zero, leadingBit])

/-- Twice `y` is exact. -/
theorem RoundsTo.eq_two_mul (h : RoundsTo (2 * y.units) x) (hx : x.isFinite = true) :
    (x.units : ℚ) = 2 * y.units := by
  refine h.eq_of_places hx (e := y.scale + 1) (significand_lt y).le ?_
  rw [abs_mul, abs_units_eq, abs_two]
  ring

theorem add_self_units (h : (y + y).isFinite = true) : ((y + y).units : ℚ) = 2 * y.units := by
  obtain ⟨hy, -⟩ := isFinite_of_add h
  have hsum := add_roundsTo hy hy
  rw [← two_mul] at hsum
  exact hsum.eq_two_mul h

theorem copies_two (h : (copies 2 y).isFinite = true) : ((copies 2 y).units : ℚ) = 2 * y.units := by
  have hy : y.isFinite = true := by
    rw [copies_succ] at h
    exact (isFinite_of_add h).2
  have hsum := copies_roundsTo h
  rw [(copies_one hy).2, ← two_mul] at hsum
  exact hsum.eq_two_mul h

/-- The sum of two doubles that are equal is that of two copies. -/
theorem add_self_exact (h : (copies 2 y).isFinite = true) :
    (y + y).isFinite = true ∧ ((y + y).units : ℚ) = 2 * y.units := by
  have hy : y.isFinite = true := by
    rw [copies_succ] at h
    exact (isFinite_of_add h).2
  have hdouble := add_roundsTo hy hy
  rw [← two_mul, ← copies_two h] at hdouble
  obtain ⟨hsum, -⟩ := hdouble.exact h rfl
  exact ⟨hsum, add_self_units hsum⟩

theorem copies_three_roundsTo (h : (copies 3 y).isFinite = true) :
    RoundsTo (3 * y.units) (copies 3 y) ∧
      |(3 * y.units : ℚ)| = (3 * y.significand : Nat) * 2 ^ y.scale := by
  have hsum := copies_roundsTo h
  rw [copies_two (copies_isFinite (by decide) h)] at hsum
  constructor
  · convert hsum using 1
    ring
  · rw [abs_mul, abs_units_eq, abs_of_pos (by norm_num)]
    push_cast
    ring

/-- If `p` places of a higher scale are three times `y` up to `r` places, the sum is too. -/
theorem copies_three_error (h : (copies 3 y).isFinite = true) (k : Nat) {p r : Nat}
    (hp : p ≤ 2 * leadingBit) (hlow : 3 * y.significand ≤ p * 2 ^ k + r)
    (hhigh : p * 2 ^ k ≤ 3 * y.significand + r) :
    |((copies 3 y).units : ℚ) - 3 * y.units| ≤ r * 2 ^ y.scale := by
  obtain ⟨hsum, habs⟩ := copies_three_roundsTo h
  have hlow : ((3 * y.significand : Nat) : ℚ) ≤ p * 2 ^ k + r := by exact_mod_cast hlow
  have hhigh : (p : ℚ) * 2 ^ k ≤ (3 * y.significand : Nat) + r := by exact_mod_cast hhigh
  refine (hsum.error_le_of_places h (y.scale + k) hp).trans ?_
  have hsplit : (p : ℚ) * 2 ^ (y.scale + k) - (3 * y.significand : Nat) * 2 ^ y.scale =
      ((p : ℚ) * 2 ^ k - (3 * y.significand : Nat)) * 2 ^ y.scale := by ring
  rw [habs, hsplit, abs_mul, abs_of_nonneg (show (0 : ℚ) ≤ 2 ^ y.scale by positivity)]
  gcongr
  exact abs_le.mpr ⟨by linarith, by linarith⟩

/-- The sum of three is missed by two places at most, -/
theorem copies_three_near (h : (copies 3 y).isFinite = true) :
    |((copies 3 y).units : ℚ) - 3 * y.units| ≤ 2 * 2 ^ y.scale := by
  have hlt := significand_lt y
  unfold leadingBit at hlt
  exact_mod_cast copies_three_error h 2 (p := (3 * y.significand + 2) / 4) (r := 2)
    (by unfold leadingBit; omega) (by omega) (by omega)

/-- by one place at most where it does not stray, -/
theorem copies_three_near_of_stays (h : (copies 3 y).isFinite = true) (hstays : ¬ y.TripleStrays) :
    |((copies 3 y).units : ℚ) - 3 * y.units| ≤ 2 ^ y.scale := by
  have hlt := significand_lt y
  unfold leadingBit at hlt
  unfold TripleStrays at hstays
  have hone : ((1 : Nat) : ℚ) * 2 ^ y.scale = 2 ^ y.scale := by rw [Nat.cast_one, one_mul]
  rw [← hone]
  rcases Nat.lt_or_ge (3 * y.significand) (2 ^ 54) with hshort | hlong
  · exact copies_three_error h 1 (p := 3 * y.significand / 2) (by unfold leadingBit; omega)
      (by omega) (by omega)
  · exact copies_three_error h 2 (p := (3 * y.significand + 1) / 4) (by unfold leadingBit; omega)
      (by omega) (by omega)

/-- and not at all where it fits. -/
theorem copies_three_exact (h : (copies 3 y).isFinite = true) (hfits : y.TripleFits) :
    ((copies 3 y).units : ℚ) = 3 * y.units := by
  have herror : |((copies 3 y).units : ℚ) - 3 * y.units| ≤ (0 : Nat) * 2 ^ y.scale := by
    rcases hfits with hshort | ⟨heven, hshort⟩
    · exact copies_three_error h 0 (p := 3 * y.significand) (by unfold leadingBit; omega)
        (by omega) (by omega)
    · exact copies_three_error h 1 (p := 3 * y.significand / 2) (by unfold leadingBit; omega)
        (by omega) (by omega)
  rw [Nat.cast_zero, zero_mul] at herror
  exact sub_eq_zero.mp (abs_nonpos_iff.mp herror)

/-- **Four copies sum to four times `y`**, whatever the sum of three was. -/
theorem copies_four (h : (copies 4 y).isFinite = true) : ((copies 4 y).units : ℚ) = 4 * y.units := by
  have h₃ : (copies 3 y).isFinite = true := copies_isFinite (by decide) h
  have hsum := copies_roundsTo h
  have hlt := significand_lt y
  have hbit := scale_eq_zero_or y
  have hpow : (0 : ℚ) < 2 ^ y.scale := by positivity
  have habs : |(4 * y.units : ℚ)| = y.significand * 2 ^ (y.scale + 2) := by
    rw [abs_mul, abs_units_eq, abs_of_pos (by norm_num)]
    ring
  have hdistance : |((copies 3 y).units + y.units : ℚ) - 4 * y.units| =
      |((copies 3 y).units : ℚ) - 3 * y.units| := by
    congr 1
    ring
  by_cases hfits : y.TripleFits
  · rw [copies_three_exact h₃ hfits] at hsum
    have hfour : (3 * y.units + y.units : ℚ) = 4 * y.units := by ring
    rw [hfour] at hsum
    exact hsum.eq_of_places h hlt.le habs
  unfold TripleFits at hfits
  unfold leadingBit at hlt hbit
  rcases Nat.lt_or_ge (2 ^ 52) y.significand with hnormal | hsmall
  · -- four times `y` has the places of `y`, and the error is at most half of one
    refine hsum.units_eq_of_near h habs (Or.inr (by unfold leadingBit; omega))
      (by unfold leadingBit; omega) ?_
    rw [hdistance, pow_add]
    rcases Nat.mod_two_eq_zero_or_one y.significand with heven | hodd
    · exact Or.inr ⟨(copies_three_near h₃).trans (by linarith), heven⟩
    · refine Or.inl ((copies_three_near_of_stays h₃ fun hstrays => ?_).trans_lt (by linarith))
      unfold TripleStrays at hstrays
      omega
  · -- `y` is subnormal and odd, and four times `y` lies where only even places are left
    have hscale : y.scale = 0 := by omega
    have hhalf : (2 : ℚ) ^ y.scale = 2 ^ 1 / 2 := by rw [hscale]; norm_num
    refine hsum.units_eq_of_near h (s := 1) (q := 2 * y.significand) ?_
      (Or.inr (by unfold leadingBit; omega)) (by unfold leadingBit; omega) (Or.inr ⟨?_, by omega⟩)
    · rw [habs, hscale]
      push_cast
      ring
    · rw [hdistance, ← hhalf]
      refine copies_three_near_of_stays h₃ fun hstrays => ?_
      unfold TripleStrays at hstrays
      omega

/-! ## 3. Means -/

/-- A multiple that is exact has an exact mean. -/
theorem mean_of_exact (hy : y.isFinite = true) {n : Nat} (hn : 1 ≤ n) (hshort : n ≤ 2 ^ 53)
    (h : (copies n y).isFinite = true) (hexact : ((copies n y).units : ℚ) = n * y.units) :
    (copies n y / ofNat n).isFinite = true ∧ (copies n y / ofNat n).units = y.units := by
  have hnq : (n : ℚ) ≠ 0 := by exact_mod_cast (Nat.one_le_iff_ne_zero.mp hn)
  have hdiv := div_ofNat_roundsTo h hn hshort
  rw [hexact, mul_div_cancel_left₀ _ hnq] at hdiv
  exact hdiv.exact hy rfl

theorem third_roundsTo (h : (copies 3 y).isFinite = true) :
    RoundsTo ((copies 3 y).units / (3 : Nat)) (copies 3 y / ofNat 3) ∧
      (copies 3 y / ofNat 3).isFinite = true := by
  have hdiv := div_ofNat_roundsTo h (n := 3) (by decide) (by decide)
  refine ⟨hdiv, hdiv.isFinite_of_abs_le h ?_⟩
  rw [abs_div]
  exact div_le_self (abs_nonneg _) (by norm_num)

/-- The mean of three copies is `y`, where their sum does not stray. -/
theorem mean_three (hy : y.isFinite = true) (h : (copies 3 y).isFinite = true)
    (hstays : ¬ y.TripleStrays) : (copies 3 y / ofNat 3).units = y.units := by
  by_cases hfits : y.TripleFits
  · exact (mean_of_exact hy (by decide) (by decide) h (copies_three_exact h hfits)).2
  unfold TripleFits at hfits
  have hlt := significand_lt y
  have hbit := scale_eq_zero_or y
  obtain ⟨hdiv, hfinite⟩ := third_roundsTo h
  have hnear := copies_three_near_of_stays h hstays
  have hpow : (0 : ℚ) < 2 ^ y.scale := by positivity
  have hdistance : |((copies 3 y).units : ℚ) / (3 : Nat) - y.units| < 2 ^ y.scale / 2 := by
    have hsplit : ((copies 3 y).units : ℚ) / (3 : Nat) - y.units =
        ((copies 3 y).units - 3 * y.units) / 3 := by
      push_cast
      ring
    rw [hsplit, abs_div, abs_of_pos (show (0 : ℚ) < 3 by norm_num)]
    linarith
  unfold leadingBit at hlt hbit
  have hunits := hdiv.units_eq_of_near hfinite (abs_units_eq y)
    (by unfold leadingBit; omega) (by unfold leadingBit; omega) (Or.inl hdistance)
  exact_mod_cast hunits

/-- What rounds from the binade of `2 ^ 54` places on is a multiple of four of them. -/
theorem RoundsTo.exists_multiple {v : ℚ} (h : RoundsTo v x) (hx : x.isFinite = true) {s : Nat}
    (hlong : 2 ^ 54 * 2 ^ s ≤ |v|) : ∃ j : Nat, |(x.units : ℚ)| = (4 * j : Nat) * 2 ^ s := by
  have hfinite : x.magnitude < infiniteMagnitude := by simpa [isFinite] using hx
  have hbase : (magnitudeUnits ((s + 2) * leadingBit + leadingBit) : ℚ) = 2 ^ 54 * 2 ^ s := by
    rw [magnitudeUnits_place (Or.inr le_rfl) (by unfold leadingBit; omega), leadingBit_eq]
    push_cast
    ring
  have hge : (s + 2) * leadingBit + leadingBit ≤ x.magnitude := by
    by_contra hlt
    have habove := (roundsAbove_magnitudeUnits _ x.magnitude).mpr (not_le.mp hlt)
    rw [hbase] at habove
    exact absurd ((h.lt_magnitude_iff x.magnitude).mpr ⟨hfinite, habove.mono hlong⟩) (lt_irrefl _)
  have hunits : leadingBit * 2 ^ (s + 2) ≤ x.units.natAbs := by
    rw [natAbs_units, ← magnitudeUnits_place (Or.inr le_rfl) (by unfold leadingBit; omega)]
    exact magnitudeUnits_strictMono.monotone hge
  obtain ⟨i, hi⟩ := two_pow_dvd_units hunits
  refine ⟨i.natAbs, ?_⟩
  rw [hi, Nat.cast_mul, Nat.cast_natAbs, Int.cast_abs]
  push_cast
  rw [abs_mul, abs_of_pos (show (0 : ℚ) < 2 ^ (s + 2) by positivity)]
  ring

/-- A sum of three that strays is two places away from three times `y`: it is a multiple of four
places, and three times the significand is not. -/
theorem exists_of_strays (h : (copies 3 y).isFinite = true) (hstrays : y.TripleStrays) :
    ∃ j : Nat, |((copies 3 y).units : ℚ)| = (4 * j : Nat) * 2 ^ y.scale ∧
      (4 * j = 3 * y.significand + 2 ∨ 4 * j + 2 = 3 * y.significand) := by
  obtain ⟨hfour, hlong⟩ := hstrays
  obtain ⟨hsum, habs⟩ := copies_three_roundsTo h
  have hpow : (0 : ℚ) < 2 ^ y.scale := by positivity
  obtain ⟨j, hj⟩ := hsum.exists_multiple h (s := y.scale) (by
    rw [habs]
    gcongr
    exact_mod_cast hlong)
  refine ⟨j, hj, ?_⟩
  have hgap : |((4 * j : Nat) : ℚ) - (3 * y.significand : Nat)| ≤ 2 := by
    have hle := (abs_abs_sub_abs_le _ _).trans (copies_three_near h)
    rw [hj, habs, ← sub_mul, abs_mul, abs_of_pos hpow] at hle
    exact le_of_mul_le_mul_right hle hpow
  rw [abs_le] at hgap
  have hlow : 3 * y.significand ≤ 4 * j + 2 := by
    have : ((3 * y.significand : Nat) : ℚ) ≤ (4 * j : Nat) + 2 := by linarith
    exact_mod_cast this
  have hhigh : 4 * j ≤ 3 * y.significand + 2 := by
    have : ((4 * j : Nat) : ℚ) ≤ (3 * y.significand : Nat) + 2 := by linarith
    exact_mod_cast this
  omega

/-- A third of it lies two thirds of a place from `y`, and one third from the next number of places. -/
theorem third_of_strays (h : (copies 3 y).isFinite = true) (hstrays : y.TripleStrays) :
    (2 : ℚ) / 3 * 2 ^ y.scale ≤ |(y.units : ℚ) - (copies 3 y).units / (3 : Nat)| ∧
      ∃ p : Nat, p ≤ 2 * leadingBit ∧
        |(p : ℚ) * 2 ^ y.scale - abs (((copies 3 y).units : ℚ) / (3 : Nat))| ≤
          1 / 3 * 2 ^ y.scale := by
  obtain ⟨j, hj, hcases⟩ := exists_of_strays h hstrays
  have hlt := significand_lt y
  have hpow : (0 : ℚ) < 2 ^ y.scale := by positivity
  have hvalue : |((copies 3 y).units : ℚ) / (3 : Nat)| = ((4 * j : Nat) : ℚ) / 3 * 2 ^ y.scale := by
    rw [abs_div, hj, Nat.cast_ofNat, abs_of_pos (show (0 : ℚ) < 3 by norm_num)]
    ring
  have hscaled : ∀ p : ℚ, |p * 2 ^ y.scale - ((4 * j : Nat) : ℚ) / 3 * 2 ^ y.scale| =
      |p - ((4 * j : Nat) : ℚ) / 3| * 2 ^ y.scale := fun p => by
    rw [← sub_mul, abs_mul, abs_of_pos hpow]
  have hdistance := abs_abs_sub_abs_le (y.units : ℚ) (((copies 3 y).units : ℚ) / (3 : Nat))
  rw [abs_units_eq, hvalue, hscaled] at hdistance
  rw [hvalue]
  rcases hcases with hcase | hcase
  · have hcast : ((4 * j : Nat) : ℚ) = 3 * y.significand + 2 := by exact_mod_cast hcase
    rw [hcast] at hdistance hscaled ⊢
    refine ⟨le_trans ?_ hdistance, y.significand + 1, by omega, ?_⟩
    · rw [abs_of_nonpos (by linarith)]
      gcongr
      linarith
    · rw [hscaled]
      push_cast
      rw [abs_of_nonneg (by linarith)]
      gcongr
      linarith
  · have hcast : ((4 * j : Nat) : ℚ) = 3 * y.significand - 2 := by
      have : ((4 * j : Nat) : ℚ) + 2 = 3 * y.significand := by exact_mod_cast hcase
      linarith
    rw [hcast] at hdistance hscaled ⊢
    refine ⟨le_trans ?_ hdistance, y.significand - 1, by omega, ?_⟩
    · rw [abs_of_nonneg (by linarith)]
      gcongr
      linarith
    · rw [hscaled, Nat.cast_sub (by omega), Nat.cast_one, abs_of_nonpos (by linarith)]
      gcongr
      linarith

/-- Where the sum strays, it is another double. -/
theorem mean_three_ne (h : (copies 3 y).isFinite = true) (hstrays : y.TripleStrays) :
    (copies 3 y / ofNat 3).units ≠ y.units := by
  intro heq
  obtain ⟨hdiv, hfinite⟩ := third_roundsTo h
  obtain ⟨hfar, p, hp, hnear⟩ := third_of_strays h hstrays
  have hpow : (0 : ℚ) < 2 ^ y.scale := by positivity
  have herror := hdiv.error_le_of_places hfinite y.scale hp
  rw [heq] at herror
  linarith

/-- **The mean of three copies is `y` exactly where their sum does not stray.** -/
theorem mean_three_iff (hy : y.isFinite = true) (h : (copies 3 y).isFinite = true) :
    (copies 3 y / ofNat 3).units = y.units ↔ ¬ y.TripleStrays := by
  constructor
  · intro heq hstrays
    exact mean_three_ne h hstrays heq
  · exact mean_three hy h

example : TripleStrays 1013.2 ∧ ¬ TripleStrays 1013.25 := by decide +kernel

end Binary64

end Barogrid
