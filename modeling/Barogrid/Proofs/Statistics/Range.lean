import Mathlib
import Barogrid.Proofs.Binary64.Between
import Barogrid.Proofs.Statistics.Flat
import Barogrid.Proofs.Statistics.Majority

/-!
# Mean and median stay within bounds

Rounding is monotone.  So the sum of values between two bounds lies between the sums of as many copies of
the bounds, however often it has been rounded on the way, and mean and median can leave the bounds only
where those of copies do.

* `sum_between` -- **sums stay between those of copies of the bounds**;
* `Steady` -- up to four copies of the double have it as their mean and their median;
* `Roomy.steady` -- this is so where three times the double is a double again and four times the double
  does not overflow;
* `meanOf_between`, `medianOf_between` -- **the mean of up to four values stays within steady bounds, and
  the median of any number of them within bounds that can be doubled**.
-/

namespace Barogrid

namespace Binary64

variable {lo hi y : Binary64} {xs : List Binary64}

/-! ## 1. Sums -/

/-- **Sums stay between those of copies of the bounds.** -/
theorem sum_between (hlo : (copies xs.length lo).isFinite = true)
    (hhi : (copies xs.length hi).isFinite = true) (h : ∀ x ∈ xs, Between lo hi x) :
    Between (copies xs.length lo) (copies xs.length hi) (sum xs) := by
  induction xs using List.reverseRecOn with
  | nil =>
    show Between (zero true) (zero true) (zero true)
    exact ⟨by decide, by decide⟩
  | append_singleton xs x ih =>
    rw [List.length_append, List.length_singleton, copies_succ] at hlo hhi ⊢
    rw [copies_succ, sum_append_singleton]
    have hsum := ih (isFinite_of_add hlo).1 (isFinite_of_add hhi).1 fun y hy =>
      h y (List.mem_append_left _ hy)
    exact add_between hlo hhi hsum (h x (by simp))

/-! ## 2. Steady doubles -/

/-- The sum of four copies does not overflow, and that of three does not stray. -/
structure Steady (y : Binary64) : Prop where
  copies : (copies 4 y).isFinite = true
  stays : ¬ y.TripleStrays

theorem Steady.copies_isFinite {n : Nat} (h : y.Steady) (hn : n ≤ 4) :
    (Binary64.copies n y).isFinite = true := Binary64.copies_isFinite hn h.copies

theorem Steady.isFinite (h : y.Steady) : y.isFinite = true := by
  have hcopies := h.copies
  rw [copies_succ] at hcopies
  exact (isFinite_of_add hcopies).2

theorem Steady.double_isFinite (h : y.Steady) : (y + y).isFinite = true :=
  (add_self_exact (h.copies_isFinite (by decide))).1

/-- Three times the double is a double, and four times the double does not overflow. -/
structure Roomy (y : Binary64) : Prop where
  isFinite : y.isFinite = true
  triple : ∃ z : Binary64, z.isFinite = true ∧ z.units = 3 * y.units
  quadruple : (4 * y).isFinite = true

/-- Small whole numbers are. -/
theorem roomy_ofNat {n : Nat} (hn : 4 * n ≤ 2 ^ 53) : (ofNat n).Roomy := by
  obtain ⟨hfinite, hunits⟩ := ofNat_exact (n := n) (by omega)
  obtain ⟨hthree, hthreeUnits⟩ := ofNat_exact (n := 3 * n) (by omega)
  obtain ⟨hfour, hfourUnits⟩ := ofNat_exact (n := 4) (by decide)
  refine ⟨hfinite, ⟨ofNat (3 * n), hthree, ?_⟩, ?_⟩
  · rw [hthreeUnits, hunits]
    push_cast
    ring
  · refine ((mul_roundsTo hfour hfinite).exact_of_short (i := 4 * n) (e := oneScale) (by omega)
      (by decide) ?_).1
    rw [hfourUnits, hunits]
    push_cast
    field_simp

/-- Four times a double is exact. -/
theorem four_mul_units (hy : y.isFinite = true) (h : (4 * y).isFinite = true) :
    ((4 * y).units : ℚ) = 4 * y.units := by
  obtain ⟨hfour, hunits⟩ := ofNat_exact (n := 4) (by decide)
  have hmul := mul_roundsTo hfour hy
  have hvalue : ((ofNat 4).units * y.units / 2 ^ oneScale : ℚ) = 4 * y.units := by
    rw [hunits]
    push_cast
    field_simp
  rw [hvalue] at hmul
  refine hmul.eq_of_places h (e := y.scale + 2) (significand_lt y).le ?_
  rw [abs_mul, abs_units_eq, abs_of_pos (by norm_num), pow_add]
  ring

theorem Roomy.copies_three (h : y.Roomy) :
    (copies 3 y).isFinite = true ∧ ((copies 3 y).units : ℚ) = 3 * y.units := by
  obtain ⟨z, hz, hunits⟩ := h.triple
  have hfour := four_mul_units h.isFinite h.quadruple
  obtain ⟨hone, honeUnits⟩ := copies_one h.isFinite
  have htwo := add_roundsTo hone h.isFinite
  rw [honeUnits, ← copies_succ] at htwo
  have htwoFinite : (copies 2 y).isFinite = true := htwo.isFinite_of_abs_le h.quadruple (by
    rw [hfour, ← two_mul, abs_mul, abs_mul, abs_two, abs_of_pos (by norm_num : (0 : ℚ) < 4)]
    gcongr
    norm_num)
  have hthree := add_roundsTo htwoFinite h.isFinite
  rw [copies_two htwoFinite, ← copies_succ] at hthree
  obtain ⟨hfinite, hexact⟩ := hthree.exact hz (by rw [hunits]; push_cast; ring)
  refine ⟨hfinite, ?_⟩
  rw [hexact, hunits]
  push_cast
  rfl

theorem Roomy.steady (h : y.Roomy) : y.Steady := by
  obtain ⟨hthree, hexact⟩ := h.copies_three
  have hmean := mean_of_exact h.isFinite (n := 3) (by decide) (by decide) hthree
    (by exact_mod_cast hexact)
  refine ⟨?_, (mean_three_iff h.isFinite hthree).mp hmean.2⟩
  have hsum := add_roundsTo hthree h.isFinite
  rw [hexact, ← copies_succ] at hsum
  refine hsum.isFinite_of_abs_le h.quadruple (le_of_eq ?_)
  rw [four_mul_units h.isFinite h.quadruple]
  congr 1
  ring

end Binary64

namespace Statistics

open Binary64 (Between copies)

variable {lo hi : Binary64} {xs : List Binary64}

/-! ## 3. Mean and median -/

/-- **The mean of up to four values stays within steady bounds.** -/
theorem meanOf_between (hlo : lo.Steady) (hhi : hi.Steady) (hsome : xs ≠ []) (hfour : xs.length ≤ 4)
    (h : ∀ x ∈ xs, Between lo hi x) : Between lo hi (meanOf xs) := by
  have hpos : 1 ≤ xs.length := List.length_pos_iff.mpr hsome
  obtain ⟨hcount, hcountUnits⟩ := Binary64.ofNat_exact (n := xs.length) (by omega)
  have hdiv := Binary64.div_follows hcount (by rw [hcountUnits]; positivity)
  obtain ⟨hbelow, habove⟩ := Binary64.sum_between (hlo.copies_isFinite hfour)
    (hhi.copies_isFinite hfour) h
  obtain ⟨hloMean, hloUnits⟩ := meanOf_replicate hlo.isFinite hpos hfour
    (hlo.copies_isFinite hfour) fun _ => hlo.stays
  obtain ⟨hhiMean, hhiUnits⟩ := meanOf_replicate hhi.isFinite hpos hfour
    (hhi.copies_isFinite hfour) fun _ => hhi.stays
  rw [meanOf_replicate_eq] at hloMean hloUnits hhiMean hhiUnits
  have hlow : lo ≤ copies xs.length lo / Binary64.ofNat xs.length :=
    (Binary64.le_iff_units_le hlo.isFinite hloMean).mpr hloUnits.ge
  have hhigh : copies xs.length hi / Binary64.ofNat xs.length ≤ hi :=
    (Binary64.le_iff_units_le hhiMean hhi.isFinite).mpr hhiUnits.le
  exact ⟨Binary64.le_trans hlow (hdiv.le hbelow), Binary64.le_trans (hdiv.le habove) hhigh⟩

/-- **The median stays within bounds that do not overflow when they are doubled.** -/
theorem medianOf_between (hlo : (lo + lo).isFinite = true) (hhi : (hi + hi).isFinite = true)
    (hsome : xs ≠ []) (h : ∀ x ∈ xs, Between lo hi x) : Between lo hi (medianOf xs) := by
  have hall : xs.countP (fun x => x.within lo hi) = xs.length :=
    List.countP_eq_length.mpr fun x hx => Binary64.within_iff.mpr (h x hx)
  have hpos : 1 ≤ xs.length := List.length_pos_iff.mpr hsome
  exact medianOf_of_majority hlo hhi (by omega)

end Statistics

end Barogrid
