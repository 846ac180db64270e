import Mathlib
import Barogrid.Proofs.Binary64.Copies
import Barogrid.Proofs.Statistics.Median

/-!
# Lists without spread

The standard deviation of copies of one double should be zero.  It is computed from their mean, which
may miss the double, and from a sum, which may overflow.  So there are three cases, and only the last
is not what one expects:

* `stdevOf_replicate_cases` -- **the standard deviation is zero, or it is no finite number, or the sum
  of the copies is finite and their mean is another double**;
* `meanOf_replicate`, `medianOf_replicate` -- the mean of up to four copies and the median of any
  number of them are the double again, unless something overflows or a sum of three strays;
* `stdevOf_of_zeros` -- zeros of either sign have the standard deviation zero.
-/

namespace Barogrid

namespace Binary64

variable {x y : Binary64}

/-! ## 1. Zeros -/

theorem RoundsTo.isZero (h : RoundsTo 0 x) : x.isZero = true := by
  simpa [Binary64.isZero] using h.magnitude_of_zero

theorem sub_isZero (hx : x.isFinite = true) (hy : y.isFinite = true) (h : x.units = y.units) :
    (x - y).isZero = true := by
  have hsub := sub_roundsTo hx hy
  rw [h, sub_self] at hsub
  exact hsub.isZero

theorem mul_isZero (hx : x.isZero = true) (hy : y.isZero = true) : (x * y).isZero = true := by
  obtain ⟨hxf, hx0⟩ := isZero_iff.mp hx
  have hmul := mul_roundsTo hxf (isZero_iff.mp hy).1
  rw [hx0, Int.cast_zero, zero_mul, zero_div] at hmul
  exact hmul.isZero

theorem sum_isZero {xs : List Binary64} (h : ∀ x ∈ xs, x.isZero = true) : (sum xs).isZero = true := by
  induction xs using List.reverseRecOn with
  | nil => rfl
  | append_singleton xs x ih =>
    rw [sum_append_singleton]
    obtain ⟨hsum, hsum0⟩ := isZero_iff.mp (ih fun y hy => h y (List.mem_append_left _ hy))
    obtain ⟨hx, hx0⟩ := isZero_iff.mp (h x (by simp))
    have hadd := add_roundsTo hsum hx
    rw [hsum0, hx0, Int.cast_zero, add_zero] at hadd
    exact hadd.isZero

theorem div_isZero (hx : x.isZero = true) (hnan : y.isNaN = false) (hy : y.isZero = false) :
    (x / y).isZero = true := by
  obtain ⟨hfinite, hunits⟩ := isZero_iff.mp hx
  by_cases hinf : y.isInfinite = true
  · show (div x y).isZero = true
    simp [div, isNaN_of_isFinite hfinite, isInfinite_of_isFinite hfinite, hnan, hinf, zero, isZero]
  · have hdiv := div_roundsTo hfinite (isFinite_of_not hnan (by simpa using hinf)) hy
    rw [hunits, Int.cast_zero, zero_div, zero_mul] at hdiv
    exact hdiv.isZero

/-- A positive number of things is no zero, even if it is too large for a finite double. -/
theorem ofNat_isZero {n : Nat} (hn : 1 ≤ n) : (ofNat n).isZero = false := by
  have hle : (1 : ℚ) * 2 ^ oneScale ≤ n * 2 ^ oneScale := by
    gcongr
    exact_mod_cast hn
  have hrank := (ofNat_roundsTo 1).rank_mono (ofNat_roundsTo n) (by simpa using hle)
  have hone : 0 < (ofNat 1).rank := by decide +kernel
  by_contra hzero
  have hzero : (ofNat n).magnitude = 0 := by simpa [isZero] using hzero
  rw [show (ofNat n).rank = 0 by simp [rank, signed, hzero]] at hrank
  omega

/-! ## 2. What a finite result says of the arguments -/

theorem isFinite_of_mul_self (h : (x * x).isFinite = true) : x.isFinite = true := by
  have h : (mul x x).isFinite = true := h
  unfold mul at h
  by_cases hnan : x.isNaN = true
  · simp only [hnan, Bool.or_self, ↓reduceIte] at h
    exact absurd h (by decide)
  by_cases hinf : x.isInfinite = true
  · simp only [hnan, hinf, Bool.or_self, ↓reduceIte, Bool.false_eq_true] at h
    split at h
    · exact absurd h (by decide)
    · rw [isFinite_infinity] at h
      cases h
  · exact isFinite_of_not (by simpa using hnan) (by simpa using hinf)

theorem isFinite_of_div (h : (x / y).isFinite = true) : x.isFinite = true := by
  have h : (div x y).isFinite = true := h
  unfold div at h
  by_cases hnan : x.isNaN = true
  · simp only [hnan, Bool.true_or, ↓reduceIte] at h
    exact absurd h (by decide)
  by_cases hinf : x.isInfinite = true
  · simp only [hinf, ↓reduceIte] at h
    split at h
    · exact absurd h (by decide)
    split at h
    · exact absurd h (by decide)
    · rw [isFinite_infinity] at h
      cases h
  · exact isFinite_of_not (by simpa using hnan) (by simpa using hinf)

theorem isFinite_of_sqrt (h : x.sqrt.isFinite = true) : x.isFinite = true := by
  unfold sqrt at h
  by_cases hsame : (x.isNaN || x.isZero) = true
  · rwa [if_pos hsame] at h
  rw [if_neg hsame] at h
  by_cases hneg : x.negative = true
  · rw [if_pos hneg] at h
    exact absurd h (by decide)
  rw [if_neg hneg] at h
  by_cases hinf : x.isInfinite = true
  · rwa [if_pos hinf] at h
  · simp only [Bool.or_eq_true, not_or, Bool.not_eq_true] at hsame
    exact isFinite_of_not hsame.1 (by simpa using hinf)

theorem isFinite_of_sum {xs : List Binary64} (h : (sum xs).isFinite = true) :
    ∀ x ∈ xs, x.isFinite = true := by
  induction xs using List.reverseRecOn with
  | nil => exact fun x hx => absurd hx List.not_mem_nil
  | append_singleton xs x ih =>
    rw [sum_append_singleton] at h
    obtain ⟨hsum, hx⟩ := isFinite_of_add h
    intro y hy
    rcases List.mem_append.mp hy with hy | hy
    · exact ih hsum y hy
    · rwa [List.mem_singleton.mp hy]

end Binary64

namespace Statistics

open Binary64 (sum copies)

variable {xs : List Binary64} {y : Binary64} {n : Nat}

/-! ## 3. The standard deviation -/

theorem meanOf_isZero (hsome : xs ≠ []) (h : ∀ x ∈ xs, x.isZero = true) :
    (meanOf xs).isZero = true :=
  Binary64.div_isZero (Binary64.sum_isZero h) (Binary64.ofNat_roundsTo _).isNaN
    (Binary64.ofNat_isZero (List.length_pos_iff.mpr hsome))

/-- No distance from the mean, no deviation. -/
theorem stdevOf_isZero (hsome : xs ≠ []) (h : ∀ x ∈ xs, (x - meanOf xs).isZero = true) :
    (stdevOf xs).isZero = true := by
  have hmean : (meanOf (xs.map fun x => (x - meanOf xs) * (x - meanOf xs))).isZero = true := by
    refine meanOf_isZero (by simpa using hsome) fun d hd => ?_
    obtain ⟨x, hx, rfl⟩ := List.mem_map.mp hd
    exact Binary64.mul_isZero (h x hx) (h x hx)
  show (Binary64.sqrt _).isZero = true
  unfold Binary64.sqrt
  rw [hmean, Bool.or_true, if_pos rfl, hmean]

theorem stdevOf_of_zeros (hsome : xs ≠ []) (h : ∀ x ∈ xs, x.isZero = true) :
    (stdevOf xs).isZero = true := by
  refine stdevOf_isZero hsome fun x hx => ?_
  obtain ⟨hfinite, hunits⟩ := Binary64.isZero_iff.mp (h x hx)
  obtain ⟨hmean, hmeanunits⟩ := Binary64.isZero_iff.mp (meanOf_isZero hsome h)
  exact Binary64.sub_isZero hfinite hmean (hunits.trans hmeanunits.symm)

/-- A finite deviation comes from a finite mean. -/
theorem meanOf_isFinite (hsome : xs ≠ []) (h : (stdevOf xs).isFinite = true) :
    (meanOf xs).isFinite = true := by
  obtain ⟨x, hx⟩ := List.exists_mem_of_ne_nil xs hsome
  have hsquares := Binary64.isFinite_of_div (Binary64.isFinite_of_sqrt h)
  have hsquare := Binary64.isFinite_of_sum hsquares _ (List.mem_map_of_mem hx)
  have hdistance : (x + -meanOf xs).isFinite = true := Binary64.isFinite_of_mul_self hsquare
  exact (Binary64.isFinite_of_add hdistance).2

/-- **The deviation of copies is zero, or it is not finite, or their mean is another double.** -/
theorem stdevOf_replicate_cases (hy : y.isFinite = true) (hn : 1 ≤ n) :
    (stdevOf (List.replicate n y)).isZero = true ∨
      (stdevOf (List.replicate n y)).isFinite = false ∨
      ((copies n y).isFinite = true ∧ (meanOf (List.replicate n y)).units ≠ y.units) := by
  have hsome : List.replicate n y ≠ [] := by simp; omega
  by_cases hfinite : (stdevOf (List.replicate n y)).isFinite = true
  · have hmeanfinite := meanOf_isFinite hsome hfinite
    by_cases hmean : (meanOf (List.replicate n y)).units = y.units
    · refine Or.inl (stdevOf_isZero hsome fun x hx => ?_)
      rw [List.eq_of_mem_replicate hx]
      exact Binary64.sub_isZero hy hmeanfinite hmean.symm
    · exact Or.inr (Or.inr ⟨Binary64.isFinite_of_div hmeanfinite, hmean⟩)
  · exact Or.inr (Or.inl (by simpa using hfinite))

/-! ## 4. Mean and median -/

theorem meanOf_replicate_eq (n : Nat) (y : Binary64) :
    meanOf (List.replicate n y) = copies n y / Binary64.ofNat n := by
  rw [meanOf, List.length_replicate]
  rfl

/-- **The mean of up to four copies**; three need some care. -/
theorem meanOf_replicate (hy : y.isFinite = true) (hn : 1 ≤ n) (hfour : n ≤ 4)
    (h : (copies n y).isFinite = true) (hstays : n = 3 → ¬ y.TripleStrays) :
    (meanOf (List.replicate n y)).isFinite = true ∧
      (meanOf (List.replicate n y)).units = y.units := by
  rw [meanOf_replicate_eq]
  have hcases : n = 1 ∨ n = 2 ∨ n = 3 ∨ n = 4 := by omega
  rcases hcases with rfl | rfl | rfl | rfl
  · refine Binary64.mean_of_exact hy hn (by decide) h ?_
    rw [(Binary64.copies_one hy).2, Nat.cast_one, one_mul]
  · exact Binary64.mean_of_exact hy hn (by decide) h (by exact_mod_cast Binary64.copies_two h)
  · exact ⟨(Binary64.third_roundsTo h).2, (Binary64.mean_three_iff hy h).mpr (hstays rfl)⟩
  · exact Binary64.mean_of_exact hy hn (by decide) h (by exact_mod_cast Binary64.copies_four h)

theorem sorted_replicate (n : Nat) (y : Binary64) :
    sorted (List.replicate n y) = List.replicate n y :=
  List.perm_replicate.mp (sorted_perm_self _)

/-- **The median of copies.** -/
theorem medianOf_replicate (hy : y.isFinite = true) (hn : 1 ≤ n)
    (h : n = 1 ∨ (copies 2 y).isFinite = true) :
    (medianOf (List.replicate n y)).isFinite = true ∧
      (medianOf (List.replicate n y)).units = y.units := by
  unfold medianOf
  rw [sorted_replicate]
  simp only [List.length_replicate]
  have hget : ∀ i, i < n → (List.replicate n y).getD i default = y := by
    intro i hi
    simp [List.getD_eq_getElem?_getD, hi]
  by_cases heven : n % 2 = 0
  · rw [if_pos heven, hget _ (by omega), hget _ (by omega)]
    have htwo : (copies 2 y).isFinite = true := h.resolve_left (by omega)
    obtain ⟨hsum, hunits⟩ := Binary64.add_self_exact htwo
    refine (Binary64.half_roundsTo hsum).exact hy ?_
    rw [hunits]
    ring
  · rw [if_neg heven, hget _ (by omega)]
    exact ⟨hy, rfl⟩

end Statistics

end Barogrid
