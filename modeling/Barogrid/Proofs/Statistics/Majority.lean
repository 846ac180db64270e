import Mathlib
import Barogrid.Proofs.Binary64.Between
import Barogrid.Proofs.Statistics.Median

/-!
# A majority holds the median

The median is taken from the middle of the values in their total order.  There the doubles within two
bounds stand side by side: every other double stands before all of them or after all of them, also the
NaNs, which go to the ends, and no matter that the two zeros count as equal and yet have an order.  So
the bounds of more than half of the values hold the middle as well, whatever the other values are.

* `between_cases` -- within the bounds, before all that is within them, or after all of it;
* `between_of_count` -- **a place that is reached from both ends lies within the bounds**;
* `medianOf_of_majority` -- the median lies within the bounds of a majority.
-/

namespace Barogrid

namespace Binary64

variable {lo hi x y : Binary64}

/-! ## 1. Bounds and the total order -/

theorem totalRank_lt_of_rank_lt (h : x.rank < y.rank) : x.totalRank < y.totalRank := by
  unfold rank signed at h
  unfold totalRank
  split_ifs at h ⊢ <;> omega

/-- A NaN stands at the end of the total order that its sign points to. -/
theorem totalRank_lt_of_isNaN (hx : x.isNaN = true) (hy : y.isNaN = false) :
    if x.negative then x.totalRank < y.totalRank else y.totalRank < x.totalRank := by
  have hy := magnitude_le hy
  have hx : infiniteMagnitude < x.magnitude := by simpa [isNaN] using hx
  unfold totalRank
  split <;> split <;> omega

/-- **A double lies within the bounds, or before all that do, or after all that do.** -/
theorem between_cases (lo hi x : Binary64) :
    Between lo hi x ∨ (∀ y, Between lo hi y → x.totalRank < y.totalRank) ∨
      ∀ y, Between lo hi y → y.totalRank < x.totalRank := by
  by_cases hnan : x.isNaN = true
  · cases hsign : x.negative with
    | true =>
      refine Or.inr (Or.inl fun y hy => ?_)
      simpa [hsign] using totalRank_lt_of_isNaN hnan (le_iff.mp hy.1).2.1
    | false =>
      refine Or.inr (Or.inr fun y hy => ?_)
      simpa [hsign] using totalRank_lt_of_isNaN hnan (le_iff.mp hy.1).2.1
  have hnumber : x.isNaN = false := by simpa using hnan
  by_cases hlo : lo ≤ x
  · by_cases hhi : x ≤ hi
    · exact Or.inl ⟨hlo, hhi⟩
    · refine Or.inr (Or.inr fun y hy => totalRank_lt_of_rank_lt ?_)
      obtain ⟨-, hhiNumber, hyhi⟩ := le_iff.mp hy.2
      have hbeyond : hi.rank < x.rank := by
        by_contra hle
        exact hhi (le_iff.mpr ⟨hnumber, hhiNumber, not_lt.mp hle⟩)
      omega
  · refine Or.inr (Or.inl fun y hy => totalRank_lt_of_rank_lt ?_)
    obtain ⟨hloNumber, -, hloy⟩ := le_iff.mp hy.1
    have hbelow : x.rank < lo.rank := by
      by_contra hle
      exact hlo (le_iff.mpr ⟨hloNumber, hnumber, not_lt.mp hle⟩)
    omega

end Binary64

namespace Statistics

open Binary64 (Between)

variable {lo hi : Binary64} {xs s : List Binary64} {i j : Nat}

/-! ## 2. Places of sorted values -/

theorem totalRank_getElem_le (hs : s.Pairwise fun x y => x.totalLE y = true) (hij : i ≤ j)
    (hj : j < s.length) : s[i].totalRank ≤ s[j].totalRank := by
  rcases hij.lt_or_eq with hlt | rfl
  · have hle := List.pairwise_iff_getElem.mp hs i j (by omega) hj hlt
    simpa [Binary64.totalLE] using hle
  · exact le_rfl

/-- **A place that the doubles within the bounds reach from both ends lies within the bounds**: there are
more of them than places before it, and more than places after it. -/
theorem between_of_count (hs : s.Pairwise fun x y => x.totalLE y = true) (hi' : i < s.length)
    (hbefore : i < s.countP fun x => x.within lo hi)
    (hafter : s.length < (s.countP fun x => x.within lo hi) + (i + 1)) : Between lo hi s[i] := by
  have hsplit : ∀ n, s.countP (fun x => x.within lo hi) =
      (s.take n).countP (fun x => x.within lo hi) + (s.drop n).countP fun x => x.within lo hi :=
    fun n => by rw [← List.countP_append, List.take_append_drop]
  rcases Binary64.between_cases lo hi s[i] with h | hbelow | habove
  · exact h
  · -- then nothing up to the place lies within the bounds
    have hnone : ((s.take (i + 1)).countP fun x => x.within lo hi) = 0 := by
      rw [List.countP_eq_zero]
      intro x hx hwithin
      obtain ⟨j, hj, rfl⟩ := List.mem_iff_getElem.mp hx
      rw [List.length_take] at hj
      rw [List.getElem_take] at hwithin
      have hle := totalRank_getElem_le hs (show j ≤ i by omega) hi'
      have hlt := hbelow _ (Binary64.within_iff.mp hwithin)
      omega
    have hrest := List.countP_le_length (p := fun x => x.within lo hi) (l := s.drop (i + 1))
    rw [List.length_drop] at hrest
    have := hsplit (i + 1)
    omega
  · -- then nothing from the place on does
    have hnone : ((s.drop i).countP fun x => x.within lo hi) = 0 := by
      rw [List.countP_eq_zero]
      intro x hx hwithin
      obtain ⟨j, hj, rfl⟩ := List.mem_iff_getElem.mp hx
      rw [List.length_drop] at hj
      rw [List.getElem_drop] at hwithin
      have hle := totalRank_getElem_le hs (Nat.le_add_right i j) (by omega)
      have hlt := habove _ (Binary64.within_iff.mp hwithin)
      omega
    have hrest := List.countP_le_length (p := fun x => x.within lo hi) (l := s.take i)
    rw [List.length_take] at hrest
    have := hsplit i
    omega

/-! ## 3. The median -/

/-- **The median lies within the bounds of a majority**, if the bounds can be doubled without
overflow. -/
theorem medianOf_of_majority (hlo : (lo + lo).isFinite = true) (hhi : (hi + hi).isFinite = true)
    (hmajority : xs.length < 2 * xs.countP fun x => x.within lo hi) :
    Between lo hi (medianOf xs) := by
  have hlength := (sorted_perm_self xs).length_eq
  have hcount := (sorted_perm_self xs).countP_eq fun x => x.within lo hi
  have hmost := List.countP_le_length (p := fun x => x.within lo hi) (l := xs)
  have hplace : ∀ i, 2 * i ≤ xs.length → xs.length ≤ 2 * (i + 1) →
      Between lo hi ((sorted xs).getD i default) := by
    intro i hlow hhigh
    have hi' : i < (sorted xs).length := by omega
    rw [List.getD_eq_getElem _ _ hi']
    exact between_of_count (pairwise_sorted xs) hi' (by omega) (by omega)
  unfold medianOf
  simp only [hlength]
  split
  · exact Binary64.half_between hlo hhi (hplace _ (by omega) (by omega))
      (hplace _ (by omega) (by omega))
  · exact hplace _ (by omega) (by omega)

end Statistics

end Barogrid
