import Mathlib
import Barogrid.Statistics

/-!
# The median

The median looks at the values in their total order, and a list has only one such arrangement: no two
doubles share a place in the total order, not even the two zeros.  So the median is one of the values,
not of the list of them (`medianOf_perm`).
-/

namespace Barogrid.Statistics

variable {xs ys : List Binary64}

theorem sorted_perm_self (xs : List Binary64) : (sorted xs).Perm xs := List.mergeSort_perm xs _

theorem pairwise_sorted (xs : List Binary64) :
    (sorted xs).Pairwise fun x y => x.totalLE y = true :=
  List.pairwise_mergeSort Binary64.totalLE_trans Binary64.totalLE_total xs

/-- **There is one sorted arrangement.** -/
theorem sorted_perm (h : xs.Perm ys) : sorted xs = sorted ys := by
  have hperm : (sorted xs).Perm (sorted ys) :=
    (sorted_perm_self xs).trans (h.trans (sorted_perm_self ys).symm)
  refine hperm.eq_of_pairwise (fun x y _ _ hxy hyx => ?_) (pairwise_sorted xs) (pairwise_sorted ys)
  simp only [Binary64.totalLE, decide_eq_true_eq] at hxy hyx
  exact Binary64.totalRank_injective (le_antisymm hxy hyx)

/-- **The median does not depend on the order of the values.** -/
theorem medianOf_perm (h : xs.Perm ys) : medianOf xs = medianOf ys := by
  unfold medianOf
  rw [sorted_perm h]

end Barogrid.Statistics
