import Mathlib
import Barogrid.Proofs.Grid.Coverage
import Barogrid.Proofs.Grid.Simulation

/-!
# More cells cover more

With more keys a pass looks at more sites, and so fills some of its cells sooner and finds others
filled.  All that the pass over fewer keys looks at comes in the same order among them, though, and what
can be filled in the smaller map is there or can be filled in the larger one.

* `look_mono` -- a look leaves at least as much where there was more;
* `foldl_look_mono` -- **so do looks with others between them**;
* `fill_mono` -- and all the passes, at each of which the sites of the smaller map are some of those of
  the larger one;
* `more_data_covers_more` -- **more cells and more passes never uncover a cell.**
-/

namespace Barogrid

open Geohash (Hash)

namespace Filling

variable {m m' : CellMap} {p p' : Progress} {key : Hash}

/-- Where there are more cells, enough of the neighbours still have a value. -/
theorem needed_le_surroundings_mono (h : m.keySet ⊆ m'.keySet)
    (hneeded : needed ≤ (surroundings m key).length) :
    needed ≤ (surroundings m' key).length := by
  obtain ⟨d₁, d₂, hne, h₁, h₂⟩ := needed_le_surroundings_iff.mp hneeded
  exact needed_le_surroundings_iff.mpr ⟨d₁, d₂, hne, h h₁, h h₂⟩

/-- **A look leaves at least as much where there was more**, whatever the values. -/
theorem look_mono (h : p.cells.keySet ⊆ p'.cells.keySet) (pass pass' : Nat) (site : Site) :
    (look pass p site).cells.keySet ⊆ (look pass' p' site).cells.keySet := by
  have hkept : p.cells.keySet ⊆ (look pass' p' site).cells.keySet :=
    h.trans (keySet_subset_of_keptBy (look_keeps pass' p' site))
  by_cases hready : Ready p.cells site.target
  · rw [look, if_pos hready]
    intro key hkey
    rcases (CellMap.contains_insert _ _ key).mp hkey with rfl | hkey
    · exact mem_look_of_needed (needed_le_surroundings_mono h hready.2)
    · exact hkept hkey
  · rw [look, if_neg hready]
    exact hkept

/-- **So do looks with others between them.** -/
theorem foldl_look_mono {looks looks' : List Site} (hlooks : looks.Sublist looks')
    (h : p.cells.keySet ⊆ p'.cells.keySet) (pass pass' : Nat) :
    (looks.foldl (look pass) p).cells.keySet ⊆ (looks'.foldl (look pass') p').cells.keySet := by
  induction hlooks generalizing p p' with
  | slnil => exact h
  | cons site _ ih => exact ih (h.trans (keySet_subset_of_keptBy (look_keeps pass' p' site)))
  | cons_cons site _ ih => exact ih (look_mono h pass pass' site)

theorem sites_sublist (h : m.keySet ⊆ m'.keySet) : (sites m).Sublist (sites m') :=
  (CellMap.keys_sublist fun _ hkey => h hkey).flatMap _

/-- As many passes leave at least as much. -/
theorem fill_mono (hm : Short m) (hm' : Short m') (h : m.keySet ⊆ m'.keySet) (k : Nat) :
    (fill m k).cells.keySet ⊆ (fill m' k).cells.keySet := by
  induction k with
  | zero => exact h
  | succ k ih =>
    rw [fill_cells_succ hm, fill_cells_succ hm']
    exact foldl_look_mono (sites_sublist ih) ih k k

/-- **More cells and more passes never uncover a cell**, whatever the values: a key that is there after
`j` passes over `m` is there after `k` passes over `m'`, and neither filling fails, unless its passes are
too many for a report. -/
theorem more_data_covers_more (hm' : Short m') (h : m.keySet ⊆ m'.keySet) {j k : Nat} (hjk : j ≤ k) :
    (j ≤ longestReport → ∃ created, (fill m j).created = .ok created) ∧
      (k ≤ longestReport → ∃ created, (fill m' k).created = .ok created) ∧
      (fill m j).cells.keySet ⊆ (fill m' k).cells.keySet := by
  have hm : Short m := fun key hkey => hm' key (h hkey)
  refine ⟨fun hfits => ?_, fun hfits => ?_,
    (fill_mono hm hm' h j).trans (keySet_subset_of_keptBy (fill_keptBy hm' hjk))⟩
  · obtain ⟨created, hcreated, -⟩ := fill_isOk hm hfits
    exact ⟨created, hcreated⟩
  · obtain ⟨created, hcreated, -⟩ := fill_isOk hm' hfits
    exact ⟨created, hcreated⟩

/-- Two cells of `diagonal`, with other values. -/
def shortDiagonal : CellMap :=
  .ofList ([("0", 1500), ("3", 0)].filterMap fun (key, value) =>
    (Cell.readFilled key value 0).toOption)

/-- After a pass the two cells have got two neighbors.  These are there as well after two passes over
three cells on the diagonal. -/
theorem covers_more_diagonal :
    Short diagonal ∧ shortDiagonal.keySet ⊆ diagonal.keySet ∧ 1 ≤ 2 ∧
      (fill shortDiagonal 1).created = .ok [2] ∧
      (fill shortDiagonal 1).cells.keySet ⊆ (fill diagonal 2).cells.keySet := by
  have hshort : Short diagonal := uniform_short diagonal_uniform (by decide)
  have hkeys : ∀ key ∈ shortDiagonal.keys, diagonal.contains key = true := by decide +kernel
  have hsubset : shortDiagonal.keySet ⊆ diagonal.keySet :=
    fun key hkey => hkeys key (CellMap.mem_keys.mpr hkey)
  obtain ⟨-, -, hcovers⟩ := more_data_covers_more hshort hsubset (by decide : 1 ≤ 2)
  exact ⟨hshort, hsubset, by decide, by decide +kernel, hcovers⟩

end Filling

end Barogrid
