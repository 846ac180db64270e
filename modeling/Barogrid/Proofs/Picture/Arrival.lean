import Mathlib
import Barogrid.Proofs.Grid.Alike
import Barogrid.Proofs.Rendering

/-!
# The order of arrival does not show in the grid

Readings come in any order.  What of a picture rests on sums of doubles -- the mean and the standard
deviation of the summary, and through them the colors -- may depend on it in the last digits.  The grid
does not: which cells are drawn, where, with what values and which of them are filled in.

* `DrawnCell.Agree`, `Rendering.SameGrid` -- what two renderings have in common;
* `Rendering.grid_of_permuted` -- **permuted readings give the same grid**, and on the way there maps
  that differ in the order of the readings only.
-/

namespace Barogrid

/-- The cells agree on everything but the standing of the value among the readings. -/
structure DrawnCell.Agree (d d' : DrawnCell) : Prop where
  key : d.key = d'.key
  bounds : d.bounds = d'.bounds
  average : d.average = d'.average
  isFilled : d.isFilled = d'.isFilled

/-- The same grid: cells that agree, place by place, and the same counts. -/
structure Rendering.SameGrid (r r' : Rendering) : Prop where
  keyLength : r.keyLength = r'.keyLength
  visible : r.visible = r'.visible
  filled : r.filled = r'.filled
  cells : List.Forall₂ DrawnCell.Agree r.picture.cells r'.picture.cells

theorem Rendering.SameGrid.refl (r : Rendering) : r.SameGrid r :=
  ⟨rfl, rfl, rfl, List.forall₂_same.mpr fun _ _ => ⟨rfl, rfl, rfl, rfl⟩⟩

section

variable [Exponential] {s : Settings} {gradient gradient' : Gradient}
  {summary summary' : Statistics.Summary} {opacity : Binary64}

/-- Cells that are alike are drawn so as to agree, whatever the summary is. -/
theorem Choropleth.draw_agree {c c' : Cell} (h : c.Alike c') :
    (draw summary gradient opacity c).Agree (draw summary' gradient' opacity c') :=
  ⟨h.key, h.bounds, h.average, h.isFilled⟩

namespace Rendering

variable {r r' : Rendering} {seen seen' readings readings' : List Reading} {m m' : CellMap}
  {counts counts' : List Nat} {v : Viewport}

/-- Stages that begin with permuted readings end in the same grid. -/
theorem Stages.sameGrid (hseen : seen.Perm seen') (hlength : r.keyLength = r'.keyLength)
    (h : r.Stages seen s gradient m counts) (h' : r'.Stages seen' s gradient m' counts') :
    r.SameGrid r' := by
  obtain ⟨m'', hbinned, halike⟩ := Binning.bin_alike hseen h.binned
  rw [hlength, h'.binned] at hbinned
  obtain rfl := Except.ok.inj hbinned
  obtain ⟨hcells, hcreated⟩ := Filling.fill_alike halike s.passes
  have hcounts : counts = counts' := by
    have heq : (Except.ok counts : Except Failure (List Nat)) = .ok counts' :=
      h.created.symm.trans (hcreated.trans h'.created)
    exact Except.ok.inj heq
  refine ⟨hlength, ?_, ?_, ?_⟩
  · rw [h.visible, h'.visible, hseen.length_eq]
  · rw [h.filled, h'.filled, hcounts]
  · rw [h.picture, h'.picture]
    exact List.forall₂_map_left_iff.mpr (List.forall₂_map_right_iff.mpr
      (hcells.cells.imp fun _ _ hc => Choropleth.draw_agree hc))

theorem sameGrid_of_perm (h : readings.Perm readings') (hr : of readings v s gradient = .ok r)
    (hr' : of readings' v s gradient = .ok r') : r.SameGrid r' := by
  have hseen := Selection.visible_perm h v.box s
  obtain ⟨hkey, hcases⟩ := of_cases hr
  obtain ⟨hkey', hcases'⟩ := of_cases hr'
  have hlength : r.keyLength = r'.keyLength := Except.ok.inj (hkey.symm.trans hkey')
  rcases hcases with ⟨hnil, hblank⟩ | ⟨hne, m, counts, hstages⟩
  · rcases hcases' with ⟨-, hblank'⟩ | ⟨hne', -⟩
    · rw [hblank, hblank', hlength]
      exact SameGrid.refl _
    · exact absurd (List.perm_nil.mp (hnil ▸ hseen.symm)) hne'
  · rcases hcases' with ⟨hnil', -⟩ | ⟨-, m', counts', hstages'⟩
    · exact absurd (List.perm_nil.mp (hnil' ▸ hseen)) hne
    · exact Stages.sameGrid hseen hlength hstages hstages'

/-- **The grid does not depend on the order of the readings.**  Renderings of permuted readings have
the same grid -- if the zoom level has no key length or the passes are too many, both fail in the same
way --, and wherever readings can be binned, permuted ones are binned and filled into maps that differ in
the order of readings only. -/
theorem grid_of_permuted (hvalid : s.validate = .ok ()) (h : readings.Perm readings')
    (v : Viewport) (gradient : Gradient) :
    ((∃ r r', of readings v s gradient = .ok r ∧ of readings' v s gradient = .ok r' ∧
        r.SameGrid r') ∨
      ((¬ s.ZoomFits ∨ Overlong readings v s) ∧ ∃ f, of readings v s gradient = .error f ∧
        of readings' v s gradient = .error f)) ∧
    ∀ n passes m, Binning.bin readings n = .ok m → ∃ m', Binning.bin readings' n = .ok m' ∧
      m.Alike m' ∧ (Filling.fill m passes).cells.Alike (Filling.fill m' passes).cells ∧
      (Filling.fill m passes).created = (Filling.fill m' passes).created := by
  have hs := Settings.validate_eq_ok_iff.mp hvalid
  constructor
  · cases hkey : Resolution.keyLength v.zoom s with
    | ok n =>
      by_cases hlong : Overlong readings v s
      · exact Or.inr ⟨Or.inr hlong, _, of_overlong hs hkey hlong gradient,
          of_overlong hs hkey ((overlong_iff_of_perm h).mp hlong) gradient⟩
      · obtain ⟨r, hr, -⟩ := of_yields_of_keyLength hs hkey hlong gradient
        obtain ⟨r', hr', -⟩ :=
          of_yields_of_keyLength hs hkey (mt (overlong_iff_of_perm h).mpr hlong) gradient
        exact Or.inl ⟨r, r', hr, hr', sameGrid_of_perm h hr hr'⟩
    | error f =>
      refine Or.inr ⟨Or.inl fun hfits => ?_, f, of_eq_error hkey readings gradient,
        of_eq_error hkey readings' gradient⟩
      obtain ⟨n, hn⟩ := Resolution.exists_keyLength hs hfits v.zoom
      rw [hn] at hkey
      cases hkey
  · intro n passes m hm
    obtain ⟨m', hm', halike⟩ := Binning.bin_alike h hm
    exact ⟨m', hm', halike, Filling.fill_alike halike passes⟩

end Rendering

end

/-- Two readings in one cell, the one zero and the other negative zero, the other way round. -/
theorem Rendering.zeros_swapped :
    ({} : Settings).validate = .ok () ∧
    [(⟨⟨0.5, 10⟩, 0, 0⟩ : Reading), ⟨⟨0.5, 10⟩, -0, 1⟩].Perm
      [⟨⟨0.5, 10⟩, -0, 1⟩, ⟨⟨0.5, 10⟩, 0, 0⟩] ∧
    ∃ r r', @of Exponential.hardware [⟨⟨0.5, 10⟩, 0, 0⟩, ⟨⟨0.5, 10⟩, -0, 1⟩] ⟨.globe, 3⟩ {}
        .standard = .ok r ∧
      @of Exponential.hardware [⟨⟨0.5, 10⟩, -0, 1⟩, ⟨⟨0.5, 10⟩, 0, 0⟩] ⟨.globe, 3⟩ {}
        .standard = .ok r' ∧ r.SameGrid r' := by
  have hvalid : ({} : Settings).validate = .ok () := by rfl
  have hperm : [(⟨⟨0.5, 10⟩, 0, 0⟩ : Reading), ⟨⟨0.5, 10⟩, -0, 1⟩].Perm
      [⟨⟨0.5, 10⟩, -0, 1⟩, ⟨⟨0.5, 10⟩, 0, 0⟩] := List.Perm.swap _ _ _
  refine ⟨hvalid, hperm, ?_⟩
  obtain ⟨hresult | ⟨hwide | hlong, -⟩, -⟩ := @grid_of_permuted Exponential.hardware {} _ _ hvalid
    hperm ⟨.globe, 3⟩ .standard
  · exact hresult
  · exact absurd (by rfl) hwide
  · exact absurd hlong (not_overlong_of_fits (by decide))

end Barogrid
