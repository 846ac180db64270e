import Mathlib
import Barogrid.Proofs.Box.Center
import Barogrid.Proofs.Geohash.Partition

/-!
# Clamping a box

A box that is asked for is moved onto the globe edge by edge.  No place on the globe is passed by an edge that
moves, so that what the box contains stays in it as long as it wraps around after clamping just as it did
before.  Where a box that wraps around has both its edges in longitude beyond the same end of the globe,
however, the two become one: the box went around the whole globe, and what is left of it is a line.

* `clamped_wraps_iff` -- **clamping undoes the wrapping of a box that collapses, and of no other**;
* `contains_clamped` -- what such another box contains stays in it;
* `Collapses.contains_iff`, `Collapses.clamped_contains_iff` -- what a box that collapses contains before
  and after;
* `clamping_hides_by_collapse` -- **clamping hides places only of a box that collapses**, and of this all
  but those on the line that is left.

Edges may be infinite or NaNs throughout.
-/

namespace Barogrid

open Binary64

namespace Box

variable {b : Box} {x y : Binary64}

/-! ## 1. Boxes that keep their shape -/

/-- The box wraps around, and both its edges in longitude lie at or beyond the same end of the globe. -/
def Collapses (b : Box) : Prop := b.wraps = true ∧ (180 ≤ b.east ∨ b.west ≤ -180)

instance (b : Box) : Decidable b.Collapses := inferInstanceAs (Decidable (_ ∧ (_ ∨ _)))

/-- **Clamping undoes the wrapping of a box that collapses, and of no other.** -/
theorem clamped_wraps_iff : b.clamped.wraps = true ↔ b.wraps = true ∧ ¬ b.Collapses := by
  have hclamped : b.clamped.wraps = true ↔ b.east < b.west ∧ ¬ (180 ≤ b.east ∨ b.west ≤ -180) :=
    wraps_iff.trans (clamp_lt_clamp_iff (by decide))
  rw [hclamped, ← wraps_iff, Collapses]
  constructor
  · intro ⟨hwraps, hends⟩
    exact ⟨hwraps, fun hcollapses => hends hcollapses.2⟩
  · intro ⟨hwraps, hcollapses⟩
    exact ⟨hwraps, fun hends => hcollapses ⟨hwraps, hends⟩⟩

theorem collapses_iff : b.Collapses ↔ b.wraps = true ∧ b.clamped.wraps = false := by
  rw [← Bool.not_eq_true, clamped_wraps_iff]
  constructor
  · intro hc
    exact ⟨hc.1, fun hkept => hkept.2 hc⟩
  · intro ⟨hwraps, hundone⟩
    exact not_not.mp fun hc => hundone ⟨hwraps, hc⟩

/-- A latitude on the globe does not get out of range. -/
theorem latitude_clamped (hy : Between (-90) 90 y) (hin : ¬ (y < b.south ∨ b.north < y)) :
    ¬ (y < b.clamped.south ∨ b.clamped.north < y) := by
  intro hout
  cases hout with
  | inl hsouth => exact hin (Or.inl (lt_of_lt_clamp hsouth hy))
  | inr hnorth => exact hin (Or.inr (lt_of_clamp_lt hnorth hy))

/-- **What a box contains stays in it, unless it collapses.** -/
theorem contains_clamped (hc : ¬ b.Collapses) (hx : Between (-180) 180 x) (hy : Between (-90) 90 y)
    (hin : b.contains x y = true) : b.clamped.contains x y = true := by
  obtain ⟨hlatitude, hlongitude⟩ := contains_iff.mp hin
  refine contains_iff.mpr ⟨latitude_clamped hy hlatitude, ?_⟩
  by_cases hwraps : b.wraps = true
  · rw [if_pos hwraps] at hlongitude
    rw [if_pos (clamped_wraps_iff.mpr ⟨hwraps, hc⟩)]
    cases hlongitude with
    | inl hwest => exact Or.inl (clamp_le hwest hx)
    | inr heast => exact Or.inr (le_clamp heast hx)
  · rw [if_neg hwraps] at hlongitude
    rw [if_neg fun hclamped => hwraps (clamped_wraps_iff.mp hclamped).1]
    exact ⟨clamp_le hlongitude.1 hx, le_clamp hlongitude.2 hx⟩

/-! ## 2. Boxes that collapse -/

namespace Collapses

/-- Both edges in longitude become the same end of the globe. -/
theorem edges (hc : b.Collapses) : b.clamped.east = b.clamped.west ∧
    (b.clamped.west = 180 ∨ b.clamped.west = -180) := by
  obtain ⟨hwraps, hends⟩ := hc
  obtain ⟨heast, hwest, hrank⟩ := lt_iff.mp (wraps_iff.mp hwraps)
  have hglobe : (-180 : Binary64) ≤ 180 := by decide
  cases hends with
  | inl hbeyond =>
    have hle := (le_iff.mp hbeyond).2.2
    have hwestEnd : b.clamped.west = 180 := clamp_eq_hi hglobe (by decide) hwest (by omega)
    have heastEnd : b.clamped.east = 180 := clamp_eq_hi hglobe (by decide) heast hle
    exact ⟨heastEnd.trans hwestEnd.symm, Or.inl hwestEnd⟩
  | inr hbeyond =>
    have hle := (le_iff.mp hbeyond).2.2
    have hwestEnd : b.clamped.west = -180 := clamp_eq_lo hglobe (by decide) hwest hle
    have heastEnd : b.clamped.east = -180 := clamp_eq_lo hglobe (by decide) heast (by omega)
    exact ⟨heastEnd.trans hwestEnd.symm, Or.inr hwestEnd⟩

/-- Before clamping the box goes around the whole globe, -/
theorem contains_iff (hc : b.Collapses) (hx : Between (-180) 180 x) :
    b.contains x y = true ↔ ¬ (y < b.south ∨ b.north < y) := by
  rw [Box.contains_iff, if_pos hc.1]
  refine and_iff_left ?_
  cases hc.2 with
  | inl hbeyond => exact Or.inr (Binary64.le_trans hx.2 hbeyond)
  | inr hbeyond => exact Or.inl (Binary64.le_trans hbeyond hx.1)

/-- and after it the box is a line. -/
theorem clamped_contains_iff (hc : b.Collapses) : b.clamped.contains x y = true ↔
    ¬ (y < b.clamped.south ∨ b.clamped.north < y) ∧ x = b.clamped.west := by
  obtain ⟨hsame, hend⟩ := hc.edges
  have hwraps : ¬ b.clamped.wraps = true := fun h => (clamped_wraps_iff.mp h).2 hc
  -- the end is not one of the zeros, so that no other double stands at its place on the line
  have hline : b.clamped.west.isNaN = false ∧ b.clamped.west.rank ≠ 0 := by
    cases hend with
    | inl heast => rw [heast]; decide
    | inr hwest => rw [hwest]; decide
  rw [Box.contains_iff, if_neg hwraps, hsame]
  refine and_congr_right fun _ => ?_
  constructor
  · intro ⟨hlow, hhigh⟩
    exact eq_of_rank_eq (le_antisymm (le_iff.mp hhigh).2.2 (le_iff.mp hlow).2.2) hline.2
  · intro hx
    rw [hx]
    exact ⟨Binary64.le_self hline.1, Binary64.le_self hline.1⟩

end Collapses

/-! ## 3. What clamping hides -/

/-- **Clamping hides places only of a box that collapses**, that is of a box whose wrapping it undoes.  Such a
box goes around the whole globe before, and what is left of it is the line at one end of the globe. -/
theorem clamping_hides_by_collapse (b : Box) :
    (∀ p : Place, p.InRange → b.contains p.longitude p.latitude = true →
      (b.clamped.contains p.longitude p.latitude = true ↔
        (b.Collapses → p.longitude = b.clamped.west))) ∧
    (b.Collapses ↔ b.wraps = true ∧ b.clamped.wraps = false) ∧
    (b.Collapses → (b.clamped.west = 180 ∨ b.clamped.west = -180) ∧
      ∀ p : Place, p.InRange → (b.contains p.longitude p.latitude = true ↔
        ¬ (p.latitude < b.south ∨ b.north < p.latitude))) := by
  refine ⟨fun p hp hin => ?_, collapses_iff, fun hc => ⟨hc.edges.2, fun p hp => ?_⟩⟩
  · obtain ⟨hlatitude, hlongitude⟩ := hp
    by_cases hc : b.Collapses
    · rw [hc.clamped_contains_iff]
      have hstays := latitude_clamped hlatitude (Box.contains_iff.mp hin).1
      simp [hc, hstays]
    · have hstays := contains_clamped hc hlongitude hlatitude hin
      simp [hc, hstays]
  · exact hc.contains_iff hp.2

/-- From 200 degrees around the globe to 190 degrees. -/
def beyondTheEnd : Box := ⟨200, -10, 190, 10⟩

/-- From 170 degrees over the antimeridian; all edges but the western one lie beyond the globe. -/
def acrossTheEnd : Box := ⟨170, -95, -190, 95⟩

theorem origin_hidden :
    beyondTheEnd.Collapses ∧ beyondTheEnd.contains 0 0 = true ∧
    beyondTheEnd.clamped = ⟨180, -10, 180, 10⟩ ∧ beyondTheEnd.clamped.contains 0 0 = false ∧
    beyondTheEnd.clamped.contains 180 0 = true ∧
    ¬ acrossTheEnd.Collapses ∧ acrossTheEnd.clamped.contains 175 0 = true := by
  obtain ⟨hstays, -, hwhole⟩ := clamping_hides_by_collapse beyondTheEnd
  have hc : beyondTheEnd.Collapses := by decide
  have hkept : ¬ acrossTheEnd.Collapses := by decide
  have horigin : beyondTheEnd.contains 0 0 = true :=
    ((hwhole hc).2 ⟨0, 0⟩ (by decide)).mpr (by decide)
  refine ⟨hc, horigin, by decide, ?_, ?_, hkept, ?_⟩
  · rw [← Bool.not_eq_true]
    exact fun h => absurd ((hstays ⟨0, 0⟩ (by decide) horigin).mp h hc) (by decide)
  · exact (hstays ⟨0, 180⟩ (by decide) (by decide)).mpr fun _ => by decide
  · exact ((clamping_hides_by_collapse acrossTheEnd).1 ⟨0, 175⟩ (by decide) (by decide)).mpr
      fun hc => absurd hc hkept

end Box

end Barogrid
