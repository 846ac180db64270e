import Mathlib
import Barogrid.Geohash.Direction
import Barogrid.Proofs.Geohash.Partition

/-!
# Stepping to a neighbour

The step from the center of a cell by one width is computed on doubles, but center and width are
exact, so no NaN can arise, and what is held on the globe is a place on it.

* `IsCell.width` -- the width of a cell is exact;
* `target_onGlobe` -- **the place stepped to lies on the globe**;
* `Hash.adjacent_eq_ok_iff` -- the neighbour is the cell of the same length that owns this place;
* `Hash.adjacent_isOk` -- **every key of at most twelve digits has its four neighbours.**
-/

namespace Barogrid

/-! ## 1. Widths -/

/-- The width of a cell is exact. -/
theorem Interval.IsCell.width {x : Axis} {k i : Nat} {c : Interval} (h : c.IsCell x k i) :
    c.width.isFinite = true ∧ c.width.units = 90 * 2 ^ (x.scale - k) := by
  have hscale := x.scale_bounds
  refine (Binary64.sub_roundsTo h.hi_isFinite h.lo_isFinite).exact_of_short (i := 90) (by decide)
    (by omega) ?_
  rw [h.lo_units, h.hi_units, Axis.line_step]
  push_cast
  ring

/-- A place lies on the globe if it does so along each axis. -/
theorem Place.onGlobe_iff_along {p : Place} :
    p.onGlobe = true ↔
      ∀ x, (p.along x).within (Bounds.world.along x).lo (Bounds.world.along x).hi = true := by
  rw [Axis.forall_iff]
  show (p.latitude.within (-90) 90 && p.longitude.within (-180) 180) = true ↔ _
  rw [Bool.and_eq_true]
  exact Iff.rfl

namespace Geohash

/-! ## 2. The place stepped to -/

theorem Direction.target_along (d : Direction) (b : Bounds) (x : Axis) :
    (d.target b).along x =
      ((b.along x).mid + d.step.along x * (b.along x).width).clamp (Bounds.world.along x).lo
        (Bounds.world.along x).hi := by
  cases x <;> rfl

theorem Direction.step_isFinite (d : Direction) (x : Axis) : (d.step.along x).isFinite = true := by
  cases d <;> cases x <;> decide

theorem world_lo_le_hi (x : Axis) : (Bounds.world.along x).lo ≤ (Bounds.world.along x).hi := by
  cases x <;> decide

/-- **The place stepped to lies on the globe.** -/
theorem target_onGlobe {h : Hash} (hlen : h.length ≤ maxLength) (d : Direction) :
    (d.target h.bounds).onGlobe = true := by
  rw [Place.onGlobe_iff_along]
  intro x
  obtain ⟨k, i, hk, hi⟩ := h.bounds_isCell hlen x
  have hcenter := (hi.mid hk).1
  have hstep := (Binary64.mul_roundsTo (d.step_isFinite x) hi.width.1).isNaN
  rw [Direction.target_along]
  exact Binary64.clamp_within (Binary64.add_isNaN hcenter hstep) (world_lo_le_hi x)

/-! ## 3. Neighbours -/

theorem Hash.length_pos (h : Hash) : 1 ≤ h.length := List.length_pos_iff.mpr h.nonempty

/-- The neighbour is the cell of the same length that owns the place stepped to. -/
theorem Hash.adjacent_eq_ok_iff {h k : Hash} (hlen : h.length ≤ maxLength) {d : Direction} :
    h.adjacent d = .ok k ↔ k.length = h.length ∧ k.bounds.Owns (d.target h.bounds) :=
  encode_eq_ok_iff (target_onGlobe hlen d) h.length_pos hlen

/-- **Every key of at most twelve digits has its four neighbours**, of the same length. -/
theorem Hash.adjacent_isOk {h : Hash} (hlen : h.length ≤ maxLength) (d : Direction) :
    ∃ k, h.adjacent d = .ok k ∧ k.length = h.length := by
  obtain ⟨k, hk, hsame, -⟩ := encode_isOk (target_onGlobe hlen d) h.length_pos hlen
  exact ⟨k, hk, hsame⟩

end Geohash

end Barogrid
