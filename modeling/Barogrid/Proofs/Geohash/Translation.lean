import Mathlib
import Barogrid.Proofs.Geohash.Neighbor

/-!
# A neighbour is a translation of the raster

A key of `n` digits is a cell of one level of the raster, and a step in a direction moves its index
along one axis by one, but not over the edge of the globe.

* `Hash.At` -- which cell of the raster a key names, along an axis; `Hash.eq_of_at`: this names it
  completely, so that different keys of one length name cells that lie apart (`Hash.apart`);
* `Hash.adjacent_at` -- **a step is a clamped translation by one cell**: the center is stepped over
  an edge exactly, and only one cell owns the place reached;
* `adjacent_eq_self_iff`, `adjacent_opposite`, `direction_unique` -- what follows for the way back
  and for two directions at once;
* `adjacent_translates` -- what it means for the bounds as doubles and for texts.

Bounds are compared as doubles, so it has to be known that no end is the negative zero
(`Interval.ZerosPositive`); this is the only value with two doubles.
-/

namespace Barogrid

/-! ## 1. Ends that are zero -/

/-- No end is the negative zero. -/
def Interval.ZerosPositive (c : Interval) : Prop :=
  c.lo ≠ Binary64.zero true ∧ c.hi ≠ Binary64.zero true

namespace Interval.IsCell

variable {x : Axis} {k i j : Nat} {c c' : Interval}

theorem mid_ne_zero (h : c.IsCell x k i) (hk : k < finestLevel) : c.mid ≠ Binary64.zero true := by
  by_cases h0 : c.mid.units = 0
  · have hsum := h.two_mul_mid_units hk
    have hlt := x.line_lt k i
    rw [← h.lo_units, ← h.hi_units] at hlt
    have hcancel : c.lo + c.hi = Binary64.zero false :=
      Binary64.add_eq_zero h.lo_isFinite h.hi_isFinite (by omega) (by omega)
    show (c.lo + c.hi).half ≠ _
    rw [hcancel]
    decide
  · intro e
    exact h0 (e ▸ rfl)

theorem half_zerosPositive (h : c.IsCell x k i) (hk : k < finestLevel) (hc : c.ZerosPositive)
    (upper : Bool) : (c.half upper).ZerosPositive := by
  have hmid := h.mid_ne_zero hk
  cases upper with
  | false => exact ⟨hc.1, hmid⟩
  | true => exact ⟨hmid, hc.2⟩

/-- Two cells in one place of the raster are the same doubles. -/
theorem eq (h : c.IsCell x k i) (h' : c'.IsCell x k i) (hc : c.ZerosPositive)
    (hc' : c'.ZerosPositive) : c = c' := by
  have hlo := Binary64.eq_of_units_eq (h.lo_units.trans h'.lo_units.symm) hc.1 hc'.1
  have hhi := Binary64.eq_of_units_eq (h.hi_units.trans h'.hi_units.symm) hc.2 hc'.2
  cases c
  cases c'
  cases hlo
  cases hhi
  rfl

theorem index_unique (h : c.IsCell x k i) (h' : c.IsCell x k j) : i = j :=
  (x.line_strictMono k).injective (h.lo_units.symm.trans h'.lo_units)

end Interval.IsCell

theorem Bounds.eq_of_along {b b' : Bounds} (h : ∀ x, b.along x = b'.along x) : b = b' := by
  have hlat : b.latitude = b'.latitude := h .latitude
  have hlon : b.longitude = b'.longitude := h .longitude
  cases b
  cases b'
  cases hlat
  cases hlon
  rfl

/-- One lies beyond the other along an axis, so that they have at most an edge in common. -/
def Bounds.Apart (b b' : Bounds) : Prop :=
  ∃ x, (b.along x).hi ≤ (b'.along x).lo ∨ (b'.along x).hi ≤ (b.along x).lo

theorem world_zerosPositive (x : Axis) : (Bounds.world.along x).ZerosPositive := by
  cases x <;> exact ⟨by decide, by decide⟩

namespace Geohash

theorem follow_zerosPositive {as : List Bool} {first : Axis} {b : Bounds} {level : Axis → Nat}
    (h : b.OnGrid level) (hk : ∀ x, level x + halvings first x as.length ≤ finestLevel)
    (hb : ∀ x, (b.along x).ZerosPositive) (x : Axis) :
    ((follow as first b).along x).ZerosPositive := by
  induction as generalizing first b level with
  | nil => exact hb x
  | cons a as ih =>
    have hfirst : level first < finestLevel := by
      have := hk first
      rw [List.length_cons, halvings, if_pos rfl] at this
      omega
    refine ih (h.half hfirst a) (fun y => ?_) fun y => ?_
    · rw [update_add_halvings]
      exact hk y
    · rcases y.eq_or_eq_other first with rfl | rfl
      · obtain ⟨i, hi⟩ := h y
        rw [Bounds.along_half]
        exact hi.half_zerosPositive hfirst (hb y) a
      · rw [Bounds.along_half_other]
        exact hb first.other

/-! ## 2. The place of a key on the raster -/

/-- How often an axis is halved for a key of `n` digits. -/
def level (n : Nat) (x : Axis) : Nat := halvings .longitude x (5 * n)

theorem level_lt {n : Nat} (hn : n ≤ maxLength) (x : Axis) : level n x < finestLevel :=
  halvings_lt_finestLevel (by unfold maxLength at hn; omega) x

namespace Hash

variable {h k : Hash} {x : Axis} {i j : Nat}

/-- Along an axis the cell of the key is the one with index `i`. -/
def At (h : Hash) (x : Axis) (i : Nat) : Prop := (h.bounds.along x).IsCell x (level h.length x) i

theorem exists_at (hlen : h.length ≤ maxLength) (x : Axis) : ∃ i, h.At x i := by
  have hgrid := follow_world_onGrid (h.length_answers_le hlen) x
  rw [h.length_answers] at hgrid
  exact hgrid

theorem bounds_zerosPositive (hlen : h.length ≤ maxLength) (x : Axis) :
    (h.bounds.along x).ZerosPositive := by
  refine follow_zerosPositive world_onGrid (fun y => ?_) world_zerosPositive x
  rw [Nat.zero_add]
  exact (halvings_lt_finestLevel (h.length_answers_le hlen) y).le

/-- **Keys of one length with one place on the raster are one key.** -/
theorem eq_of_at (hlen : h.length ≤ maxLength) (hsame : k.length = h.length)
    (hat : ∀ x, ∃ i, h.At x i ∧ k.At x i) : k = h := by
  have hlen' : k.length ≤ maxLength := hsame.le.trans hlen
  have hbounds : k.bounds = h.bounds := Bounds.eq_of_along fun x => by
    obtain ⟨i, hi, hi'⟩ := hat x
    unfold At at hi'
    rw [hsame] at hi'
    exact hi'.eq hi (bounds_zerosPositive hlen' x) (bounds_zerosPositive hlen x)
  obtain ⟨hglobe, howns⟩ := h.center_owned hlen
  have hk := (encode_eq_ok_iff hglobe h.length_pos hlen).mpr ⟨hsame, hbounds.symm ▸ howns⟩
  have hh := (encode_eq_ok_iff hglobe h.length_pos hlen).mpr ⟨rfl, howns⟩
  exact Except.ok.inj (hk.symm.trans hh)

/-- **Cells of different keys of one length lie apart.** -/
theorem apart (hlen : h.length ≤ maxLength) (hsame : k.length = h.length) (hne : k ≠ h) :
    h.bounds.Apart k.bounds := by
  by_contra hnot
  refine hne (eq_of_at hlen hsame fun x => ?_)
  obtain ⟨i, hi⟩ := exists_at hlen x
  obtain ⟨j, hj⟩ := exists_at (hsame.le.trans hlen) x
  have hj' : (k.bounds.along x).IsCell x (level h.length x) j := hsame ▸ hj
  have hmono := x.line_strictMono (level h.length x)
  have hupper : ¬ i + 1 ≤ j := by
    intro hij
    refine hnot ⟨x, Or.inl ?_⟩
    rw [Binary64.le_iff_units_le hi.hi_isFinite hj'.lo_isFinite, hi.hi_units, hj'.lo_units]
    exact hmono.monotone hij
  have hlower : ¬ j + 1 ≤ i := by
    intro hji
    refine hnot ⟨x, Or.inr ?_⟩
    rw [Binary64.le_iff_units_le hj'.hi_isFinite hi.lo_isFinite, hj'.hi_units, hi.lo_units]
    exact hmono.monotone hji
  obtain rfl : i = j := by omega
  exact ⟨i, hi, hj⟩

end Hash

/-! ## 3. Which cell owns a place -/

end Geohash

/-- From the middle of a cell to that of the next it is one width. -/
theorem Axis.line_next_middle {x : Axis} {k : Nat} (hk : k < finestLevel) (i : Nat) :
    x.line (k + 1) (2 * (i + 1) + 1) = x.line (k + 1) (2 * i + 1) + 90 * 2 ^ (x.scale - k) := by
  unfold line
  rw [pow_sub_succ hk]
  push_cast
  ring

/-- One width below the first middle lies nothing of the globe. -/
theorem Axis.line_below_first {x : Axis} {k : Nat} (hk : k < finestLevel) :
    x.line (k + 1) 1 - 90 * 2 ^ (x.scale - k) ≤ x.line 0 0 := by
  have hlt := x.line_lt (k + 1) 1
  have hstep := x.line_step k 0
  have hdouble : x.line (k + 1) (1 + 1) = x.line k (0 + 1) := line_double hk 1
  have hfirst := (Interval.IsCell.line_ends (x := x) hk.le).1
  omega

/-- One width above the last middle lies nothing of the globe. -/
theorem Axis.line_above_last {x : Axis} {k i : Nat} (hk : k < finestLevel) (hi : i + 1 = 2 ^ k) :
    x.line 0 1 ≤ x.line (k + 1) (2 * i + 1) + 90 * 2 ^ (x.scale - k) := by
  have hlt := x.line_lt (k + 1) (2 * (i + 1))
  have hlast := (Interval.IsCell.line_ends (x := x) hk.le).2
  rw [← hi, ← line_double hk] at hlast
  rw [← hlast, ← line_next_middle hk]
  exact hlt.le

namespace Interval.IsCell

variable {x : Axis} {k i j : Nat} {c : Interval} {p : Binary64}

/-- The middle of a cell is owned by no other cell of its level. -/
theorem index_of_owns_middle (h : c.IsCell x k i) (hk : k < finestLevel) (hp : p.isFinite = true)
    (hunits : p.units = x.line (k + 1) (2 * j + 1))
    (howns : c.Owns (Bounds.world.along x).lo p) : i = j := by
  have hmono := x.line_strictMono (k + 1)
  have hlo := h.lo_units.trans (Axis.line_double hk i).symm
  have hhi := h.hi_units.trans (Axis.line_double hk (i + 1)).symm
  rcases howns with ⟨hlt, hle⟩ | ⟨heq, -⟩
  · have hlt := (Binary64.lt_iff_units_lt h.lo_isFinite hp).mp hlt
    have hle := (Binary64.le_iff_units_le hp h.hi_isFinite).mp hle
    rw [hlo, hunits, hmono.lt_iff_lt] at hlt
    rw [hhi, hunits, hmono.le_iff_le] at hle
    omega
  · have hline := (congrArg Binary64.units heq.symm).trans hunits
    have := hmono.injective (hlo.symm.trans hline)
    omega

/-- The lower end of the axis is owned by the first cell. -/
theorem index_of_owns_first (h : c.IsCell x k i) (hk : k ≤ finestLevel)
    (howns : c.Owns (Bounds.world.along x).lo (Bounds.world.along x).lo) : i = 0 := by
  have hworld := world_isCell x
  have hfirst := hworld.lo_units.trans (line_ends hk).1.symm
  rcases howns with ⟨hlt, -⟩ | ⟨heq, -⟩
  · have hlt := (Binary64.lt_iff_units_lt h.lo_isFinite hworld.lo_isFinite).mp hlt
    rw [h.lo_units, hfirst, (x.line_strictMono k).lt_iff_lt] at hlt
    omega
  · have hline := (congrArg Binary64.units heq).symm.trans hfirst
    exact (x.line_strictMono k).injective (h.lo_units.symm.trans hline)

/-- The upper end of the axis is owned by the last cell. -/
theorem index_of_owns_last (h : c.IsCell x k i) (hk : k ≤ finestLevel)
    (howns : c.Owns (Bounds.world.along x).lo (Bounds.world.along x).hi) : i + 1 = 2 ^ k := by
  have hworld := world_isCell x
  have hlast := hworld.hi_units.trans (line_ends hk).2.symm
  have hindex := h.index_lt
  rcases howns with ⟨-, hle⟩ | ⟨heq, -⟩
  · have hle := (Binary64.le_iff_units_le hworld.hi_isFinite h.hi_isFinite).mp hle
    rw [h.hi_units, hlast, (x.line_strictMono k).le_iff_le] at hle
    omega
  · have hline := (congrArg Binary64.units heq).symm.trans hlast
    have := (x.line_strictMono k).injective (h.lo_units.symm.trans hline)
    omega

/-- A middle of the level is held on the globe where it is. -/
theorem clamp_middle (hk : k < finestLevel) (hj : j < 2 ^ k) (hp : p.isFinite = true)
    (hunits : p.units = x.line (k + 1) (2 * j + 1)) :
    p.clamp (Bounds.world.along x).lo (Bounds.world.along x).hi = p := by
  have hworld := world_isCell x
  obtain ⟨hfirst, hlast⟩ := line_ends (x := x) (k := k + 1) hk
  have hmono := (x.line_strictMono (k + 1)).monotone
  have hpow : 2 ^ (k + 1) = 2 ^ k * 2 := pow_succ 2 k
  have hlo : (Bounds.world.along x).lo ≤ p := by
    rw [Binary64.le_iff_units_le hworld.lo_isFinite hp, hworld.lo_units, hunits]
    exact hfirst ▸ hmono (Nat.zero_le _)
  have hhi : p ≤ (Bounds.world.along x).hi := by
    rw [Binary64.le_iff_units_le hp hworld.hi_isFinite, hworld.hi_units, hunits]
    exact hlast ▸ hmono (by omega)
  exact Binary64.clamp_eq_self (by simp [Binary64.within, hlo, hhi])

variable {v : ℚ}

/-- A place computed as the middle of a cell of the level is owned by this cell. -/
theorem index_of_lands (h : c.IsCell x k i) (hk : k < finestLevel) (hj : j < 2 ^ k)
    (hp : Binary64.RoundsTo v p) (hv : v = x.line (k + 1) (2 * j + 1))
    (howns : c.Owns (Bounds.world.along x).lo
      (p.clamp (Bounds.world.along x).lo (Bounds.world.along x).hi)) : i = j := by
  have hscale := x.scale_bounds
  have hpow : 2 ^ (k + 1) = 2 ^ k * 2 := pow_succ 2 k
  have hdigits := Axis.natAbs_digits_le (k := k + 1) (i := 2 * j + 1) hk (by omega)
  obtain ⟨hfinite, hunits⟩ := hp.exact_of_short hdigits (e := x.scale - (k + 1)) (by omega)
    (by rw [hv, Axis.line]; push_cast; rfl)
  rw [clamp_middle hk hj hfinite hunits] at howns
  exact h.index_of_owns_middle hk hfinite hunits howns

/-- A place computed beyond the lower end of the axis is owned by the first cell. -/
theorem index_of_lands_below (h : c.IsCell x k i) (hk : k ≤ finestLevel)
    (hp : Binary64.RoundsTo v p) (hv : v ≤ (Bounds.world.along x).lo.units)
    (howns : c.Owns (Bounds.world.along x).lo
      (p.clamp (Bounds.world.along x).lo (Bounds.world.along x).hi)) : i = 0 := by
  have hworld := world_isCell x
  have h0 : (Bounds.world.along x).lo.rank ≠ 0 := by cases x <;> decide
  rw [Binary64.clamp_eq_lo (Geohash.world_lo_le_hi x) h0 hp.isNaN
    (hp.rank_le hworld.lo_isFinite hv)] at howns
  exact h.index_of_owns_first hk howns

/-- A place computed beyond the upper end of the axis is owned by the last cell. -/
theorem index_of_lands_above (h : c.IsCell x k i) (hk : k ≤ finestLevel)
    (hp : Binary64.RoundsTo v p) (hv : (Bounds.world.along x).hi.units ≤ v)
    (howns : c.Owns (Bounds.world.along x).lo
      (p.clamp (Bounds.world.along x).lo (Bounds.world.along x).hi)) : i + 1 = 2 ^ k := by
  have hworld := world_isCell x
  have h0 : (Bounds.world.along x).hi.rank ≠ 0 := by cases x <;> decide
  rw [Binary64.clamp_eq_hi (Geohash.world_lo_le_hi x) h0 hp.isNaN
    (hp.le_rank hworld.hi_isFinite hv)] at howns
  exact h.index_of_owns_last hk howns

end Interval.IsCell

namespace Geohash

/-! ## 4. Steps -/

namespace Direction

/-- The axis that the direction runs along. -/
def axis : Direction → Axis
  | .top | .bottom => .latitude
  | .left | .right => .longitude

/-- Does the direction run towards greater coordinates? -/
def upward : Direction → Bool
  | .top | .right => true
  | .bottom | .left => false

/-- The cell that a step from the cell with index `i` leads to, on an axis of `n` cells. -/
def moved (d : Direction) (x : Axis) (n i : Nat) : Nat :=
  if x = d.axis then if d.upward then min (i + 1) (n - 1) else i - 1 else i

theorem moved_other {d : Direction} {x : Axis} (h : x ≠ d.axis) (n i : Nat) : d.moved x n i = i :=
  if_neg h

theorem moved_axis (d : Direction) (n i : Nat) :
    d.moved d.axis n i = if d.upward then min (i + 1) (n - 1) else i - 1 := if_pos rfl

theorem axis_opposite (d : Direction) : d.opposite.axis = d.axis := by cases d <;> rfl

theorem upward_opposite (d : Direction) : d.opposite.upward = !d.upward := by cases d <;> rfl

theorem eq_of_axis_of_upward {d d' : Direction} (haxis : d.axis = d'.axis)
    (hupward : d.upward = d'.upward) : d = d' := by
  cases d <;> cases d' <;> simp_all [axis, upward]

/-- The step along an axis, as a whole number. -/
def offset (d : Direction) (x : Axis) : Int :=
  if x = d.axis then if d.upward then 1 else -1 else 0

theorem step_units (d : Direction) (x : Axis) :
    (d.step.along x).units = d.offset x * 2 ^ Binary64.oneScale := by
  have hone := Binary64.one_units.2
  have hneg : (-1 : Binary64).units = -1 * 2 ^ Binary64.oneScale := by
    rw [Binary64.neg_units, hone, neg_one_mul]
  cases d <;> cases x <;>
    first
    | exact hneg
    | exact hone.trans (one_mul _).symm
    | exact (zero_mul _).symm

end Direction

/-- The center of a cell, stepped on by whole widths, is computed with one rounding at most. -/
theorem stepped_roundsTo {x : Axis} {k i : Nat} {c : Interval} (h : c.IsCell x k i)
    (hk : k < finestLevel) (d : Direction) :
    Binary64.RoundsTo (x.line (k + 1) (2 * i + 1) + d.offset x * (90 * 2 ^ (x.scale - k)))
      (c.mid + d.step.along x * c.width) := by
  have hscale := x.scale_bounds
  obtain ⟨hmid, hmidUnits⟩ := h.mid hk
  obtain ⟨hwidth, hwidthUnits⟩ := h.width
  have hone : (2 : ℚ) ^ Binary64.oneScale ≠ 0 := by positivity
  have hshort : (d.offset x * 90).natAbs ≤ 2 ^ 53 := by
    unfold Direction.offset
    split_ifs <;> decide
  obtain ⟨hfinite, hunits⟩ := (Binary64.mul_roundsTo (d.step_isFinite x) hwidth).exact_of_short
    hshort (e := x.scale - k) (by omega) (by
      rw [d.step_units, hwidthUnits]
      push_cast
      field_simp)
  have hsum := Binary64.add_roundsTo hmid hfinite
  rw [hmidUnits, hunits] at hsum
  convert hsum using 2
  push_cast
  ring

namespace Hash

variable {h k : Hash} {d : Direction} {x : Axis} {i : Nat}

/-- **A step to a neighbour is a clamped translation by one cell of the raster.** -/
theorem adjacent_at (hlen : h.length ≤ maxLength) (hadj : h.adjacent d = .ok k) (hi : h.At x i) :
    k.At x (d.moved x (2 ^ level h.length x) i) := by
  obtain ⟨hsame, howns⟩ := (adjacent_eq_ok_iff hlen).mp hadj
  have hlevel := level_lt hlen x
  obtain ⟨j, hj⟩ := k.exists_at (hsame.le.trans hlen) x
  have hcell : (k.bounds.along x).IsCell x (level h.length x) j := hsame ▸ hj
  have howns := Bounds.owns_iff_along.mp howns x
  rw [d.target_along] at howns
  have hround := stepped_roundsTo hi hlevel d
  have hindex := hi.index_lt
  suffices hmoved : j = d.moved x (2 ^ level h.length x) i from hmoved ▸ hj
  by_cases haxis : x = d.axis
  · subst haxis
    rw [Direction.moved_axis]
    unfold Direction.offset at hround
    rw [if_pos rfl] at hround
    have hworld := world_isCell d.axis
    cases hup : d.upward with
    | false =>
      simp only [hup, Bool.false_eq_true, ↓reduceIte] at hround ⊢
      cases i with
      | zero =>
        refine hcell.index_of_lands_below hlevel.le hround ?_ howns
        rw [hworld.lo_units, Int.cast_neg, Int.cast_one, neg_one_mul, ← sub_eq_add_neg]
        exact_mod_cast Axis.line_below_first hlevel
      | succ m =>
        refine hcell.index_of_lands hlevel (Nat.lt_of_succ_lt hindex) hround ?_ howns
        rw [Axis.line_next_middle hlevel]
        push_cast
        ring
    | true =>
      simp only [hup, ↓reduceIte] at hround ⊢
      rcases (Nat.succ_le_of_lt hindex).lt_or_eq with hnext | hlast
      · rw [min_eq_left (Nat.le_sub_one_of_lt hnext)]
        refine hcell.index_of_lands hlevel hnext hround ?_ howns
        rw [Axis.line_next_middle hlevel]
        push_cast
        ring
      · have hj : j + 1 = 2 ^ level h.length d.axis := by
          refine hcell.index_of_lands_above hlevel.le hround ?_ howns
          rw [hworld.hi_units, Int.cast_one, one_mul]
          exact_mod_cast Axis.line_above_last hlevel hlast
        rw [← hlast] at hj ⊢
        omega
  · rw [Direction.moved_other haxis]
    refine hcell.index_of_lands hlevel hindex hround ?_ howns
    unfold Direction.offset
    rw [if_neg haxis]
    push_cast
    ring

end Hash

/-! ## 5. The way back, and two directions at once -/

/-- A step that moves leads back in the opposite direction. -/
theorem Direction.moved_opposite {d : Direction} {x : Axis} {n i : Nat} (hi : i < n)
    (hmoves : d.moved d.axis n i ≠ i ∨ x ≠ d.axis) :
    d.opposite.moved x n (d.moved x n i) = i := by
  by_cases haxis : x = d.axis
  · subst haxis
    have hmoves := hmoves.resolve_right (fun h => h rfl)
    have hback := d.opposite.moved_axis n (d.moved d.axis n i)
    rw [d.axis_opposite, d.upward_opposite] at hback
    rw [hback]
    rw [d.moved_axis] at hmoves ⊢
    cases hup : d.upward <;> simp only [hup, Bool.not_true, Bool.not_false, Bool.false_eq_true,
      ↓reduceIte] at hmoves ⊢ <;> omega
  · rw [d.moved_other haxis, d.opposite.moved_other (by rwa [d.axis_opposite])]

namespace Hash

variable {h k : Hash} {d d' : Direction} {x : Axis} {i : Nat}

theorem adjacent_length (hlen : h.length ≤ maxLength) (hadj : h.adjacent d = .ok k) :
    k.length = h.length := ((adjacent_eq_ok_iff hlen).mp hadj).1

/-- **A cell is its own neighbour exactly where a step does not move.** -/
theorem adjacent_eq_self_iff (hlen : h.length ≤ maxLength) (hadj : h.adjacent d = .ok k)
    (hi : h.At d.axis i) : k = h ↔ d.moved d.axis (2 ^ level h.length d.axis) i = i := by
  constructor
  · rintro rfl
    exact (adjacent_at hlen hadj hi).index_unique hi
  · intro hstays
    refine eq_of_at hlen (adjacent_length hlen hadj) fun x => ?_
    obtain ⟨j, hj⟩ := h.exists_at hlen x
    have hk := adjacent_at hlen hadj hj
    by_cases haxis : x = d.axis
    · subst haxis
      obtain rfl := hi.index_unique hj
      exact ⟨i, hi, hstays ▸ hk⟩
    · rw [Direction.moved_other haxis] at hk
      exact ⟨j, hj, hk⟩

/-- **The way back**: apart from the cells that are their own neighbours, neighbours are mutual. -/
theorem adjacent_opposite (hlen : h.length ≤ maxLength) (hadj : h.adjacent d = .ok k)
    (hne : k ≠ h) : k.adjacent d.opposite = .ok h := by
  have hsame := adjacent_length hlen hadj
  have hlen' : k.length ≤ maxLength := hsame.le.trans hlen
  obtain ⟨h', hback, hsame'⟩ := k.adjacent_isOk hlen' d.opposite
  suffices heq : h' = h from heq ▸ hback
  refine eq_of_at hlen (hsame'.trans hsame) fun x => ?_
  obtain ⟨j, hj⟩ := h.exists_at hlen x
  have hreturn := adjacent_at hlen' hback (adjacent_at hlen hadj hj)
  rw [hsame, Direction.moved_opposite hj.index_lt] at hreturn
  · exact ⟨j, hj, hreturn⟩
  · by_cases haxis : x = d.axis
    · subst haxis
      exact Or.inl (mt (adjacent_eq_self_iff hlen hadj hj).mpr hne)
    · exact Or.inr haxis

/-- **Different directions lead to different cells**, but for cells that are their own neighbours. -/
theorem direction_unique (hlen : h.length ≤ maxLength) (hadj : h.adjacent d = .ok k)
    (hadj' : h.adjacent d' = .ok k) (hne : k ≠ h) : d = d' := by
  obtain ⟨i, hi⟩ := h.exists_at hlen d.axis
  have hmoves := mt (adjacent_eq_self_iff hlen hadj hi).mpr hne
  have heq := (adjacent_at hlen hadj hi).index_unique (adjacent_at hlen hadj' hi)
  by_cases haxis : d.axis = d'.axis
  · refine Direction.eq_of_axis_of_upward haxis ?_
    have hindex := hi.index_lt
    have hother := d'.moved_axis (2 ^ level h.length d.axis) i
    rw [← haxis] at hother
    rw [hother] at heq
    rw [d.moved_axis] at hmoves heq
    cases hup : d.upward <;> cases hup' : d'.upward <;>
      simp only [hup, hup', Bool.false_eq_true, ↓reduceIte] at hmoves heq ⊢ <;> omega
  · rw [Direction.moved_other haxis] at heq
    exact absurd heq hmoves

/-- Is `k` one of the neighbours of `h`? -/
def HasNeighbor (h k : Hash) : Prop := ∃ d, h.adjacent d = .ok k

/-- The neighbour as a function: a key that is too long is its own. -/
@[irreducible]
def next (h : Hash) (d : Direction) : Hash := (h.adjacent d).toOption.getD h

theorem next_of_adjacent (hadj : h.adjacent d = .ok k) : h.next d = k := by
  unfold next
  rw [hadj]
  rfl

theorem adjacent_eq_next (hlen : h.length ≤ maxLength) (d : Direction) :
    h.adjacent d = .ok (h.next d) := by
  obtain ⟨k, hadj, -⟩ := h.adjacent_isOk hlen d
  rw [next_of_adjacent hadj]
  exact hadj

theorem hasNeighbor_next (hlen : h.length ≤ maxLength) (d : Direction) : h.HasNeighbor (h.next d) :=
  ⟨d, adjacent_eq_next hlen d⟩

theorem HasNeighbor.exists_next (hnear : h.HasNeighbor k) : ∃ d, h.next d = k := by
  obtain ⟨d, hadj⟩ := hnear
  exact ⟨d, next_of_adjacent hadj⟩

theorem length_next (hlen : h.length ≤ maxLength) (d : Direction) :
    (h.next d).length = h.length := adjacent_length hlen (adjacent_eq_next hlen d)

theorem next_opposite (hlen : h.length ≤ maxLength) (hne : h.next d ≠ h) :
    (h.next d).next d.opposite = h := by
  have hadj := adjacent_eq_next hlen d
  exact next_of_adjacent (adjacent_opposite hlen hadj hne)

theorem next_injective (hlen : h.length ≤ maxLength) (heq : h.next d = h.next d')
    (hne : h.next d ≠ h) : d = d' := by
  have hadj := adjacent_eq_next hlen d
  have hadj' := adjacent_eq_next hlen d'
  rw [← heq] at hadj'
  exact direction_unique hlen hadj hadj' hne

end Hash

/-! ## 6. Bounds -/

/-- Does the cell lie at the edge of the globe, on the side of the direction? -/
def Direction.AtEdge (d : Direction) (b : Bounds) : Prop :=
  match d with
  | .top => b.latitude.hi = 90
  | .bottom => b.latitude.lo = -90
  | .left => b.longitude.lo = -180
  | .right => b.longitude.hi = 180

theorem Direction.atEdge_iff_along {d : Direction} {b : Bounds} :
    d.AtEdge b ↔ if d.upward then (b.along d.axis).hi = (Bounds.world.along d.axis).hi
      else (b.along d.axis).lo = (Bounds.world.along d.axis).lo := by
  cases d <;> exact Iff.rfl

end Geohash

/-- `c` lies above or below `b` by exactly one span of `b`, and the edge between them is one. -/
structure Interval.IsShift (upward : Bool) (b c : Interval) : Prop where
  isFinite : c.lo.isFinite = true ∧ c.hi.isFinite = true
  span : b.width.isFinite = true ∧ b.width.units = b.hi.units - b.lo.units
  lo_units : c.lo.units = b.lo.units + (if upward then 1 else -1) * b.width.units
  hi_units : c.hi.units = b.hi.units + (if upward then 1 else -1) * b.width.units
  shared : if upward then c.lo = b.hi else c.hi = b.lo

namespace Interval.IsCell

variable {x : Axis} {k i : Nat} {c c' : Interval}

theorem width_eq_sub (h : c.IsCell x k i) : c.width.units = c.hi.units - c.lo.units := by
  rw [h.width.2, h.hi_units, h.lo_units, Axis.line_step]
  ring

/-- The next cell is the shift upward. -/
theorem isShift_true (h : c.IsCell x k i) (h' : c'.IsCell x k (i + 1)) (hc : c.ZerosPositive)
    (hc' : c'.ZerosPositive) : c.IsShift true c' where
  isFinite := ⟨h'.lo_isFinite, h'.hi_isFinite⟩
  span := ⟨h.width.1, h.width_eq_sub⟩
  lo_units := by
    rw [h'.lo_units, h.lo_units, h.width.2, Axis.line_step]
    simp
  hi_units := by
    rw [h'.hi_units, h.hi_units, h.width.2, Axis.line_step]
    simp
  shared := Binary64.eq_of_units_eq (h'.lo_units.trans h.hi_units.symm) hc'.1 hc.2

/-- The cell before is the shift downward. -/
theorem isShift_false (h : c.IsCell x k (i + 1)) (h' : c'.IsCell x k i) (hc : c.ZerosPositive)
    (hc' : c'.ZerosPositive) : c.IsShift false c' where
  isFinite := ⟨h'.lo_isFinite, h'.hi_isFinite⟩
  span := ⟨h.width.1, h.width_eq_sub⟩
  lo_units := by
    rw [h'.lo_units, h.lo_units, h.width.2, Axis.line_step]
    simp
  hi_units := by
    rw [h'.hi_units, h.hi_units, h.width.2, x.line_step k (i + 1)]
    simp
  shared := Binary64.eq_of_units_eq (h'.hi_units.trans h.lo_units.symm) hc'.2 hc.1

/-- A cell reaches the upper end of the axis exactly when it is the last. -/
theorem hi_eq_iff (h : c.IsCell x k i) (hk : k ≤ finestLevel) (hc : c.ZerosPositive) :
    c.hi = (Bounds.world.along x).hi ↔ i + 1 = 2 ^ k := by
  have hworld := (world_isCell x).hi_units.trans (line_ends hk).2.symm
  rw [← (x.line_strictMono k).injective.eq_iff, ← h.hi_units, ← hworld]
  exact ⟨congrArg _, fun e => Binary64.eq_of_units_eq e hc.2 (world_zerosPositive x).2⟩

/-- A cell reaches the lower end of the axis exactly when it is the first. -/
theorem lo_eq_iff (h : c.IsCell x k i) (hk : k ≤ finestLevel) (hc : c.ZerosPositive) :
    c.lo = (Bounds.world.along x).lo ↔ i = 0 := by
  have hworld := (world_isCell x).lo_units.trans (line_ends hk).1.symm
  rw [← (x.line_strictMono k).injective.eq_iff, ← h.lo_units, ← hworld]
  exact ⟨congrArg _, fun e => Binary64.eq_of_units_eq e hc.1 (world_zerosPositive x).1⟩

end Interval.IsCell

namespace Geohash

namespace Hash

variable {h k : Hash} {d : Direction} {i : Nat}

theorem atEdge_iff_moved (hlen : h.length ≤ maxLength) (hi : h.At d.axis i) :
    d.AtEdge h.bounds ↔ d.moved d.axis (2 ^ level h.length d.axis) i = i := by
  have hlevel := (level_lt hlen d.axis).le
  have hzeros := h.bounds_zerosPositive hlen d.axis
  have hindex := hi.index_lt
  rw [Direction.atEdge_iff_along, d.moved_axis]
  cases d.upward with
  | false =>
    simp only [Bool.false_eq_true, ↓reduceIte, hi.lo_eq_iff hlevel hzeros]
    omega
  | true =>
    simp only [↓reduceIte, hi.hi_eq_iff hlevel hzeros]
    omega

/-- **At the edge a cell is its own neighbour.** -/
theorem adjacent_of_atEdge (hlen : h.length ≤ maxLength) (hadj : h.adjacent d = .ok k)
    (hedge : d.AtEdge h.bounds) : k = h := by
  obtain ⟨i, hi⟩ := h.exists_at hlen d.axis
  exact (adjacent_eq_self_iff hlen hadj hi).mpr ((atEdge_iff_moved hlen hi).mp hedge)

/-- **Elsewhere its neighbour is its shift by one span.** -/
theorem adjacent_isShift (hlen : h.length ≤ maxLength) (hadj : h.adjacent d = .ok k)
    (hedge : ¬ d.AtEdge h.bounds) :
    k.bounds.along d.axis.other = h.bounds.along d.axis.other ∧
      (h.bounds.along d.axis).IsShift d.upward (k.bounds.along d.axis) := by
  have hsame := adjacent_length hlen hadj
  have hlen' : k.length ≤ maxLength := hsame.le.trans hlen
  have hzeros := h.bounds_zerosPositive hlen
  have hzeros' := k.bounds_zerosPositive hlen'
  have hat : ∀ {x i}, h.At x i → (k.bounds.along x).IsCell x (level h.length x)
      (d.moved x (2 ^ level h.length x) i) := by
    intro x i hi
    have hk := adjacent_at hlen hadj hi
    unfold At at hk
    rw [hsame] at hk
    exact hk
  constructor
  · obtain ⟨j, hj⟩ := h.exists_at hlen d.axis.other
    have hk := hat hj
    rw [Direction.moved_other d.axis.other_ne] at hk
    exact hk.eq hj (hzeros' _) (hzeros _)
  · obtain ⟨i, hi⟩ := h.exists_at hlen d.axis
    have hmoves := mt (atEdge_iff_moved hlen hi).mpr hedge
    have hk := hat hi
    rw [Direction.moved_axis] at hmoves hk
    cases hup : d.upward with
    | false =>
      simp only [hup, Bool.false_eq_true, ↓reduceIte] at hmoves hk
      obtain ⟨j, rfl⟩ : ∃ j, i = j + 1 := ⟨i - 1, by omega⟩
      exact Interval.IsCell.isShift_false hi hk (hzeros _) (hzeros' _)
    | true =>
      simp only [hup, ↓reduceIte] at hmoves hk
      rw [min_eq_left (by have := hi.index_lt; omega)] at hk
      exact Interval.IsCell.isShift_true hi hk (hzeros _) (hzeros' _)

end Hash

/-! ## 7. Texts -/

theorem adjacent_of_parse {s : String} {r : Except Fault Hash} (h : Hash.parse s = r)
    (d : Direction) : adjacent s d = r >>= fun k => k.adjacent d := by
  rw [← h]
  rfl

theorem Hash.adjacent_of_long {h : Hash} (hlen : maxLength < h.length) (d : Direction) :
    h.adjacent d = .error (.length h.length) := by
  unfold Hash.adjacent
  obtain ⟨n, hn⟩ := Nat.exists_eq_add_of_le' h.length_pos
  rw [hn] at hlen ⊢
  simp only [encode, hlen, ↓reduceIte]

/-- **The neighbour is the cell one span on, or the cell itself at the edge of the globe.**  A text
that denotes no hash is reported, the first bad character being named, and so is a hash that is too
long; all others have a neighbour of their length.  No place off the globe is ever met. -/
theorem adjacent_translates (s : String) (d : Direction) :
    (s = "" → adjacent s d = .error .emptyHash) ∧
    (∀ c, s.toList.find? (fun c => c ∉ alphabet) = some c →
      adjacent s d = .error (.badCharacter s c)) ∧
    (∀ n, IsKey n s → 12 < n → adjacent s d = .error (.length n)) ∧
    (∀ n, IsKey n s → 1 ≤ n → n ≤ 12 → ∃ b k, decode s = .ok b ∧ adjacent s d = .ok k ∧
      k.length = n ∧ (d.AtEdge b → k.text = s) ∧
      (¬ d.AtEdge b → ∃ c, decode k.text = .ok c ∧ c.along d.axis.other = b.along d.axis.other ∧
        (b.along d.axis).IsShift d.upward (c.along d.axis))) ∧
    ∀ p, adjacent s d ≠ .error (.place p) := by
  have hempty : s = "" → adjacent s d = .error .emptyHash := by
    rintro rfl
    rfl
  have hbad : ∀ c, s.toList.find? (fun c => c ∉ alphabet) = some c →
      adjacent s d = .error (.badCharacter s c) :=
    fun c hc => adjacent_of_parse (Hash.parse_eq_badCharacter hc) d
  have hlong : ∀ n, IsKey n s → 12 < n → adjacent s d = .error (.length n) := by
    intro n hs hn
    obtain ⟨h, rfl, rfl⟩ := hs.exists_hash (by omega)
    exact (adjacent_of_parse h.parse_text d).trans (Hash.adjacent_of_long hn d)
  have hshort : ∀ n, IsKey n s → 1 ≤ n → n ≤ 12 → ∃ b k, decode s = .ok b ∧ adjacent s d = .ok k ∧
      k.length = n ∧ (d.AtEdge b → k.text = s) ∧
      (¬ d.AtEdge b → ∃ c, decode k.text = .ok c ∧ c.along d.axis.other = b.along d.axis.other ∧
        (b.along d.axis).IsShift d.upward (c.along d.axis)) := by
    intro n hs hn hmax
    obtain ⟨h, rfl, rfl⟩ := hs.exists_hash hn
    obtain ⟨k, hadj, hsame⟩ := h.adjacent_isOk hmax d
    refine ⟨h.bounds, k, decode_text h, (adjacent_of_parse h.parse_text d).trans hadj, hsame,
      fun hedge => ?_, fun hedge => ⟨k.bounds, decode_text k, Hash.adjacent_isShift hmax hadj hedge⟩⟩
    rw [Hash.adjacent_of_atEdge hmax hadj hedge]
  refine ⟨hempty, hbad, hlong, hshort, fun p hplace => ?_⟩
  cases hfirst : s.toList.find? (fun c => c ∉ alphabet) with
  | some c =>
    rw [hbad c hfirst] at hplace
    cases hplace
  | none =>
    have hkey : IsKey s.length s := ⟨rfl, by simpa using hfirst⟩
    rcases Nat.eq_zero_or_pos s.length with h0 | hpos
    · rw [hempty (String.length_eq_zero_iff.mp h0)] at hplace
      cases hplace
    rcases Nat.lt_or_ge 12 s.length with hn | hn
    · rw [hlong _ hkey hn] at hplace
      cases hplace
    · obtain ⟨-, k, -, hok, -⟩ := hshort _ hkey hpos hn
      rw [hok] at hplace
      cases hplace

/-- From the cell southwest of the origin all twelve digits change on the way east, and the meridian
is one edge of both cells. -/
theorem east_of_origin :
    (adjacent "7zzzzzzzzzzz" .right).toOption.map Hash.text = some "kpbpbpbpbpbp" ∧
    ∃ b k c, decode "7zzzzzzzzzzz" = .ok b ∧ adjacent "7zzzzzzzzzzz" .right = .ok k ∧
      decode k.text = .ok c ∧ b.longitude.hi = 0 ∧ c.longitude.lo = 0 ∧ c.latitude = b.latitude := by
  have hdigits : "7zzzzzzzzzzz".toList.all (fun c => alphabet.contains c) = true := by
    decide +kernel
  have hkey : IsKey 12 "7zzzzzzzzzzz" := ⟨by decide, by simpa using hdigits⟩
  obtain ⟨b, k, hb, hk, -, -, hshift⟩ :=
    (adjacent_translates "7zzzzzzzzzzz" .right).2.2.2.1 12 hkey (by decide) (by decide)
  have hhi : b.longitude.hi = 0 := by
    have h : (decode "7zzzzzzzzzzz").toOption.map (fun b => b.longitude.hi) = some 0 := by
      decide +kernel
    rw [hb] at h
    exact Option.some.inj h
  have hedge : ¬ Direction.AtEdge .right b := by
    show ¬ b.longitude.hi = 180
    rw [hhi]
    decide
  obtain ⟨c, hc, hother, hlongitude⟩ := hshift hedge
  have hshared : c.longitude.lo = b.longitude.hi := hlongitude.shared
  exact ⟨by decide +kernel, b, k, c, hb, hk, hc, hhi, hshared.trans hhi, hother⟩

end Geohash

end Barogrid
