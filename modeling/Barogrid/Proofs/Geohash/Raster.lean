import Mathlib
import Barogrid.Geohash.Hash
import Barogrid.Proofs.Binary64.Operations

/-!
# The raster of the globe

Halving an axis `k` times divides it into `2 ^ k` parts of equal width.  As long as `k` is at most
`finestLevel`, every dividing line is a double, and every sum that the halving computes is one too:
the halves of cells are exact, and a row of answers leads to a cell of the raster.

* `Axis.line` -- the dividing lines, in units;
* `Interval.IsCell` -- between which two lines of which level an interval lies;
* `IsCell.half` -- **the half of a cell is a cell of the next level**, with exact ends;
* `follow_onGrid` -- so is what a row of answers leads to, along both axes, each being halved by
  every other answer.
-/

namespace Barogrid

/-! ## 1. Lines -/

/-- 90 degrees are `45 · 2 ^ scale` units on the axis of latitudes, and so are 180 degrees on that
of longitudes. -/
def Axis.scale : Axis → Nat
  | .latitude => Binary64.oneScale + 1
  | .longitude => Binary64.oneScale + 2

/-- The dividing lines of level `k` in units, counted from the least end of the axis. -/
def Axis.line (x : Axis) (k i : Nat) : Int := 45 * (2 * i - 2 ^ k) * 2 ^ (x.scale - k)

/-- Down to this level a line has at most 53 digits. -/
def finestLevel : Nat := 47

namespace Axis

theorem scale_bounds (x : Axis) : 1075 ≤ x.scale ∧ x.scale ≤ 1076 := by
  cases x <;> decide

theorem line_step (x : Axis) (k i : Nat) :
    x.line k (i + 1) = x.line k i + 90 * 2 ^ (x.scale - k) := by
  unfold line
  push_cast
  ring

theorem line_lt (x : Axis) (k i : Nat) : x.line k i < x.line k (i + 1) := by
  rw [line_step]
  have : (0 : Int) < 2 ^ (x.scale - k) := by positivity
  omega

theorem line_strictMono (x : Axis) (k : Nat) : StrictMono (x.line k) :=
  strictMono_nat_of_lt_succ (x.line_lt k)

theorem pow_sub_succ {x : Axis} {k : Nat} (hk : k < finestLevel) :
    (2 : Int) ^ (x.scale - k) = 2 * 2 ^ (x.scale - (k + 1)) := by
  have := x.scale_bounds
  have hsplit : x.scale - k = x.scale - (k + 1) + 1 := by
    unfold finestLevel at hk
    omega
  rw [hsplit, pow_succ]
  ring

/-- A line is a line of the next level. -/
theorem line_double {x : Axis} {k : Nat} (hk : k < finestLevel) (i : Nat) :
    x.line (k + 1) (2 * i) = x.line k i := by
  unfold line
  rw [pow_sub_succ hk]
  push_cast
  ring

/-- Between two lines stands a line of the next level. -/
theorem line_middle {x : Axis} {k : Nat} (hk : k < finestLevel) (i : Nat) :
    x.line k i + x.line k (i + 1) = 2 * x.line (k + 1) (2 * i + 1) := by
  unfold line
  rw [pow_sub_succ hk]
  push_cast
  ring

theorem natAbs_digits_le {k i : Nat} (hk : k ≤ finestLevel) (hi : i ≤ 2 ^ k) :
    (45 * (2 * (i : Int) - 2 ^ k)).natAbs ≤ 2 ^ 53 := by
  have hpow : 2 ^ k ≤ 2 ^ finestLevel := Nat.pow_le_pow_right (by decide) hk
  have hval : 2 ^ finestLevel = 140737488355328 := by decide
  have hcast : ((2 ^ k : Nat) : Int) = 2 ^ k := by push_cast; rfl
  rw [← hcast]
  generalize 2 ^ k = n at *
  omega

end Axis

/-! ## 2. Cells along an axis -/

/-- The interval lies between the lines `i` and `i + 1` of level `k`. -/
structure Interval.IsCell (x : Axis) (k i : Nat) (c : Interval) : Prop where
  index_lt : i < 2 ^ k
  lo_isFinite : c.lo.isFinite = true
  hi_isFinite : c.hi.isFinite = true
  lo_units : c.lo.units = x.line k i
  hi_units : c.hi.units = x.line k (i + 1)

namespace Interval.IsCell

variable {x : Axis} {k i : Nat} {c : Interval}

/-- **The middle is exact**: it is the line of the next level between the two. -/
theorem mid (h : c.IsCell x k i) (hk : k < finestLevel) :
    c.mid.isFinite = true ∧ c.mid.units = x.line (k + 1) (2 * i + 1) := by
  have hscale := x.scale_bounds
  have hindex : 2 * i + 1 ≤ 2 ^ (k + 1) := by
    have := h.index_lt
    rw [pow_succ]
    omega
  have hdigits := Axis.natAbs_digits_le (k := k + 1) hk hindex
  have hsum : ((c.lo.units : ℚ) + c.hi.units) =
      (45 * (2 * ((2 * i + 1 : Nat) : Int) - 2 ^ (k + 1)) : Int) *
        2 ^ (x.scale - (k + 1) + 1) := by
    rw [h.lo_units, h.hi_units, ← Int.cast_add, Axis.line_middle hk, Axis.line, pow_succ]
    push_cast
    ring
  obtain ⟨hfinite, hunits⟩ :=
    (Binary64.add_roundsTo h.lo_isFinite h.hi_isFinite).exact_of_short hdigits (by omega) hsum
  refine (Binary64.half_roundsTo hfinite).exact_of_short hdigits (by omega) ?_
  rw [hunits, pow_succ]
  push_cast
  ring

theorem two_mul_mid_units (h : c.IsCell x k i) (hk : k < finestLevel) :
    2 * c.mid.units = c.lo.units + c.hi.units := by
  rw [(h.mid hk).2, h.lo_units, h.hi_units, Axis.line_middle hk]

/-- The lower end lies before the middle, and this before the upper end. -/
theorem lo_lt_mid (h : c.IsCell x k i) (hk : k < finestLevel) : c.lo < c.mid ∧ c.mid < c.hi := by
  obtain ⟨hfinite, hunits⟩ := h.mid hk
  have hlt := x.line_lt k i
  have hmid := Axis.line_middle (x := x) hk i
  rw [Binary64.lt_iff_units_lt h.lo_isFinite hfinite, Binary64.lt_iff_units_lt hfinite h.hi_isFinite,
    h.lo_units, h.hi_units, hunits]
  omega

/-- **The half of a cell is a cell of the next level.** -/
theorem half (h : c.IsCell x k i) (hk : k < finestLevel) (upper : Bool) :
    (c.half upper).IsCell x (k + 1) (2 * i + upper.toNat) := by
  obtain ⟨hfinite, hunits⟩ := h.mid hk
  have hindex := h.index_lt
  have hpow : 2 ^ (k + 1) = 2 ^ k * 2 := pow_succ 2 k
  cases upper with
  | false =>
    refine ⟨by simp only [Bool.toNat_false]; omega, h.lo_isFinite, hfinite, ?_, hunits⟩
    show c.lo.units = x.line (k + 1) (2 * i)
    rw [Axis.line_double hk]
    exact h.lo_units
  | true =>
    refine ⟨by simp only [Bool.toNat_true]; omega, hfinite, h.hi_isFinite, hunits, ?_⟩
    show c.hi.units = x.line (k + 1) (2 * (i + 1))
    rw [Axis.line_double hk]
    exact h.hi_units

end Interval.IsCell

/-! ## 3. Cells of the globe -/

/-- Along each axis the bounds are a cell of the level given for it. -/
def Bounds.OnGrid (b : Bounds) (level : Axis → Nat) : Prop :=
  ∀ x, ∃ i, (b.along x).IsCell x (level x) i

/-- The axis goes this many degrees to either side. -/
def Axis.degrees : Axis → Nat
  | .latitude => 90
  | .longitude => 180

theorem Axis.degrees_mul (x : Axis) :
    (x.degrees : Int) * 2 ^ Binary64.oneScale = 45 * 2 ^ x.scale := by
  cases x <;> simp only [degrees, scale, pow_succ] <;> push_cast <;> ring

theorem along_world (x : Axis) :
    Bounds.world.along x = ⟨-Binary64.ofNat x.degrees, Binary64.ofNat x.degrees⟩ := by
  cases x <;> rfl

theorem world_isCell (x : Axis) : (Bounds.world.along x).IsCell x 0 0 := by
  have hsmall : x.degrees ≤ 2 ^ 53 := by cases x <;> decide
  obtain ⟨hfinite, hunits⟩ := Binary64.ofNat_exact hsmall
  rw [along_world]
  refine ⟨by decide, hfinite, hfinite, ?_, ?_⟩
  · show (-Binary64.ofNat x.degrees).units = _
    rw [Binary64.neg_units, hunits, x.degrees_mul, Axis.line]
    norm_num
  · show (Binary64.ofNat x.degrees).units = _
    rw [hunits, x.degrees_mul, Axis.line]
    norm_num

theorem world_onGrid : Bounds.world.OnGrid fun _ => 0 := fun x => ⟨0, world_isCell x⟩

theorem Axis.eq_or_eq_other (x axis : Axis) : x = axis ∨ x = axis.other := by
  cases x <;> cases axis <;> simp [Axis.other]

theorem Axis.other_ne (axis : Axis) : axis.other ≠ axis := by
  cases axis <;> simp [Axis.other]

theorem Bounds.OnGrid.half {b : Bounds} {level : Axis → Nat} (h : b.OnGrid level) {axis : Axis}
    (hk : level axis < finestLevel) (upper : Bool) :
    (b.half axis upper).OnGrid (Function.update level axis (level axis + 1)) := by
  intro x
  rcases x.eq_or_eq_other axis with rfl | rfl
  · obtain ⟨i, hi⟩ := h x
    rw [Bounds.along_half, Function.update_self]
    exact ⟨_, hi.half hk upper⟩
  · rw [Bounds.along_half_other, Function.update_of_ne axis.other_ne]
    exact h axis.other

namespace Geohash

/-- How often `x` is halved by `n` answers, the first of which halves `first`. -/
def halvings (first x : Axis) (n : Nat) : Nat := if x = first then (n + 1) / 2 else n / 2

/-- The first answer halves its axis, and the others go on with the other axis. -/
theorem update_add_halvings (level : Axis → Nat) (first x : Axis) (n : Nat) :
    Function.update level first (level first + 1) x + halvings first.other x n =
      level x + halvings first x (n + 1) := by
  rcases x.eq_or_eq_other first with rfl | rfl
  · have hne : x ≠ x.other := x.other_ne.symm
    rw [Function.update_self, halvings, halvings, if_neg hne, if_pos rfl]
    omega
  · rw [Function.update_of_ne first.other_ne, halvings, halvings, if_pos rfl,
      if_neg first.other_ne]

/-- **A row of answers leads to a cell of the raster.** -/
theorem follow_onGrid {as : List Bool} {first : Axis} {b : Bounds} {level : Axis → Nat}
    (h : b.OnGrid level) (hk : ∀ x, level x + halvings first x as.length ≤ finestLevel) :
    (follow as first b).OnGrid fun x => level x + halvings first x as.length := by
  induction as generalizing first b level with
  | nil =>
    intro x
    have h0 : halvings first x 0 = 0 := by unfold halvings; split <;> rfl
    show ∃ i, (b.along x).IsCell x (level x + halvings first x 0) i
    rw [h0]
    exact h x
  | cons a as ih =>
    have hfirst : level first < finestLevel := by
      have := hk first
      rw [List.length_cons, halvings, if_pos rfl] at this
      omega
    have hdeeper : (follow as first.other (b.half first a)).OnGrid _ :=
      ih (h.half hfirst a) fun x => by
        rw [update_add_halvings]
        exact hk x
    simp only [update_add_halvings] at hdeeper
    exact hdeeper

/-- At most 60 answers stay far above the finest level. -/
theorem halvings_lt_finestLevel {n : Nat} (hn : n ≤ 60) (x : Axis) :
    halvings .longitude x n < finestLevel := by
  unfold halvings finestLevel
  split <;> omega

theorem follow_world_onGrid {as : List Bool} (has : as.length ≤ 60) :
    (follow as .longitude .world).OnGrid fun x => halvings .longitude x as.length := by
  have hk : ∀ x, 0 + halvings .longitude x as.length ≤ finestLevel := by
    intro x
    rw [Nat.zero_add]
    exact (halvings_lt_finestLevel has x).le
  simpa using follow_onGrid world_onGrid hk

end Geohash

end Barogrid
