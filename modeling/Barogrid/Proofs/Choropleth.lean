import Mathlib
import Barogrid.Choropleth
import Barogrid.Proofs.Color.Mixing
import Barogrid.Proofs.Grid.Uniform
import Barogrid.Proofs.Rendering

/-!
# Higher values are not drawn lower

A value goes through a difference, a quotient, the logistic curve, a scaling and a rounding to its
number, and from there to its color.  Each of these steps keeps the order, whatever the standard
deviation is, as long as the exponential of the platform does.

* `Exponential.Increasing` -- what is assumed of the exponential;
* `Statistics.logistic_le`, `normalize_le` -- the logistic curve and the number keep the order;
* `NoLower`, `draw_noLower` -- what a higher value promises of two cells drawn;
* `project_keeps_order` -- **of two cells drawn, the one with the higher value is drawn no lower**:
  neither is its number less, nor is its color nearer to the first of two stops.
-/

namespace Barogrid

/-- The exponential keeps the order of doubles and is nowhere negative. -/
structure Exponential.Increasing (e : Exponential) : Prop where
  mono : ∀ {x y : Binary64}, x ≤ y → e.exp x ≤ e.exp y
  nonneg : ∀ {x : Binary64}, x.isNaN = false → 0 ≤ e.exp x

section

variable [e : Exponential] {x y median stdev : Binary64}

/-! ## 1. The logistic curve -/

namespace Statistics

/-- **The logistic curve keeps the order.** -/
theorem logistic_le (h : e.Increasing) (hxy : x ≤ y) : logistic x ≤ logistic y := by
  have hexp := h.mono (Binary64.neg_le_neg hxy)
  have hnonneg := h.nonneg (x := -y) (Binary64.le_iff.mp hxy).2.1
  have hone : 1 ≤ 1 + Exponential.exp (-y) :=
    Binary64.le_trans (by decide +kernel) (Binary64.one_add_follows.le hnonneg)
  exact Binary64.one_div_le_one_div hone (Binary64.one_add_follows.le hexp)

end Statistics

/-! ## 2. The number and the color -/

namespace Choropleth

/-- **The number keeps the order**, whatever the standard deviation is. -/
theorem normalize_le (h : e.Increasing) (hmedian : median.isFinite = true)
    (hstdev : stdev.isFinite = true → stdev.isZero = false → 0 < stdev.units) (hxy : x ≤ y) :
    normalize x median stdev ≤ normalize y median stdev := by
  unfold normalize
  by_cases hflat : (stdev.isZero || !stdev.isFinite) = true
  · rw [if_pos hflat, if_pos hflat]
  · have hfinite : stdev.isFinite = true := by
      by_contra hnot
      simp [hnot] at hflat
    have hzero : stdev.isZero = false := by
      by_contra hnot
      simp [hnot] at hflat
    rw [if_neg hflat, if_neg hflat]
    have hdistance := (Binary64.sub_follows hmedian).le hxy
    have hstanding := (Binary64.div_follows hfinite (hstdev hfinite hzero)).le hdistance
    have hlogistic := Statistics.logistic_le h hstanding
    exact min_le_min (Binary64.roundNat_mul_ofNat_le (n := 100) (by decide) (by decide) hlogistic) le_rfl

theorem normalize_le_hundred (x median stdev : Binary64) : normalize x median stdev ≤ 100 := by
  unfold normalize
  split
  · decide
  · exact min_le_right _ _

/-- `d'` is drawn no lower than `d`: its number is at least as great, and at most 100, and where the
gradient has two stops, each channel of its color is at least as far from the first stop toward the
second. -/
def NoLower (gradient : Gradient) (d d' : DrawnCell) : Prop :=
  d.normalized ≤ d'.normalized ∧ d'.normalized ≤ 100 ∧
    ∀ first last, gradient.stops = [first, last] →
      ∀ channel ∈ [Color.red, Color.green, Color.blue],
        Color.Farther (channel first) (channel last) (channel d.color) (channel d'.color)

theorem draw_noLower (h : e.Increasing) {summary : Statistics.Summary}
    (hmedian : summary.median.isFinite = true)
    (hstdev : summary.stdev.isFinite = true → summary.stdev.isZero = false → 0 < summary.stdev.units)
    (gradient : Gradient) (opacity : Binary64) {c c' : Cell} (hle : c.average ≤ c'.average) :
    NoLower gradient (draw summary gradient opacity c) (draw summary gradient opacity c') := by
  have hnormalized : normalize c.average summary.median summary.stdev ≤
      normalize c'.average summary.median summary.stdev := normalize_le h hmedian hstdev hle
  have hhundred := normalize_le_hundred c'.average summary.median summary.stdev
  refine ⟨hnormalized, hhundred, fun first last hstops channel hchannel => ?_⟩
  exact Gradient.colorAt_farther hstops hnormalized hhundred hchannel

/-- **Higher values are not drawn lower.**  Drawing cells beside visible readings succeeds, and of two
cells whose values can be compared, the one with the higher value is drawn no lower. -/
theorem project_keeps_order (h : e.Increasing) {visible : List Reading} (hsome : visible ≠ [])
    (hmedian : (Statistics.medianOf (visible.map Reading.value)).isFinite = true)
    (cells : CellMap) (gradient : Gradient) (opacity : Binary64) :
    ∃ p, project cells visible gradient opacity = .ok p ∧
      ∀ d ∈ p.cells, ∀ d' ∈ p.cells, d.average ≤ d'.average → NoLower gradient d d' := by
  refine ⟨_, Rendering.project_eq_ok hsome cells gradient opacity, fun d hd d' hd' hle => ?_⟩
  obtain ⟨c, -, rfl⟩ := List.mem_map.mp hd
  obtain ⟨c', -, rfl⟩ := List.mem_map.mp hd'
  exact draw_noLower h hmedian (fun hfinite hzero => Binary64.sqrt_units_pos hfinite hzero) gradient
    opacity hle

end Choropleth

end

/-- An exponential that knows three values, which it takes from minus one, from zero and from one
on. -/
@[reducible]
def Exponential.steps : Exponential :=
  ⟨fun x =>
    if x.isNaN then x
    else if x < -1 then 0
    else if x < 0 then 0.36787944117144233
    else if x < 1 then 1
    else 2.718281828459045⟩

theorem Exponential.steps_increasing : Exponential.steps.Increasing := by
  constructor
  · intro x y hxy
    obtain ⟨hx, hy, hrank⟩ := Binary64.le_iff.mp hxy
    have hbelow : ∀ c, ¬ x < c → ¬ y < c := by
      intro c hnot hlt
      obtain ⟨-, hc, hless⟩ := Binary64.lt_iff.mp hlt
      exact hnot (Binary64.lt_iff.mpr ⟨hx, hc, lt_of_le_of_lt hrank hless⟩)
    simp only [Exponential.exp, hx, hy, Bool.false_eq_true, ↓reduceIte]
    by_cases h₁ : x < -1
    · rw [if_pos h₁]
      split_ifs <;> decide +kernel
    rw [if_neg h₁, if_neg (hbelow _ h₁)]
    by_cases h₂ : x < 0
    · rw [if_pos h₂]
      split_ifs <;> decide +kernel
    rw [if_neg h₂, if_neg (hbelow _ h₂)]
    by_cases h₃ : x < 1
    · rw [if_pos h₃]
      split_ifs <;> decide +kernel
    · rw [if_neg h₃, if_neg (hbelow _ h₃)]
      decide +kernel
  · intro x hx
    simp only [Exponential.exp, hx, Bool.false_eq_true, ↓reduceIte]
    split_ifs <;> decide +kernel

/-- Two cells of the values 1000 and 1020 beside two readings of these values. -/
theorem Choropleth.southwest_keeps_order :
    Exponential.steps.Increasing ∧
    [(⟨⟨-90, -180⟩, 1000, 0⟩ : Reading), ⟨⟨-90, -90⟩, 1020, 0⟩] ≠ [] ∧
    (Statistics.medianOf [1000, 1020]).isFinite = true ∧
    ∃ p, @project Exponential.steps Filling.southwest
        [⟨⟨-90, -180⟩, 1000, 0⟩, ⟨⟨-90, -90⟩, 1020, 0⟩] .standard 0.65 = .ok p ∧
      ∀ d ∈ p.cells, ∀ d' ∈ p.cells, d.average ≤ d'.average → NoLower .standard d d' := by
  have hsorted : Statistics.sorted [1000, 1020] = [1000, 1020] :=
    List.mergeSort_of_pairwise (by decide +kernel)
  have hmedian : (Statistics.medianOf [1000, 1020]).isFinite = true := by
    unfold Statistics.medianOf
    rw [hsorted]
    decide +kernel
  refine ⟨Exponential.steps_increasing, by simp, hmedian, ?_⟩
  obtain ⟨p, hp, horder⟩ := @project_keeps_order Exponential.steps Exponential.steps_increasing
    [⟨⟨-90, -180⟩, 1000, 0⟩, ⟨⟨-90, -90⟩, 1020, 0⟩] (by simp) hmedian Filling.southwest .standard 0.65
  exact ⟨p, hp, horder⟩

end Barogrid
