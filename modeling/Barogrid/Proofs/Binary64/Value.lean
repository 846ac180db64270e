import Mathlib
import Barogrid.Binary64.Arithmetic

/-!
# Magnitudes and the values they stand for

`Binary64.units` reads a double as a whole number of units of 2 to the -1074.  This file says how
that number grows with the magnitude, which is all that rounding and comparison have to know:

* `magnitudeUnits` -- the units of a magnitude, without the sign;
* `magnitudeUnits_succ` -- the next magnitude stands for one last place more, also where a binade
  ends; so the units grow strictly (`magnitudeUnits_strictMono`), far beyond the infinities;
* `magnitudeUnits_place` -- `q` places of scale `s` are the magnitude `s · 2 ^ 52 + q`;
* `value` -- the number that a double stands for;
* `rank_lt_iff_units_lt` -- on finite doubles the order of ranks is the order of values;
* `exists_least`, `exists_greatest` -- so a row of finite doubles has a least and a greatest one.
-/

namespace Barogrid

namespace Binary64

/-! ## 1. The units of a magnitude -/

/-- The units that a magnitude stands for; beyond the infinities the binades go on. -/
def magnitudeUnits (m : Nat) : Nat :=
  (if m < leadingBit then m else leadingBit + m % leadingBit) * 2 ^ (m / leadingBit - 1)

theorem leadingBit_eq : leadingBit = 2 ^ 52 := rfl

theorem magnitudeUnits_of_lt {m : Nat} (h : m < leadingBit) : magnitudeUnits m = m := by
  have h0 : m / leadingBit = 0 := Nat.div_eq_of_lt h
  simp [magnitudeUnits, h, h0]

/-- In binade `s + 1` a magnitude has `leadingBit + r` places of scale `s`. -/
theorem magnitudeUnits_binade (s : Nat) {r : Nat} (h : r < leadingBit) :
    magnitudeUnits ((s + 1) * leadingBit + r) = (leadingBit + r) * 2 ^ s := by
  have hpos : 0 < leadingBit := by decide
  have hdiv : ((s + 1) * leadingBit + r) / leadingBit = s + 1 := by
    rw [Nat.mul_comm, Nat.mul_add_div hpos, Nat.div_eq_of_lt h, Nat.add_zero]
  have hmod : ((s + 1) * leadingBit + r) % leadingBit = r := by
    rw [Nat.mul_comm, Nat.mul_add_mod, Nat.mod_eq_of_lt h]
  have hge : ¬ (s + 1) * leadingBit + r < leadingBit := by
    rw [Nat.add_mul]
    omega
  unfold magnitudeUnits
  rw [if_neg hge, hdiv, hmod, Nat.add_sub_cancel]

@[simp]
theorem magnitudeUnits_zero : magnitudeUnits 0 = 0 := rfl

/-- **Places are magnitudes**: `q` places of scale `s` stand at `s · 2 ^ 52 + q`, provided that they
have their leading bit or `s` is the least scale.  A carry into the next binade is included. -/
theorem magnitudeUnits_place {s q : Nat} (h : s = 0 ∨ leadingBit ≤ q) (hq : q ≤ 2 * leadingBit) :
    magnitudeUnits (s * leadingBit + q) = q * 2 ^ s := by
  rcases Nat.lt_or_ge q leadingBit with hlt | hge
  · have hs : s = 0 := h.resolve_right (by omega)
    subst hs
    simpa using magnitudeUnits_of_lt hlt
  rcases Nat.lt_or_ge q (2 * leadingBit) with hlt | htop
  · have e : s * leadingBit + q = (s + 1) * leadingBit + (q - leadingBit) := by
      rw [Nat.add_mul]
      omega
    rw [e, magnitudeUnits_binade s (by omega), Nat.add_sub_cancel' hge]
  · have e : s * leadingBit + q = (s + 1 + 1) * leadingBit + 0 := by
      rw [Nat.add_mul, Nat.add_mul]
      omega
    have hq2 : q = leadingBit * 2 := by omega
    rw [e, magnitudeUnits_binade (s + 1) (by decide), hq2, Nat.pow_succ]
    ring

/-- Every magnitude is a number of places on its scale. -/
theorem exists_places (m : Nat) :
    ∃ s q, (s = 0 ∨ leadingBit ≤ q) ∧ q < 2 * leadingBit ∧ m = s * leadingBit + q := by
  have hpos : 0 < leadingBit := by decide
  rcases Nat.lt_or_ge m leadingBit with hlt | hge
  · exact ⟨0, m, Or.inl rfl, by omega, by omega⟩
  · have hmod := Nat.mod_lt m hpos
    have hdiv : 1 ≤ m / leadingBit := (Nat.one_le_div_iff hpos).mpr hge
    have hsplit := Nat.div_add_mod m leadingBit
    refine ⟨m / leadingBit - 1, leadingBit + m % leadingBit, Or.inr (by omega), by omega, ?_⟩
    rw [Nat.sub_mul, Nat.mul_comm (m / leadingBit)]
    have : leadingBit ≤ leadingBit * (m / leadingBit) := Nat.le_mul_of_pos_right _ hdiv
    omega

/-- The next magnitude stands for one last place more. -/
theorem magnitudeUnits_succ (m : Nat) :
    ∃ s, magnitudeUnits (m + 1) = magnitudeUnits m + 2 ^ s := by
  obtain ⟨s, q, hs, hq, rfl⟩ := exists_places m
  refine ⟨s, ?_⟩
  rw [magnitudeUnits_place hs (by omega), Nat.add_assoc,
    magnitudeUnits_place (hs.imp_right (by omega)) (by omega)]
  ring

theorem magnitudeUnits_strictMono : StrictMono magnitudeUnits := by
  refine strictMono_nat_of_lt_succ fun m => ?_
  obtain ⟨s, hs⟩ := magnitudeUnits_succ m
  rw [hs]
  exact Nat.lt_add_of_pos_right (Nat.two_pow_pos s)

/-! ## 2. The units of a double -/

theorem units_eq (x : Binary64) : x.units = x.signed (magnitudeUnits x.magnitude) := by
  unfold units significand scale magnitudeUnits
  rw [Nat.shiftLeft_eq]

theorem natAbs_units (x : Binary64) : x.units.natAbs = magnitudeUnits x.magnitude := by
  rw [units_eq]
  unfold signed
  split <;> simp

/-- The number that a finite double stands for. -/
def value (x : Binary64) : ℚ := x.units / 2 ^ oneScale

theorem isNaN_of_isFinite {x : Binary64} (h : x.isFinite = true) : x.isNaN = false := by
  simp only [isFinite, isNaN, decide_eq_true_eq, decide_eq_false_iff_not] at *
  omega

/-- **On finite doubles the order of ranks is the order of values.** -/
theorem rank_lt_iff_units_lt (x y : Binary64) : x.rank < y.rank ↔ x.units < y.units := by
  rw [units_eq, units_eq]
  obtain ⟨nx, mx, _⟩ := x
  obtain ⟨ny, my, _⟩ := y
  have hlt : mx < my ↔ magnitudeUnits mx < magnitudeUnits my :=
    magnitudeUnits_strictMono.lt_iff_lt.symm
  have hgt : my < mx ↔ magnitudeUnits my < magnitudeUnits mx :=
    magnitudeUnits_strictMono.lt_iff_lt.symm
  have hx : 0 < mx ↔ 0 < magnitudeUnits mx := magnitudeUnits_strictMono.lt_iff_lt (a := 0).symm
  have hy : 0 < my ↔ 0 < magnitudeUnits my := magnitudeUnits_strictMono.lt_iff_lt (a := 0).symm
  cases nx <;> cases ny <;> simp only [rank, signed, Bool.false_eq_true, ↓reduceIte] <;> omega

theorem rank_le_iff_units_le (x y : Binary64) : x.rank ≤ y.rank ↔ x.units ≤ y.units := by
  have := rank_lt_iff_units_lt y x
  omega

theorem rank_eq_iff_units_eq (x y : Binary64) : x.rank = y.rank ↔ x.units = y.units := by
  have := rank_lt_iff_units_lt x y
  have := rank_lt_iff_units_lt y x
  omega

/-- Away from the zeros, a rank has only one double. -/
theorem eq_of_rank_eq {x y : Binary64} (h : x.rank = y.rank) (h0 : y.rank ≠ 0) : x = y := by
  obtain ⟨nx, mx, _⟩ := x
  obtain ⟨ny, my, _⟩ := y
  cases nx <;> cases ny <;> simp_all [rank, signed]

/-- Apart from the negative zero, a value has only one double. -/
theorem eq_of_units_eq {x y : Binary64} (h : x.units = y.units) (hx : x ≠ zero true)
    (hy : y ≠ zero true) : x = y := by
  have hrank := (rank_eq_iff_units_eq x y).mpr h
  by_cases h0 : y.rank = 0
  · obtain ⟨nx, mx, _⟩ := x
    obtain ⟨ny, my, _⟩ := y
    cases nx <;> cases ny <;> simp_all [rank, signed, zero]
  · exact eq_of_rank_eq hrank h0

theorem negative_iff_units_neg {x : Binary64} (h : x.units ≠ 0) : x.negative = true ↔ x.units < 0 := by
  unfold units signed at *
  generalize x.significand <<< x.scale = n at *
  cases x.negative <;>
    simp only [↓reduceIte, Bool.false_eq_true, true_iff, false_iff] at h ⊢ <;> omega

theorem lt_iff_units_lt {x y : Binary64} (hx : x.isFinite = true) (hy : y.isFinite = true) :
    x < y ↔ x.units < y.units := by
  rw [lt_iff, rank_lt_iff_units_lt]
  simp [isNaN_of_isFinite hx, isNaN_of_isFinite hy]

theorem le_iff_units_le {x y : Binary64} (hx : x.isFinite = true) (hy : y.isFinite = true) :
    x ≤ y ↔ x.units ≤ y.units := by
  rw [le_iff, rank_le_iff_units_le]
  simp [isNaN_of_isFinite hx, isNaN_of_isFinite hy]

theorem isZero_iff {x : Binary64} : x.isZero = true ↔ x.isFinite = true ∧ x.units = 0 := by
  constructor
  · intro h
    have hzero : x.magnitude = 0 := by simpa [isZero] using h
    refine ⟨by simp [isFinite, hzero, infiniteMagnitude], ?_⟩
    rw [units_eq, hzero]
    simp [signed]
  · rintro ⟨-, hunits⟩
    have hzero : magnitudeUnits x.magnitude = magnitudeUnits 0 := by
      rw [← natAbs_units, hunits]
      rfl
    simpa [isZero] using magnitudeUnits_strictMono.injective hzero

/-- There are two zeros. -/
theorem eq_zero {x : Binary64} (h : x.isZero = true) : x = zero x.negative := by
  obtain ⟨negative, magnitude, hlt⟩ := x
  have h : magnitude = 0 := by simpa [isZero] using h
  simp [zero, h]

/-! ## 3. The ends of a row -/

/-- Of finite doubles that are not none, one is the least. -/
theorem exists_least {α : Type} {row : List α} (hne : row ≠ []) {f : α → Binary64}
    (hfinite : ∀ a ∈ row, (f a).isFinite = true) : ∃ a ∈ row, ∀ b ∈ row, f a ≤ f b := by
  obtain ⟨a, ha, hleast⟩ := (List.finite_toSet row).exists_minimalFor (fun a => (f a).units) _
    (List.exists_mem_of_ne_nil row hne)
  refine ⟨a, ha, fun b hb => ?_⟩
  rw [le_iff_units_le (hfinite a ha) (hfinite b hb)]
  exact (le_total _ _).elim id (hleast hb)

theorem exists_greatest {α : Type} {row : List α} (hne : row ≠ []) {f : α → Binary64}
    (hfinite : ∀ a ∈ row, (f a).isFinite = true) : ∃ a ∈ row, ∀ b ∈ row, f b ≤ f a := by
  obtain ⟨a, ha, hgreatest⟩ := (List.finite_toSet row).exists_maximalFor (fun a => (f a).units) _
    (List.exists_mem_of_ne_nil row hne)
  refine ⟨a, ha, fun b hb => ?_⟩
  rw [le_iff_units_le (hfinite b hb) (hfinite a ha)]
  exact (le_total _ _).elim id (hgreatest hb)

end Binary64

end Barogrid
