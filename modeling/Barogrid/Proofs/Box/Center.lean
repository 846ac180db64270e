import Mathlib
import Barogrid.Box
import Barogrid.Proofs.Binary64.Between

/-!
# The center of a box

The center of a box is reckoned from its western edge: half of the width is added, and where this leads
beyond 180 degrees a turn is taken off again.  The width of a box that wraps takes two operations, its
half and the sum two more, and each of them is rounded.  Yet the center stays in the box.

* `rest_add_le` -- the width of a box that wraps is **at most a turn and one place** before its last
  rounding, and this is where it still becomes a turn;
* `narrow_exact` -- around the antimeridian all edges are numbers of places, so that the width of a box of
  less than a degree is **exact**;
* `middle_le` -- **half of the width does not lead beyond the eastern edge**: in a wide box half a degree is
  left for all errors, and in a narrow one the edge itself is a double that bounds the sum;
* `center_inside` -- **the center of a box on the globe lies on the globe and in the box**.
-/

namespace Barogrid

open Binary64

namespace Box

variable {v : ℚ} {x y : Binary64} {b : Box}

/-! ## 1. Degrees and their last place -/

/-- A degree, in units. -/
def degree : ℚ := 2 ^ oneScale

/-- The last place of a double from 128 to 256 degrees. -/
def place : ℚ := 2 ^ (oneScale - 45)

theorem degree_eq : degree = 2 ^ 45 * place := by
  unfold degree place
  rw [← pow_add]
  congr 1

theorem place_pos : 0 < place := by
  unfold place
  positivity

theorem degree_pos : 0 < degree := by
  unfold degree
  positivity

theorem ofNat_degrees {n : Nat} (h : n ≤ 2 ^ 53) :
    (ofNat n).isFinite = true ∧ ((ofNat n).units : ℚ) = n * degree := by
  obtain ⟨hfinite, hunits⟩ := ofNat_exact h
  refine ⟨hfinite, ?_⟩
  rw [hunits, degree]
  push_cast
  rfl

theorem halfTurn_units :
    (180 : Binary64).isFinite = true ∧ ((180 : Binary64).units : ℚ) = 180 * degree := by
  have h := ofNat_degrees (n := 180) (by decide)
  rwa [Nat.cast_ofNat] at h

theorem turn_units :
    (360 : Binary64).isFinite = true ∧ ((360 : Binary64).units : ℚ) = 360 * degree := by
  have h := ofNat_degrees (n := 360) (by decide)
  rwa [Nat.cast_ofNat] at h

/-- A value of at most `256 · 2 ^ k` degrees is missed by half of `2 ^ k` places at most. -/
theorem near_of_degrees (k : Nat) (hk : k ≤ 2) (h : RoundsTo v x)
    (hv : |v| ≤ 2 ^ k * 256 * degree) :
    x.isFinite = true ∧ |(x.units : ℚ) - v| ≤ 2 ^ k * place / 2 := by
  have hscale : (2 : ℚ) ^ (oneScale - 45 + k) = 2 ^ k * place := by
    rw [place, pow_add, mul_comm]
  have hv : |v| ≤ 2 ^ 53 * 2 ^ (oneScale - 45 + k) := by
    rw [hscale]
    rw [degree_eq] at hv
    linarith
  have hfinite := h.isFinite_of_short (by unfold oneScale; omega) hv
  exact ⟨hfinite, hscale ▸ h.error_le hfinite hv⟩

/-- From 128 degrees on a double is a number of places, -/
theorem exists_places_of_far (h : 128 * degree ≤ |(x.units : ℚ)|) :
    ∃ i : Int, (x.units : ℚ) = i * place := by
  have hplaces : leadingBit * 2 ^ (oneScale - 45) ≤ x.units.natAbs := by
    rw [degree_eq, place, ← Int.cast_abs, ← Nat.cast_natAbs] at h
    have h : ((leadingBit * 2 ^ (oneScale - 45) : Nat) : ℚ) ≤ x.units.natAbs := by
      rw [leadingBit_eq]
      push_cast
      linarith
    exact_mod_cast h
  obtain ⟨i, hi⟩ := two_pow_dvd_units hplaces
  refine ⟨i, ?_⟩
  rw [hi, place, mul_comm]
  push_cast
  rfl

/-- and to 256 degrees every number of places is a double. -/
theorem exists_of_places {i : Int} (h : |(i * place : ℚ)| ≤ 256 * degree) :
    ∃ y : Binary64, y.isFinite = true ∧ (y.units : ℚ) = i * place := by
  have hshort : i.natAbs ≤ 2 ^ 53 := by
    rw [abs_mul, abs_of_pos place_pos, degree_eq] at h
    have h : |(i : ℚ)| ≤ 2 ^ 53 := by
      refine le_of_mul_le_mul_right ?_ place_pos
      linarith
    rw [← Int.cast_abs, ← Nat.cast_natAbs] at h
    exact_mod_cast h
  obtain ⟨y, hy, hunits⟩ := exists_units i (oneScale - 45) hshort (by unfold oneScale; omega)
  refine ⟨y, hy, ?_⟩
  rw [hunits, place]
  push_cast
  rfl

theorem units_of_places (h : RoundsTo v x) {i : Int} (hv : v = i * place)
    (hshort : |v| ≤ 256 * degree) : (x.units : ℚ) = v := by
  obtain ⟨y, hy, hunits⟩ := exists_of_places (hv ▸ hshort)
  rw [(h.exact hy (hv.trans hunits.symm)).2, hunits, hv]

/-- A turn and one place lies in the middle between two doubles, of which the turn is the even one. -/
theorem roundsTo_turn : RoundsTo (360 * degree + place) 360 := by
  have h := nearest_roundsTo false (360 * 2 ^ 45 + 1) (oneScale - 45 : Nat) Nat.one_pos
  have hturn : nearest false (360 * 2 ^ 45 + 1) 1 (oneScale - 45 : Nat) = 360 := by decide
  rw [hturn, exactUnits_one, signFactor, zpow_natCast] at h
  convert h using 1
  rw [degree_eq, place]
  push_cast
  simp
  ring

/-- Half of a width is missed by half a place at most. -/
theorem half_bounds (h : Between 0 360 x) : x.half.isFinite = true ∧ 0 ≤ (x.half.units : ℚ) ∧
    (x.half.units : ℚ) ≤ 180 * degree ∧ (x.half.units : ℚ) ≤ x.units / 2 + place / 2 := by
  have hx := h.isFinite zero_units.1 turn_units.1
  obtain ⟨hnonneg, hle⟩ := (between_iff_units zero_units.1 turn_units.1 hx).mp h
  rw [zero_units.2] at hnonneg
  have hle : (x.units : ℚ) ≤ 360 * degree := turn_units.2 ▸ Int.cast_le.mpr hle
  have hnonneg' : (0 : ℚ) ≤ x.units := by exact_mod_cast hnonneg
  have hhalf := half_roundsTo hx
  have hfinite := half_isFinite hx
  refine ⟨hfinite, by exact_mod_cast half_nonneg hx hnonneg, ?_, ?_⟩
  · rw [← halfTurn_units.2]
    exact hhalf.units_le hfinite halfTurn_units.1 (by rw [halfTurn_units.2]; linarith)
  · obtain ⟨-, herror⟩ := near_of_degrees 0 (by decide) hhalf
      (abs_le.mpr ⟨by linarith [degree_pos], by linarith [degree_pos]⟩)
    rw [abs_le] at herror
    linarith

/-! ## 2. Boxes on the globe -/

/-- The edges lie on the globe, and the southern one is not north of the northern one. -/
structure OnGlobe (b : Box) : Prop where
  west : Between (-180) 180 b.west
  east : Between (-180) 180 b.east
  south : -90 ≤ b.south
  upright : b.south ≤ b.north
  north : b.north ≤ 90

theorem longitude_units (h : Between (-180) 180 x) :
    x.isFinite = true ∧ -(180 * degree) ≤ x.units ∧ (x.units : ℚ) ≤ 180 * degree := by
  obtain ⟨hfinite, hunits⟩ := halfTurn_units
  have hfinite' := (neg_isFinite 180).trans hfinite
  have hx := h.isFinite hfinite' hfinite
  obtain ⟨hlow, hhigh⟩ := (between_iff_units hfinite' hfinite hx).mp h
  rw [neg_units] at hlow
  refine ⟨hx, ?_, ?_⟩
  · rw [← hunits]
    exact_mod_cast hlow
  · rw [← hunits]
    exact_mod_cast hhigh

/-! ## 3. Across the antimeridian -/

section Wrapped

variable (h : b.OnGlobe) (hwraps : b.wraps = true)

include h

theorem rest_roundsTo : RoundsTo (360 * degree - b.west.units) (360 - b.west) := by
  have hrest := sub_roundsTo turn_units.1 (longitude_units h.west).1
  rwa [turn_units.2] at hrest

/-- What the western edge leaves of a turn. -/
theorem rest_bounds : (360 - b.west).isFinite = true ∧ 180 * degree ≤ (360 - b.west).units ∧
    |((360 - b.west).units : ℚ) - (360 * degree - b.west.units)| ≤ 2 * place := by
  obtain ⟨-, hlow, hhigh⟩ := longitude_units h.west
  obtain ⟨hrestFinite, herror⟩ := near_of_degrees 2 le_rfl (rest_roundsTo h)
    (abs_le.mpr ⟨by linarith [degree_pos], by linarith [degree_pos]⟩)
  refine ⟨hrestFinite, ?_, by linarith⟩
  rw [← halfTurn_units.2]
  exact (rest_roundsTo h).le_units hrestFinite halfTurn_units.1 (by rw [halfTurn_units.2]; linarith)

theorem wrapped_roundsTo :
    RoundsTo ((360 - b.west).units + b.east.units) (360 - b.west + b.east) :=
  add_roundsTo (rest_bounds h).1 (longitude_units h.east).1

/-- The width of a narrow box around the antimeridian is exact, and so is the sum of a turn and its
eastern edge. -/
theorem narrow_exact (hnarrow : 359 * degree < (b.west.units : ℚ) - b.east.units) :
    ((360 - b.west + b.east).units : ℚ) = 360 * degree - b.west.units + b.east.units ∧
      ∃ y : Binary64, y.isFinite = true ∧ (y.units : ℚ) = 360 * degree + b.east.units := by
  have hdegree := degree_pos
  have hturn : 360 * degree = (360 * 2 ^ 45 : Int) * place := by
    rw [degree_eq]
    push_cast
    ring
  obtain ⟨-, hwlow, hwhigh⟩ := longitude_units h.west
  obtain ⟨-, helow, hehigh⟩ := longitude_units h.east
  obtain ⟨i, hi⟩ := exists_places_of_far (x := b.west) (le_abs.mpr (Or.inl (by linarith)))
  obtain ⟨j, hj⟩ := exists_places_of_far (x := b.east) (le_abs.mpr (Or.inr (by linarith)))
  have hrest := units_of_places (rest_roundsTo h) (i := 360 * 2 ^ 45 - i)
    (by rw [hturn, hi]; push_cast; ring) (abs_le.mpr ⟨by linarith, by linarith⟩)
  have hwidth := wrapped_roundsTo h
  rw [hrest] at hwidth
  refine ⟨units_of_places hwidth (i := 360 * 2 ^ 45 - i + j)
    (by rw [hturn, hi, hj]; push_cast; ring) (abs_le.mpr ⟨by linarith, by linarith⟩), ?_⟩
  have hsum : 360 * degree + b.east.units = ((360 * 2 ^ 45 + j : Int) : ℚ) * place := by
    rw [hturn, hj]
    push_cast
    ring
  rw [hsum]
  refine exists_of_places ?_
  rw [← hsum]
  exact abs_le.mpr ⟨by linarith, by linarith⟩

include hwraps

theorem east_lt_west : (b.east.units : ℚ) < b.west.units := by
  have hlt : b.east < b.west := by simpa [wraps] using hwraps
  exact_mod_cast (lt_iff_units_lt (longitude_units h.east).1 (longitude_units h.west).1).mp hlt

/-- **The width is at most a turn and one place before it is rounded**: this still is rounded to a
turn. -/
theorem rest_add_le : ((360 - b.west).units : ℚ) + b.east.units ≤ 360 * degree + place := by
  have hlt := east_lt_west h hwraps
  have hpos := place_pos
  have hdegree := degree_pos
  obtain ⟨-, hwlow, hwhigh⟩ := longitude_units h.west
  obtain ⟨-, helow, -⟩ := longitude_units h.east
  rcases le_or_gt (-(128 * degree)) b.west.units with hnear | hfar
  · -- the rest stays below 512 degrees, where it is missed by one place at most
    obtain ⟨-, herror⟩ := near_of_degrees 1 (by decide) (rest_roundsTo h)
      (abs_le.mpr ⟨by linarith, by linarith⟩)
    rw [abs_le] at herror
    linarith
  · -- it may be missed by two, but the edges are numbers of places and so at least one place apart
    obtain ⟨-, -, herror⟩ := rest_bounds h
    rw [abs_le] at herror
    obtain ⟨i, hi⟩ := exists_places_of_far (x := b.west) (le_abs.mpr (Or.inr (by linarith)))
    obtain ⟨j, hj⟩ := exists_places_of_far (x := b.east) (le_abs.mpr (Or.inr (by linarith)))
    have hapart : b.east.units + place ≤ b.west.units := by
      rw [hi, hj] at hlt ⊢
      have hji : j + 1 ≤ i := by exact_mod_cast lt_of_mul_lt_mul_right hlt hpos.le
      have hji : (j : ℚ) + 1 ≤ i := by exact_mod_cast hji
      calc (j : ℚ) * place + place = (j + 1) * place := by ring
        _ ≤ i * place := by gcongr
    linarith

theorem wrapped_between : Between 0 360 (360 - b.west + b.east) := by
  have hsum := wrapped_roundsTo h
  obtain ⟨-, hrest, -⟩ := rest_bounds h
  obtain ⟨-, heast, -⟩ := longitude_units h.east
  exact ⟨hsum.nonneg (by linarith), hsum.le roundsTo_turn (rest_add_le h hwraps)⟩

theorem wrapped_units_le : ((360 - b.west + b.east).units : ℚ) ≤
    360 * degree - b.west.units + b.east.units + 3 * place := by
  have hle := rest_add_le h hwraps
  have hpos := place_pos
  have hdegree := degree_eq
  obtain ⟨-, hrest, hrestError⟩ := rest_bounds h
  obtain ⟨-, heast, -⟩ := longitude_units h.east
  obtain ⟨-, herror⟩ := near_of_degrees 1 (by decide) (wrapped_roundsTo h)
    (abs_le.mpr ⟨by linarith, by linarith⟩)
  rw [abs_le] at hrestError herror
  linarith

/-- **From the western edge half of the width does not lead beyond the eastern edge**, even as this
sum is rounded. -/
theorem middle_le : (b.west + (360 - b.west + b.east).half).isFinite = true ∧
    ((b.west + (360 - b.west + b.east).half).units : ℚ) ≤ 360 * degree + b.east.units := by
  have hpos := place_pos
  have hdegree := degree_eq
  obtain ⟨hfinite, hwlow, hwhigh⟩ := longitude_units h.west
  obtain ⟨-, helow, -⟩ := longitude_units h.east
  have hwidth := wrapped_between h hwraps
  obtain ⟨hhalf, hhalf0, hhalf180, hhalfLe⟩ := half_bounds hwidth
  have hmiddle := add_roundsTo hfinite hhalf
  obtain ⟨hmiddleFinite, herror⟩ := near_of_degrees 1 (by decide) hmiddle
    (abs_le.mpr ⟨by linarith, by linarith⟩)
  rw [abs_le] at herror
  refine ⟨hmiddleFinite, ?_⟩
  rcases le_or_gt (b.west.units - b.east.units : ℚ) (359 * degree) with hwide | hnarrow
  · -- half a degree is left for all the errors
    have hwidthLe := wrapped_units_le h hwraps
    linarith
  · -- nothing has been rounded but the half and the sum, and these not beyond a double
    obtain ⟨hexact, y, hy, hyUnits⟩ := narrow_exact h hnarrow
    have hwidth0 : (0 : ℚ) ≤ (360 - b.west + b.east).units := by linarith
    have hself := hwidth.isFinite zero_units.1 turn_units.1
    have hhalfWidth := (half_roundsTo hself).units_le hhalf hself (by linarith)
    rw [← hyUnits]
    exact hmiddle.units_le hmiddleFinite hy (by linarith)

end Wrapped

/-! ## 4. The center -/

theorem wraps_iff : b.wraps = true ↔ b.east < b.west := decide_eq_true_iff

/-- What a box contains: the latitude is not out of range, and the longitude lies where the box goes. -/
theorem contains_iff : b.contains x y = true ↔ ¬ (y < b.south ∨ b.north < y) ∧
    if b.wraps = true then b.west ≤ x ∨ x ≤ b.east else Between b.west b.east x := by
  unfold contains
  by_cases hout : y < b.south ∨ b.north < y
  · simp [hout]
  · cases b.wraps <;> simp [hout, Between]

/-- A place between the edges is inside. -/
theorem contains_of (hlatitude : Between b.south b.north y)
    (hlongitude : if b.wraps = true then b.west ≤ x ∨ x ≤ b.east else Between b.west b.east x) :
    b.contains x y = true := by
  obtain ⟨hsouth, hnorth⟩ := hlatitude
  obtain ⟨hsouthNaN, hy, -⟩ := le_iff.mp hsouth
  have hbelow := (not_lt_iff hy hsouthNaN).mpr hsouth
  have habove := (not_lt_iff (le_iff.mp hnorth).2.1 hy).mpr hnorth
  exact contains_iff.mpr ⟨not_or.mpr ⟨hbelow, habove⟩, hlongitude⟩

theorem latitude_add_isFinite (h : Between (-90) 90 x) : (x + x).isFinite = true :=
  have hlow : (-90 + -90 : Binary64).isFinite = true := by decide
  have hhigh : (90 + 90 : Binary64).isFinite = true := by decide
  (add_between hlow hhigh h h).isFinite hlow hhigh

theorem OnGlobe.centerLatitude_between (h : b.OnGlobe) :
    Between b.south b.north b.centerLatitude := by
  obtain ⟨hsouth, hnorth, -⟩ := le_iff.mp h.upright
  exact half_between (latitude_add_isFinite ⟨h.south, Binary64.le_trans h.upright h.north⟩)
    (latitude_add_isFinite ⟨Binary64.le_trans h.south h.upright, h.north⟩)
    ⟨Binary64.le_self hsouth, h.upright⟩ ⟨h.upright, Binary64.le_self hnorth⟩

theorem OnGlobe.west_le_east (h : b.OnGlobe) (hwraps : b.wraps = false) : b.west ≤ b.east := by
  have hlt : ¬ b.east < b.west := by simpa [wraps] using hwraps
  exact (not_lt_iff (isNaN_of_isFinite (longitude_units h.east).1)
    (isNaN_of_isFinite (longitude_units h.west).1)).mp hlt

theorem OnGlobe.width_between (h : b.OnGlobe) : Between 0 360 b.width := by
  unfold width
  cases hwraps : b.wraps with
  | true => exact wrapped_between h hwraps
  | false =>
    obtain ⟨hwest, hwlow, -⟩ := longitude_units h.west
    obtain ⟨heast, -, hehigh⟩ := longitude_units h.east
    have hle : (b.west.units : ℚ) ≤ b.east.units := by
      exact_mod_cast (le_iff_units_le hwest heast).mp (h.west_le_east hwraps)
    have hwidth := sub_roundsTo heast hwest
    refine ⟨hwidth.nonneg (by linarith), hwidth.le (roundsTo_self turn_units.1) ?_⟩
    rw [turn_units.2]
    linarith

/-- Without wrapping the middle lies between the edges, and nothing is taken off. -/
theorem OnGlobe.centerLongitude_between (h : b.OnGlobe) (hwraps : b.wraps = false) :
    Between b.west b.east b.centerLongitude := by
  obtain ⟨hwest, hwlow, -⟩ := longitude_units h.west
  obtain ⟨heast, -, hehigh⟩ := longitude_units h.east
  have hgap : b.east.units - b.west.units < 2 ^ (oneScale + 9) := by
    have hgap : (b.east.units - b.west.units : ℚ) < 2 ^ (oneScale + 9) := by
      rw [pow_add, ← degree]
      linarith [degree_pos]
    exact_mod_cast hgap
  have hmiddle := add_half_sub_between hwest heast (h.west_le_east hwraps) hgap (by decide)
  have hbelow := Binary64.le_trans hmiddle.2 h.east.2
  obtain ⟨hmiddleNaN, hturnNaN, -⟩ := le_iff.mp hbelow
  have hwithin := (not_lt_iff hturnNaN hmiddleNaN).mpr hbelow
  unfold centerLongitude width
  simp only [hwraps, Bool.false_eq_true, ↓reduceIte, hwithin]
  exact hmiddle

/-- With wrapping it lies on the globe, and east of the western edge or west of the eastern one. -/
theorem OnGlobe.centerLongitude_of_wraps (h : b.OnGlobe) (hwraps : b.wraps = true) :
    Between (-180) 180 b.centerLongitude ∧
      (b.west ≤ b.centerLongitude ∨ b.centerLongitude ≤ b.east) := by
  obtain ⟨hwest, hwlow, hwhigh⟩ := longitude_units h.west
  obtain ⟨heast, -, -⟩ := longitude_units h.east
  obtain ⟨hhalf, hhalf0, -, -⟩ := half_bounds (wrapped_between h hwraps)
  have hmiddle := add_roundsTo hwest hhalf
  obtain ⟨hfinite, hle⟩ := middle_le h hwraps
  unfold centerLongitude width
  simp only [hwraps, ↓reduceIte]
  split
  · next hbeyond =>
    have hbeyond : ((180 : Binary64).units : ℚ) ≤ (b.west + (360 - b.west + b.east).half).units := by
      exact_mod_cast ((lt_iff_units_lt halfTurn_units.1 hfinite).mp hbeyond).le
    rw [halfTurn_units.2] at hbeyond
    have hcenter := sub_roundsTo hfinite turn_units.1
    rw [turn_units.2] at hcenter
    have hbetween : Between (-180) b.east (b.west + (360 - b.west + b.east).half - 360) := by
      refine hcenter.between ((neg_isFinite 180).trans halfTurn_units.1) heast ⟨?_, by linarith⟩
      rw [neg_units, Int.cast_neg, halfTurn_units.2]
      linarith
    exact ⟨⟨hbetween.1, Binary64.le_trans hbetween.2 h.east.2⟩, Or.inr hbetween.2⟩
  · next hwithin =>
    have hbelow := (not_lt_iff (isNaN_of_isFinite halfTurn_units.1) hmiddle.isNaN).mp hwithin
    have habove : b.west ≤ b.west + (360 - b.west + b.east).half :=
      (roundsTo_self hwest).le hmiddle (by linarith)
    exact ⟨⟨Binary64.le_trans h.west.1 habove, hbelow⟩, Or.inl habove⟩

/-- **The center of a box on the globe lies on the globe and in the box**, and its width is at most a
turn, also across the antimeridian. -/
theorem center_inside (h : b.OnGlobe) :
    Between 0 360 b.width ∧ Between (-180) 180 b.centerLongitude ∧
      Between (-90) 90 b.centerLatitude ∧
      b.contains b.centerLongitude b.centerLatitude = true := by
  have hlatitude := h.centerLatitude_between
  refine ⟨h.width_between, ?_, ⟨Binary64.le_trans h.south hlatitude.1,
    Binary64.le_trans hlatitude.2 h.north⟩, contains_of hlatitude ?_⟩
  · cases hwraps : b.wraps with
    | true => exact (h.centerLongitude_of_wraps hwraps).1
    | false =>
      have hbetween := h.centerLongitude_between hwraps
      exact ⟨Binary64.le_trans h.west.1 hbetween.1, Binary64.le_trans hbetween.2 h.east.2⟩
  · cases hwraps : b.wraps with
    | true => exact (h.centerLongitude_of_wraps hwraps).2
    | false => exact h.centerLongitude_between hwraps

/-- All of a turn but a place; both operations of the width are rounded up, and it becomes a turn. -/
def nearlyTurn : Box := ⟨-159.99999999999994, -90, -159.99999999999997, 90⟩

theorem center_inside_nearlyTurn : nearlyTurn.wraps = true ∧ nearlyTurn.width = 360 ∧
    nearlyTurn.OnGlobe ∧ Between 0 360 nearlyTurn.width ∧
      Between (-180) 180 nearlyTurn.centerLongitude ∧ Between (-90) 90 nearlyTurn.centerLatitude ∧
      nearlyTurn.contains nearlyTurn.centerLongitude nearlyTurn.centerLatitude = true := by
  have h : nearlyTurn.OnGlobe :=
    { west := by constructor <;> decide
      east := by constructor <;> decide
      south := by decide
      upright := by decide
      north := by decide }
  exact ⟨by decide, by decide, h, center_inside h⟩

end Box

end Barogrid
