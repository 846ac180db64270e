import Mathlib
import Barogrid.Proofs.Resolution.Growth

/-!
# The formula of the key length

By the formula, the least length is increased by the distance of the zoom level times the span of the
lengths, over the greatest zoom level, rounded with halves going up.  The program divides, rounds, multiplies,
rounds, and only then makes a whole number of it.  Away from a half this is no matter: zoom levels are 32-bit
numbers, so that the exact value is either a half or far enough from one.  At a half the roundings decide.
With spans of at most 11 there are 66 halves to be looked at:

* `middle_reached` -- at all but one of them the product is not below the half;
* `middle_missed` -- at 15/22 of the greatest zoom level and a span of 11 it is;
* `lt_added_iff` -- this is **the only place** at which the roundings are seen;
* `keyLength_follows_formula` -- so the key length **is that of the formula everywhere else**, and one less
  there.
-/

namespace Barogrid

namespace Binary64

theorem ofRatio_roundsTo (n : Nat) {d : Nat} (hd : 0 < d) :
    RoundsTo (n / d * 2 ^ oneScale) (ofRatio false n d) := by
  show RoundsTo _ (nearest false n d oneScale)
  convert nearest_roundsTo false n oneScale hd using 1
  simp [exactUnits, signFactor]

/-- The quotient of whole numbers is their ratio, rounded. -/
theorem ofNat_div_roundsTo {n d : Nat} (hn : n ≤ 2 ^ 53) (hpos : 1 ≤ d) (hd : d ≤ 2 ^ 53) :
    RoundsTo (n / d * 2 ^ oneScale) (ofNat n / ofNat d) := by
  obtain ⟨hfinite, hunits⟩ := ofNat_exact hn
  convert div_ofNat_roundsTo hfinite hpos hd using 1
  rw [hunits]
  push_cast
  ring

end Binary64

namespace Resolution

open Binary64 (ofRatio)

variable {s : Settings} {n n' d d' k span : Nat}

/-! ## 1. The formula -/

/-- The nearest whole number, halves going away from zero. -/
def roundAway (q : ℚ) : Int := if q < 0 then ⌈q - 1 / 2⌉ else ⌊q + 1 / 2⌋

/-- The key length by the formula, computed exactly and held in the range of the settings. -/
def formula (zoom : Int) (s : Settings) : Int :=
  let distance : ℚ := heldZoom zoom s - s.minZoom
  let span : ℚ := s.maxLength - s.minLength
  min (max (roundAway (distance * span / s.maxZoom) + s.minLength) s.minLength) s.maxLength

/-- The place at which the program strays from the formula. -/
def Strays (zoom : Int) (s : Settings) : Prop :=
  s.maxLength - s.minLength = 11 ∧ 22 * zoomOffset zoom s = 15 * s.maxZoom

instance (zoom : Int) (s : Settings) : Decidable (Strays zoom s) :=
  inferInstanceAs (Decidable (_ ∧ _))

/-- The formula gives more than `k` from the middle after `k` on. -/
theorem lt_roundAway_iff (hd : 0 < d) :
    (k : Int) < roundAway (n * span / d) ↔ (2 * k + 1) * d ≤ 2 * n * span := by
  have hdq : (0 : ℚ) < d := by exact_mod_cast hd
  have hq : ¬ (n * span / d : ℚ) < 0 := not_lt.mpr (by positivity)
  have hmiddle : ((k + 1 : Int) : ℚ) - 1 / 2 = (2 * k + 1) / 2 := by
    push_cast
    ring
  rw [roundAway, if_neg hq, ← Int.add_one_le_iff, Int.le_floor, ← sub_le_iff_le_add, hmiddle,
    div_le_div_iff₀ (by norm_num) hdq, ← Nat.cast_le (α := ℚ)]
  push_cast
  rw [mul_comm (2 : ℚ) n, mul_right_comm]

/-! ## 2. The roundings -/

/-- What is added to the least length where the distance is `n / d` of the greatest zoom level. -/
def added (n d span : Nat) : Nat := (ofRatio false n d * Binary64.ofNat span).roundNat

theorem added_le (hspan : 0 < span ∧ span ≤ 11) (hd : 0 < d) (hd' : 0 < d')
    (h : n * d' ≤ n' * d) : added n d span ≤ added n' d' span := by
  have hdq : (0 : ℚ) < d := by exact_mod_cast hd
  have hdq' : (0 : ℚ) < d' := by exact_mod_cast hd'
  have hratio : (n / d : ℚ) ≤ n' / d' := by
    rw [div_le_div_iff₀ hdq hdq']
    exact_mod_cast h
  have hle := (Binary64.ofRatio_roundsTo n hd).le (Binary64.ofRatio_roundsTo n' hd') (by gcongr)
  exact Binary64.roundNat_mul_ofNat_le hspan.1 (by omega) hle

/-- The program divides doubles, but these are whole numbers, so that only their ratio matters. -/
theorem lengthOffset_eq_added (hspan : 0 < s.maxLength - s.minLength ∧ s.maxLength - s.minLength ≤ 11)
    (hn : n ≤ 2 ^ 53) (hd : d ≤ 2 ^ 53) (hpos : 0 < d) (hmax : s.maxZoom = d) :
    lengthOffset n s = added n d (s.maxLength - s.minLength) := by
  have hquotient := Binary64.ofNat_div_roundsTo hn hpos hd
  have hratio := Binary64.ofRatio_roundsTo n hpos
  have hsame : lengthOffset n s =
      (Binary64.ofNat n / Binary64.ofNat d * Binary64.ofNat (s.maxLength - s.minLength)).roundNat := by
    unfold lengthOffset
    rw [hmax]
    rfl
  rw [hsame]
  exact le_antisymm
    (Binary64.roundNat_mul_ofNat_le hspan.1 (by omega) (hquotient.le hratio le_rfl))
    (Binary64.roundNat_mul_ofNat_le hspan.1 (by omega) (hratio.le hquotient le_rfl))

/-- At a half the product is not below it, -/
theorem middle_reached : ∀ span < 12, ∀ k < span, ¬ (k = 7 ∧ span = 11) →
    k < added (2 * k + 1) (2 * span) span := by
  decide +kernel

/-- except at this one. -/
theorem middle_missed : added 15 22 11 = 7 := by decide +kernel

/-- A value that is not a half differs from it by more than the half's part in so many. -/
def fineness : Nat := 68719476736

/-- At that distance below a half the product is below it, -/
theorem below_middle : ∀ span < 12, ∀ k < span,
    added ((2 * k + 1) * (fineness - 1)) (2 * span * fineness) span ≤ k := by
  decide +kernel

/-- and above the one half that is missed it is above. -/
theorem above_middle : 7 < added (15 * (fineness + 1)) (22 * fineness) 11 := by decide +kernel

/-- From the middle after `k` on the program gives more than `k`, except where the half is missed, -/
theorem lt_added (hspan : span ≤ 11) (hk : k < span) (hd : 0 < d) (hd' : d < 2 ^ 31)
    (hmiddle : (2 * k + 1) * d ≤ 2 * n * span) (hplace : ¬ (k = 7 ∧ span = 11 ∧ 22 * n = 15 * d)) :
    k < added n d span := by
  have hspan' : 0 < span ∧ span ≤ 11 := ⟨by omega, hspan⟩
  by_cases hmissed : k = 7 ∧ span = 11
  · obtain ⟨rfl, rfl⟩ := hmissed
    have hlower : 15 * (fineness + 1) * d ≤ n * (22 * fineness) := by
      unfold fineness
      omega
    exact above_middle.trans_le (added_le hspan' (by decide) hd hlower)
  · have hlower : (2 * k + 1) * d ≤ n * (2 * span) := by
      rw [← Nat.mul_assoc, Nat.mul_comm n 2]
      exact hmiddle
    exact (middle_reached span (by omega) k hk hmissed).trans_le
      (added_le hspan' (by omega) hd hlower)

/-- and before that middle it does not. -/
theorem added_le_of_lt (hspan : span ≤ 11) (hk : k < span) (hd : 0 < d) (hd' : d < 2 ^ 31)
    (hmiddle : 2 * n * span < (2 * k + 1) * d) : added n d span ≤ k := by
  have hfar : (2 * k + 1) * d ≤ 21 * 2 ^ 31 := Nat.mul_le_mul (by omega) hd'.le
  have hupper : n * (2 * span * fineness) ≤ (2 * k + 1) * (fineness - 1) * d := by
    have hleft : n * (2 * span * fineness) = 2 * n * span * fineness := by ring
    have hright : (2 * k + 1) * (fineness - 1) * d = (2 * k + 1) * d * (fineness - 1) :=
      Nat.mul_right_comm _ _ _
    rw [hleft, hright]
    generalize (2 * k + 1) * d = p at *
    generalize 2 * n * span = q at *
    unfold fineness
    omega
  exact (added_le ⟨by omega, hspan⟩ hd (by unfold fineness; omega) hupper).trans
    (below_middle span (by omega) k hk)

/-- **The roundings are seen at one place only.** -/
theorem lt_added_iff (hspan : span ≤ 11) (hk : k < span) (hd : 0 < d) (hd' : d < 2 ^ 31) :
    k < added n d span ↔
      (2 * k + 1) * d ≤ 2 * n * span ∧ ¬ (k = 7 ∧ span = 11 ∧ 22 * n = 15 * d) := by
  constructor
  · intro hlt
    constructor
    · by_contra hbefore
      exact absurd hlt (added_le_of_lt hspan hk hd hd' (not_le.mp hbefore)).not_gt
    · intro ⟨hk', hspan', hplace⟩
      subst hk' hspan'
      have hupper : n * 22 ≤ 15 * d := by omega
      have hmissed := added_le ⟨by decide, hspan⟩ hd (by decide) hupper
      rw [middle_missed] at hmissed
      omega
  · intro ⟨hmiddle, hplace⟩
    exact lt_added hspan hk hd hd' hmiddle hplace

/-! ## 3. Key lengths -/

/-- What the program adds to the least length, -/
theorem lt_lengthOffset_iff (h : s.Valid) (hk : k < s.maxLength - s.minLength) (hn : n < 2 ^ 31)
    (hd : d < 2 ^ 31) (hmax : s.maxZoom = d) :
    k < lengthOffset n s ↔ (2 * k + 1) * d ≤ 2 * n * (s.maxLength - s.minLength) ∧
      ¬ (k = 7 ∧ s.maxLength - s.minLength = 11 ∧ 22 * n = 15 * d) := by
  have hpos := h.maxZoom_pos
  rw [lengthOffset_eq_added ⟨by omega, h.span_le⟩ (by omega) (by omega) (by omega) hmax]
  exact lt_added_iff h.span_le hk (by omega) hd

/-- and what the formula does. -/
theorem formula_eq (h : s.Valid) {zoom : Int} (hoffset : zoomOffset zoom s = n) (hmax : s.maxZoom = d) :
    formula zoom s = min (max (roundAway (n * (s.maxLength - s.minLength : Nat) / d) + s.minLength)
      s.minLength) s.maxLength := by
  have hdistance : (heldZoom zoom s - s.minZoom : ℚ) = n := by
    rw [← Int.cast_sub, show heldZoom zoom s - s.minZoom = n from hoffset, Int.cast_natCast]
  rw [formula, hdistance, hmax, Nat.cast_sub h.lengths, Int.cast_natCast]

/-- Held in the range of the settings, both lengths are the same unless a `k` below the span tells them
apart. -/
theorem held_eq {least longest added : Nat} {exact : Int} (hle : least ≤ longest)
    (h : ∀ k < longest - least, k < added ↔ (k : Int) < exact) :
    ((min (added + least) longest : Nat) : Int) = min (max (exact + least) least) longest := by
  have hsame : min added (longest - least) = min exact.toNat (longest - least) := by
    refine eq_of_forall_lt_iff fun k => ?_
    rw [lt_min_iff, lt_min_iff, Int.lt_toNat]
    exact and_congr_left (h k)
  omega

/-- **The formula.**  The key length is that of the formula, but for a span of 11 and a distance of 15/22 of
the greatest zoom level: there the formula gives 9 and the program 8. -/
theorem keyLength_follows_formula (hvalid : s.validate = .ok ()) (hfits : s.ZoomFits)
    (hmax : IntegerRange.int32.contains s.maxZoom = true) (zoom : Int) :
    ∃ n, keyLength zoom s = .ok n ∧
      if Strays zoom s then n = 8 ∧ formula zoom s = 9 else (n : Int) = formula zoom s := by
  have h := Settings.validate_eq_ok_iff.mp hvalid
  have hlengths := h.lengths
  have hleast := h.minLength_pos
  have hlongest := h.maxLength_le
  unfold Geohash.maxLength at hlongest
  have hmaxpos := h.maxZoom_pos
  have hmax31 : s.maxZoom ≤ 0x7fffffff := (IntegerRange.contains_iff.mp hmax).2
  have hspan31 : s.maxZoom - s.minZoom ≤ 0x7fffffff := (IntegerRange.contains_iff.mp hfits).2
  obtain ⟨hoffset0, hoffset1⟩ := zoomOffset_bounds h zoom
  obtain ⟨n, hn⟩ := Int.eq_ofNat_of_zero_le hoffset0
  obtain ⟨d, hd⟩ := Int.eq_ofNat_of_zero_le (hmaxpos.trans' Int.one_nonneg)
  have hkey := keyLength_eq h (zoomOffset_fits h hfits zoom)
  have hprogram := fun k hk => lt_lengthOffset_iff h (k := k) (n := n) (d := d) hk (by omega)
    (by omega) hd
  have hformula : ∀ k : Nat, (k : Int) < roundAway (n * (s.maxLength - s.minLength : Nat) / d) ↔
      (2 * k + 1) * d ≤ 2 * n * (s.maxLength - s.minLength) := fun k => lt_roundAway_iff (by omega)
  have hstrays : Strays zoom s ↔ s.maxLength - s.minLength = 11 ∧ 22 * n = 15 * d := by
    unfold Strays
    omega
  rw [hn] at hkey
  refine ⟨_, hkey, ?_⟩
  rw [formula_eq h hn hd]
  generalize lengthOffset n s = added at *
  generalize roundAway _ = exact at *
  split
  · rename_i hplace
    obtain ⟨hspan, hplace⟩ := hstrays.mp hplace
    have h6 := hprogram 6 (by omega)
    have h7 := hprogram 7 (by omega)
    have h7' := hformula 7
    have h8' := hformula 8
    rw [hspan] at h6 h7 h7' h8'
    omega
  · rename_i hplace
    refine held_eq hlengths fun k hk => ?_
    rw [hprogram k hk, hformula k]
    exact and_iff_left fun hstray => hplace (hstrays.mpr hstray.2)

/-- Keys of all lengths, over the zoom levels of a map as it is found on the web. -/
def wholeSpan : Settings := { minLength := 1, maxLength := 12, minZoom := 0, maxZoom := 22 }

theorem wholeSpan_strays : wholeSpan.validate = .ok () ∧ wholeSpan.ZoomFits ∧
    keyLength 15 wholeSpan = .ok 8 ∧ formula 15 wholeSpan = 9 ∧
    ∃ n, keyLength 16 wholeSpan = .ok n ∧ n = formula 16 wholeSpan := by
  have hvalid : wholeSpan.validate = .ok () := by rfl
  have hfits : wholeSpan.ZoomFits := by rfl
  obtain ⟨n, hkey, hplace⟩ := keyLength_follows_formula hvalid hfits (by rfl) 15
  obtain ⟨n', hkey', hplace'⟩ := keyLength_follows_formula hvalid hfits (by rfl) 16
  rw [if_pos (by decide)] at hplace
  rw [if_neg (by decide)] at hplace'
  exact ⟨hvalid, hfits, hplace.1 ▸ hkey, hplace.2, n', hkey', hplace'⟩

end Resolution

end Barogrid
