import Mathlib
import Barogrid.Proofs.Binary64.Between
import Barogrid.Proofs.Color.Mixing

/-!
# The ramp of a gradient

A number is moved into the range from 0 to 100, a quotient without its fraction says in which segment of
the gradient it lies, and a second quotient at which place of the segment the stops are mixed.  Both
quotients are rounded.  The first could lead into the wrong segment and the second out of the right one.
Neither happens:

* `segmentAt_eq` -- **the quotient finds the segment**, for even the greatest double below 50 is not
  rounded up to a whole one;
* `mix_between` -- **a mixed color lies between the two**, channel by channel, at whatever place;
* `mix_first`, `mix_last` -- at the ends it is one of the two;
* `ramp_follows_stops` -- what this means for the color of a number.
-/

namespace Barogrid

open Binary64 (oneScale)

namespace Color

variable {t : Binary64}

/-! ## 1. Mixed colors -/

/-- Each channel of `c` lies between those of `a` and `b`, ends included. -/
def Between (a b c : Color) : Prop :=
  ∀ channel ∈ [red, green, blue], (channel a ≤ channel c ∧ channel c ≤ channel b) ∨
    (channel b ≤ channel c ∧ channel c ≤ channel a)

/-- The place at which colors are mixed is one from zero to one. -/
theorem place_bounds (ht : t.isNaN = false) : (t.clamp 0 1).isFinite = true ∧
    0 ≤ (t.clamp 0 1).units ∧ (t.clamp 0 1).units ≤ 2 ^ oneScale := by
  have hwithin : (t.clamp 0 1).within 0 1 = true := Binary64.clamp_within ht (by decide)
  have hfinite := (Binary64.within_iff.mp hwithin).isFinite (by decide) Binary64.one_units.1
  exact ⟨hfinite, (within_one_iff hfinite).mp hwithin⟩

/-- A channel at a place from zero to one lies between the two that are mixed. -/
theorem mixChannel_between (htf : t.isFinite = true) (h0 : 0 ≤ t.units) (h1 : t.units ≤ 2 ^ oneScale)
    (a b : UInt8) : (a ≤ mixChannel a b t ∧ mixChannel a b t ≤ b) ∨
      (b ≤ mixChannel a b t ∧ mixChannel a b t ≤ a) := by
  simp only [UInt8.le_iff_toNat_le]
  rcases Nat.le_total a.toNat b.toNat with hab | hba
  · have habq : (a.toNat : ℚ) ≤ b.toNat := by exact_mod_cast hab
    have hblend := blend_bounds h0 h1 ⟨le_rfl, habq⟩ ⟨habq, le_rfl⟩
    exact Or.inl (mixChannel_bounds htf h0 h1 (Nat.le_of_lt_succ a.toNat_lt) hblend.1 hblend.2)
  · have hbaq : (b.toNat : ℚ) ≤ a.toNat := by exact_mod_cast hba
    have hblend := blend_bounds h0 h1 ⟨hbaq, le_rfl⟩ ⟨le_rfl, hbaq⟩
    exact Or.inr (mixChannel_bounds htf h0 h1 (Nat.le_of_lt_succ b.toNat_lt) hblend.1 hblend.2)

/-- **A mixed color lies between the two.** -/
theorem mix_between (ht : t.isNaN = false) (a b : Color) : Between a b (a.mix b t) := by
  obtain ⟨htf, h0, h1⟩ := place_bounds ht
  intro channel hchannel
  simp only [List.mem_cons, List.not_mem_nil, or_false] at hchannel
  obtain rfl | rfl | rfl := hchannel <;> exact mixChannel_between htf h0 h1 _ _

/-- At zero, the first color is left as it is. -/
theorem mix_first (ht : (t.clamp 0 1).isZero = true) (a b : Color) : a.mix b t = a := by
  obtain ⟨hfinite, hunits⟩ := Binary64.isZero_iff.mp ht
  have hchannel : ∀ a b : UInt8, mixChannel a b (t.clamp 0 1) = a := by
    intro a b
    have hblend : blend a b (t.clamp 0 1) = a.toNat * 2 ^ oneScale := by
      rw [blend, hunits]
      simp
    have hsame := mixChannel_bounds hfinite hunits.ge (hunits.trans_le (by positivity))
      (Nat.le_of_lt_succ a.toNat_lt) hblend.ge hblend.le
    rw [← UInt8.toNat_inj]
    omega
  unfold mix
  simp only [hchannel]

/-- At one, the second color is left as it is. -/
theorem mix_last (ht : t.clamp 0 1 = 1) (a b : Color) : a.mix b t = b := by
  obtain ⟨hfinite, hunits⟩ := Binary64.one_units
  have hchannel : ∀ a b : UInt8, mixChannel a b 1 = b := by
    intro a b
    have hblend : blend a b 1 = b.toNat * 2 ^ oneScale := by
      rw [blend, hunits]
      push_cast
      ring
    have hsame := mixChannel_bounds hfinite (hunits.symm ▸ by positivity) hunits.le
      (Nat.le_of_lt_succ b.toNat_lt) hblend.ge hblend.le
    rw [← UInt8.toNat_inj]
    omega
  unfold mix
  simp only [ht, hchannel]

end Color

namespace Gradient

variable {stops : List Color} {g : Gradient} {x y : Binary64} {n : Nat}

/-! ## 2. Segments -/

/-- The number that is colored in place of `x`: one from 0 to 100. -/
def shown (x : Binary64) : Binary64 := if x.isNaN then 0 else x.clamp 0 100

/-- The length of each of `n` segments. -/
def stride (n : Nat) : Binary64 := 100 / Binary64.ofNat n

/-- The segment, out of `n`, to which the quotient leads. -/
def segmentAt (n : Nat) (y : Binary64) : Nat := min (y / stride n).floorNat (n - 1)

/-- The place of a number in the segment. -/
def placeAt (n : Nat) (y : Binary64) : Binary64 :=
  (y - Binary64.ofNat (segmentAt n y) * stride n) / stride n

/-- The segment of a number between so many stops: of two segments, the second begins at 50. -/
def segmentOf (count : Nat) (y : Binary64) : Nat := if count = 3 ∧ 50 ≤ y then 1 else 0

/-- **The color is mixed from two stops that are there.** -/
theorem colorAt_eq_mix (g : Gradient) (x : Binary64) :
    ∃ a b, g.stops[segmentAt g.segments (shown x)]? = some a ∧
      g.stops[segmentAt g.segments (shown x) + 1]? = some b ∧
      g.colorAt x = a.mix b (placeAt g.segments (shown x)) := by
  have hnext : segmentAt g.segments (shown x) + 1 < g.stops.length := g.segment_lt _
  exact ⟨_, _, List.getElem?_eq_getElem (Nat.lt_of_succ_lt hnext), List.getElem?_eq_getElem hnext, rfl⟩

theorem shown_between (x : Binary64) : Binary64.Between 0 100 (shown x) := by
  unfold shown
  split
  · exact ⟨by decide, by decide⟩
  · rename_i hnumber
    exact Binary64.within_iff.mp (Binary64.clamp_within (by simpa using hnumber) (by decide))

/-- The greatest double below 50. -/
def belowFifty : Binary64 := ⟨false, (50 : Binary64).magnitude - 1, by decide +kernel⟩

theorem le_belowFifty (hy : y.isNaN = false) (h : ¬ 50 ≤ y) : y ≤ belowFifty := by
  have hfifty : (50 : Binary64).isNaN = false := by decide
  have hbelow : belowFifty.isNaN = false := by decide
  have hrank : belowFifty.rank = (50 : Binary64).rank - 1 := by decide
  rw [Binary64.le_iff] at h ⊢
  refine ⟨hy, hbelow, ?_⟩
  have hless : ¬ (50 : Binary64).rank ≤ y.rank := fun hle => h ⟨hfifty, hy, hle⟩
  omega

/-- **The quotient finds the segment.** -/
theorem segmentAt_eq (hsize : 2 ≤ n ∧ n ≤ 3) (hy : Binary64.Between 0 100 y) :
    segmentAt (n - 1) y = segmentOf n y := by
  obtain rfl | rfl : n = 2 ∨ n = 3 := by omega
  · simp [segmentAt, segmentOf]
  have hstride : stride 2 = 50 := by decide
  have hdiv := Binary64.div_follows (c := 50) (by decide) (by decide)
  have hquotient : Binary64.Between (0 / 50) (100 / 50) (y / 50) := ⟨hdiv.le hy.1, hdiv.le hy.2⟩
  have hfinite := hquotient.isFinite (by decide) (by decide)
  have hfloor := Binary64.le_floorNat_iff hfinite (k := 1) le_rfl
  show min (y / stride 2).floorNat 1 = _
  unfold segmentOf
  rw [hstride]
  by_cases hfifty : (50 : Binary64) ≤ y
  · have hone : (1 : Binary64) ≤ y / 50 :=
      Binary64.le_trans (y := 50 / 50) (by decide) (hdiv.le hfifty)
    have hunits := (Binary64.le_iff_units_le Binary64.one_units.1 hfinite).mp hone
    rw [Binary64.one_units.2] at hunits
    have hreached := hfloor.mpr ⟨by decide, by push_cast; omega⟩
    rw [if_pos ⟨rfl, hfifty⟩]
    omega
  · have hbelow := hdiv.le (le_belowFifty (Binary64.le_iff.mp hy.1).2.1 hfifty)
    have hless := (Binary64.le_iff_units_le hfinite (by decide)).mp hbelow
    have hone := (Binary64.lt_iff_units_lt (x := belowFifty / 50) (by decide)
      Binary64.one_units.1).mp (by decide)
    rw [Binary64.one_units.2] at hone
    have hmissed : ¬ 1 ≤ (y / 50).floorNat := by
      intro hreached
      have hunits := (hfloor.mp hreached).2
      push_cast at hunits
      omega
    rw [if_neg fun h => hfifty h.2]
    omega

/-- The place is a number. -/
theorem placeAt_isNaN (hsize : 2 ≤ n ∧ n ≤ 3) (hy : Binary64.Between 0 100 y) :
    (placeAt (n - 1) y).isNaN = false := by
  have hnumber := (Binary64.le_iff.mp hy.1).2.1
  unfold placeAt
  rw [segmentAt_eq hsize hy]
  obtain rfl | rfl : n = 2 ∨ n = 3 := by omega
  · have hstart : (Binary64.ofNat 0 * stride 1).isFinite = true := by decide
    have hdiv := Binary64.div_follows (c := stride 1) (by decide) (by decide)
    exact hdiv.isNaN ((Binary64.sub_follows hstart).isNaN hnumber)
  · have hstart : (Binary64.ofNat (segmentOf 3 y) * stride 2).isFinite = true := by
      unfold segmentOf
      split <;> decide
    have hdiv := Binary64.div_follows (c := stride 2) (by decide) (by decide)
    exact hdiv.isNaN ((Binary64.sub_follows hstart).isNaN hnumber)

/-! ## 3. The ends of the range -/

/-- What is not positive is shown as a zero. -/
theorem shown_of_nonpos (h : x.isNaN = true ∨ x ≤ 0) : ∃ negative, shown x = .zero negative := by
  rcases h with hnan | hle
  · refine ⟨false, ?_⟩
    rw [shown, if_pos hnan]
    decide
  obtain ⟨hnumber, -, hrank⟩ := Binary64.le_iff.mp hle
  have hzero : (0 : Binary64).rank = 0 := by decide
  rw [hzero] at hrank
  rw [shown, hnumber, if_neg (by simp)]
  rcases hrank.lt_or_eq with hlt | heq
  · refine ⟨false, ?_⟩
    have hbelow : x < 0 := Binary64.lt_iff.mpr ⟨hnumber, by decide, by rwa [hzero]⟩
    unfold Binary64.clamp
    rw [if_pos hbelow]
    decide
  · have hmagnitude : x.magnitude = 0 := by
      unfold Binary64.rank Binary64.signed at heq
      split at heq <;> omega
    refine ⟨x.negative, ?_⟩
    rw [Binary64.eq_zero (show x.isZero = true by simp [Binary64.isZero, hmagnitude])]
    cases x.negative <;> decide

theorem shown_of_hundred_le (h : 100 ≤ x) : shown x = 100 := by
  obtain ⟨-, hnumber, hrank⟩ := Binary64.le_iff.mp h
  rw [shown, hnumber, if_neg (by simp)]
  exact Binary64.clamp_eq_hi (by decide) (by decide) hnumber hrank

theorem segmentOf_zero (n : Nat) (negative : Bool) : segmentOf n (.zero negative) = 0 := by
  have hbelow : ¬ (50 : Binary64) ≤ .zero negative := by cases negative <;> decide
  exact if_neg fun h => hbelow h.2

theorem segmentOf_hundred (hsize : 2 ≤ n ∧ n ≤ 3) : segmentOf n 100 = n - 2 := by
  obtain rfl | rfl : n = 2 ∨ n = 3 := by omega
  · rfl
  · exact if_pos ⟨rfl, by decide⟩

/-- A zero is at the place zero of its segment, -/
theorem placeAt_zero (hsize : 2 ≤ n ∧ n ≤ 3) (negative : Bool) :
    ((placeAt (n - 1) (.zero negative)).clamp 0 1).isZero = true := by
  obtain rfl | rfl : n = 2 ∨ n = 3 := by omega
  · cases negative <;> decide
  · cases negative <;> decide

/-- and 100 is at the place one. -/
theorem placeAt_hundred (hsize : 2 ≤ n ∧ n ≤ 3) : (placeAt (n - 1) 100).clamp 0 1 = 1 := by
  obtain rfl | rfl : n = 2 ∨ n = 3 := by omega
  · decide +kernel
  · decide +kernel

/-! ## 4. The ramp -/

/-- **The ramp.**  Numbers up to zero and NaNs have the color of the first stop, numbers from 100 on that of
the last one, and 50 that of the stop in the middle if there is one.  Every number lies in a segment at
whose ends there are stops; its color is mixed from these, and each channel lies between theirs. -/
theorem ramp_follows_stops (hg : ofStops stops = .ok g) (x : Binary64) :
    (x.isNaN = true ∨ x ≤ 0 → stops.head? = some (g.colorAt x)) ∧
    (100 ≤ x → stops.getLast? = some (g.colorAt x)) ∧
    (stops.length = 3 → stops[1]? = some (g.colorAt 50)) ∧
    ∃ a b t, stops[segmentOf stops.length (shown x)]? = some a ∧
      stops[segmentOf stops.length (shown x) + 1]? = some b ∧
      g.colorAt x = a.mix b t ∧ Color.Between a b (g.colorAt x) := by
  obtain ⟨hsize, rfl⟩ : ∃ hsize, g = ⟨stops, hsize⟩ := by
    unfold ofStops at hg
    split at hg
    · rename_i hsize
      exact ⟨hsize, (Except.ok.inj hg).symm⟩
    · cases hg
  have hmix : ∀ y, ∃ a b, stops[segmentOf stops.length (shown y)]? = some a ∧
      stops[segmentOf stops.length (shown y) + 1]? = some b ∧
      (⟨stops, hsize⟩ : Gradient).colorAt y = a.mix b (placeAt (stops.length - 1) (shown y)) := by
    intro y
    rw [← segmentAt_eq hsize (shown_between y)]
    exact colorAt_eq_mix ⟨stops, hsize⟩ y
  obtain ⟨a, b, hfirst, hsecond, hcolor⟩ := hmix x
  refine ⟨fun hlow => ?_, fun hhigh => ?_, fun hthree => ?_, a, b, _, hfirst, hsecond, hcolor, ?_⟩
  · obtain ⟨negative, hzero⟩ := shown_of_nonpos hlow
    rw [hzero, segmentOf_zero] at hfirst
    rw [List.head?_eq_getElem?, hfirst, hcolor, hzero, Color.mix_first (placeAt_zero hsize negative)]
  · rw [shown_of_hundred_le hhigh, segmentOf_hundred hsize] at hsecond
    have hlast : stops.length - 2 + 1 = stops.length - 1 := by omega
    rw [hlast] at hsecond
    rw [List.getLast?_eq_getElem?, hsecond, hcolor, shown_of_hundred_le hhigh,
      Color.mix_last (placeAt_hundred hsize)]
  · obtain ⟨a, b, hmiddle, -, hcolor⟩ := hmix 50
    have hshown : shown 50 = 50 := by decide +kernel
    have hsegment : segmentOf 3 50 = 1 := by decide +kernel
    rw [hshown, hthree, hsegment] at hmiddle
    rw [hmiddle, hcolor, hshown, hthree, Color.mix_first (by decide +kernel)]
  · rw [hcolor]
    exact Color.mix_between (placeAt_isNaN hsize (shown_between x)) a b

/-- Blue, white and red, as weather maps have them. -/
def weather : Gradient := ⟨[⟨0, 0, 255⟩, ⟨255, 255, 255⟩, ⟨255, 0, 0⟩], by decide⟩

theorem weather_follows_stops :
    weather.colorAt (Binary64.nan true) = ⟨0, 0, 255⟩ ∧
    weather.colorAt (Binary64.infinity false) = ⟨255, 0, 0⟩ ∧
    weather.colorAt 50 = ⟨255, 255, 255⟩ ∧
    Color.Between ⟨0, 0, 255⟩ ⟨255, 255, 255⟩ (weather.colorAt belowFifty) := by
  have hstops : ofStops weather.stops = .ok weather := rfl
  obtain ⟨hfirst, -⟩ := ramp_follows_stops hstops (Binary64.nan true)
  obtain ⟨-, hlast, -⟩ := ramp_follows_stops hstops (Binary64.infinity false)
  obtain ⟨-, -, hmiddle, a, b, t, ha, hb, -, hbetween⟩ := ramp_follows_stops hstops belowFifty
  have hsegment : segmentOf 3 (shown belowFifty) = 0 := by decide +kernel
  have hlow := hfirst (Or.inl (by decide +kernel))
  have hhigh := hlast (by decide +kernel)
  rw [show weather.stops.length = 3 from rfl, hsegment] at ha hb
  obtain rfl : (⟨0, 0, 255⟩ : Color) = a := Option.some.inj ha
  obtain rfl : (⟨255, 255, 255⟩ : Color) = b := Option.some.inj hb
  exact ⟨(Option.some.inj hlow).symm, (Option.some.inj hhigh).symm,
    (Option.some.inj (hmiddle rfl)).symm, hbetween⟩

end Gradient

end Barogrid
