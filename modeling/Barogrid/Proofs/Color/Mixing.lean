import Mathlib
import Barogrid.Color.Gradient
import Barogrid.Proofs.Binary64.Between
import Barogrid.Proofs.Binary64.Error

/-!
# Mixed colors follow the gradient

A channel between `a` and `b` is computed as `a · (1 - t) + b · t`, in five roundings, of which none
keeps the order by itself.  But the stops are whole numbers and the numbers to be colored are
hundredths, so that two different exact channels lie a hundredth apart, and this is far more than what
the roundings can miss:

* `mixed_error` -- what they miss, at any `t` from zero to one;
* `mixChannel_bounds` -- so whole numbers around the exact channel hold the channel as well;
* `mixed_near` -- the channel, before it is made a whole number, is less than a four hundredth away
  from the exact one;
* `mixChannel_farther` -- so a channel **goes from its first stop toward its second and never back**;
* `Gradient.colorAt_farther` -- and so do the colors of a gradient of two stops.
-/

namespace Barogrid

open Binary64 (RoundsTo oneScale)

namespace Color

variable {a b : UInt8} {n n' : Nat} {t t' : Binary64}

/-! ## 1. The roundings -/

/-- The value `n / 100`, in units. -/
def hundredth (n : Nat) : ℚ := n / 100 * 2 ^ oneScale

/-- The exact channel, in units. -/
def exactChannel (a b : UInt8) (n : Nat) : ℚ :=
  (a.toNat + (b.toNat - a.toNat) * (n / 100)) * 2 ^ oneScale

/-- The exact channel at the double `t`, in units. -/
def blend (a b : UInt8) (t : Binary64) : ℚ :=
  a.toNat * 2 ^ oneScale + (b.toNat - a.toNat) * t.units

/-- The channel before it is made a whole number. -/
def mixed (a b : UInt8) (t : Binary64) : Binary64 :=
  Binary64.ofNat a.toNat * (1 - t) + Binary64.ofNat b.toNat * t

/-- One rounding of a number of at most eight binary digits before the point. -/
theorem rounding_near {v : ℚ} {x : Binary64} (h : RoundsTo v x) (hv : |v| ≤ 256 * 2 ^ oneScale) :
    x.isFinite = true ∧ |(x.units : ℚ) - v| ≤ 2 ^ oneScale / 2 ^ 46 := by
  obtain ⟨e, he, hplace⟩ : ∃ e : Nat, e ≤ 2044 ∧ (2 : ℚ) ^ oneScale = 2 ^ 45 * 2 ^ e :=
    ⟨1029, by decide, by rw [← pow_add]; rfl⟩
  have hv : |v| ≤ 2 ^ 53 * 2 ^ e := by
    refine hv.trans_eq ?_
    rw [hplace]
    ring
  have hfinite := h.isFinite_of_short he hv
  refine ⟨hfinite, (h.error_le hfinite hv).trans_eq ?_⟩
  rw [hplace]
  ring

theorem abs_toNat_le (a : UInt8) : |(a.toNat : ℚ)| ≤ 255 := by
  have h : (a.toNat : ℚ) ≤ 255 := by exact_mod_cast Nat.le_of_lt_succ a.toNat_lt
  rwa [abs_of_nonneg (Nat.cast_nonneg _)]

/-- A product with a channel. -/
theorem channel_mul_near (a : UInt8) {x : Binary64} (hx : x.isFinite = true)
    (hle : |(x.units : ℚ)| ≤ (1 + 1 / 255) * 2 ^ oneScale) :
    (Binary64.ofNat a.toNat * x).isFinite = true ∧
      |((Binary64.ofNat a.toNat * x).units : ℚ) - a.toNat * x.units| ≤ 2 ^ oneScale / 2 ^ 46 := by
  obtain ⟨hfinite, hunits⟩ := Binary64.ofNat_exact (n := a.toNat)
    ((Nat.le_of_lt a.toNat_lt).trans (by decide))
  have hone : (2 : ℚ) ^ oneScale ≠ 0 := by positivity
  have hmul := Binary64.mul_roundsTo hfinite hx
  have hvalue : ((Binary64.ofNat a.toNat).units : ℚ) * x.units / 2 ^ oneScale =
      a.toNat * x.units := by
    rw [hunits]
    push_cast
    field_simp
  rw [hvalue] at hmul
  refine rounding_near hmul ?_
  calc |(a.toNat : ℚ) * x.units| = |(a.toNat : ℚ)| * |(x.units : ℚ)| := abs_mul _ _
    _ ≤ 255 * ((1 + 1 / 255) * 2 ^ oneScale) := by
      gcongr
      exact abs_toNat_le a
    _ = 256 * 2 ^ oneScale := by ring

theorem abs_toNat_sub_le (a b : UInt8) : |(b.toNat : ℚ) - a.toNat| ≤ 255 := by
  have ha := abs_toNat_le a
  have hb := abs_toNat_le b
  rw [abs_of_nonneg (Nat.cast_nonneg _)] at ha hb
  have ha0 : (0 : ℚ) ≤ a.toNat := Nat.cast_nonneg _
  have hb0 : (0 : ℚ) ≤ b.toNat := Nat.cast_nonneg _
  exact abs_le.mpr ⟨by linarith, by linarith⟩

/-- How the errors of the second weight and of the two products add up. -/
theorem errors_add {A B t s p r one error : ℚ} (hA : |A| ≤ 255) (hs : |s - (one - t)| ≤ error)
    (hp : |p - A * s| ≤ error) (hr : |r - B * t| ≤ error) :
    |p + r - (A * one + (B - A) * t)| ≤ 257 * error := by
  have hAs : |A * (s - (one - t))| ≤ 255 * error := by
    rw [abs_mul]
    gcongr
  have hsplit : p + r - (A * one + (B - A) * t) = (p - A * s) + (r - B * t) + A * (s - (one - t)) := by
    ring
  rw [hsplit]
  rw [abs_le] at *
  constructor <;> linarith

section

variable (htf : t.isFinite = true) (h0 : 0 ≤ t.units) (h1 : t.units ≤ 2 ^ oneScale)

include h0 h1

/-- The exact channel lies between the channels that are mixed. -/
theorem blend_bounds {lo hi : ℚ} (ha : lo ≤ a.toNat ∧ (a.toNat : ℚ) ≤ hi)
    (hb : lo ≤ b.toNat ∧ (b.toNat : ℚ) ≤ hi) :
    lo * 2 ^ oneScale ≤ blend a b t ∧ blend a b t ≤ hi * 2 ^ oneScale := by
  have h0 : (0 : ℚ) ≤ t.units := by exact_mod_cast h0
  have h1 : (0 : ℚ) ≤ 2 ^ oneScale - t.units := by
    rw [sub_nonneg]
    exact_mod_cast h1
  have hweights : blend a b t = a.toNat * (2 ^ oneScale - t.units) + b.toNat * t.units := by
    unfold blend
    ring
  rw [hweights]
  constructor
  · calc lo * 2 ^ oneScale = lo * (2 ^ oneScale - t.units) + lo * t.units := by ring
      _ ≤ _ := add_le_add (mul_le_mul_of_nonneg_right ha.1 h1) (mul_le_mul_of_nonneg_right hb.1 h0)
  · calc _ ≤ hi * (2 ^ oneScale - t.units) + hi * t.units :=
          add_le_add (mul_le_mul_of_nonneg_right ha.2 h1) (mul_le_mul_of_nonneg_right hb.2 h0)
      _ = hi * 2 ^ oneScale := by ring

include htf

/-- **What the roundings after `t` miss.** -/
theorem mixed_error (a b : UInt8) : (mixed a b t).isFinite = true ∧
    |((mixed a b t).units : ℚ) - blend a b t| ≤ 258 * (2 ^ oneScale / 2 ^ 46) := by
  have hone : (0 : ℚ) < 2 ^ oneScale := by positivity
  have hblend : 0 * 2 ^ oneScale ≤ blend a b t ∧ blend a b t ≤ 255 * 2 ^ oneScale := blend_bounds h0 h1
    ⟨Nat.cast_nonneg _, (le_abs_self _).trans (abs_toNat_le a)⟩
    ⟨Nat.cast_nonneg _, (le_abs_self _).trans (abs_toNat_le b)⟩
  have h0 : (0 : ℚ) ≤ t.units := by exact_mod_cast h0
  have h1 : (t.units : ℚ) ≤ 2 ^ oneScale := by exact_mod_cast h1
  have hsub := Binary64.sub_roundsTo Binary64.one_units.1 htf
  rw [Binary64.one_units.2, Int.cast_pow, Int.cast_ofNat] at hsub
  obtain ⟨hsf, hs₁⟩ := rounding_near hsub (by rw [abs_le]; constructor <;> linarith)
  have hs₂ := abs_le.mp hs₁
  obtain ⟨hpf, hp₁⟩ := channel_mul_near a hsf (by rw [abs_le]; constructor <;> linarith)
  obtain ⟨hqf, hq₁⟩ := channel_mul_near b htf (by rw [abs_le]; constructor <;> linarith)
  have hsum := errors_add (abs_toNat_le a) hs₁ hp₁ hq₁
  have hsum₂ := abs_le.mp hsum
  obtain ⟨hxf, hx₁⟩ := rounding_near (Binary64.add_roundsTo hpf hqf)
    (by rw [abs_le]; unfold blend at hblend; constructor <;> linarith)
  refine ⟨hxf, ?_⟩
  have hx₂ := abs_le.mp hx₁
  rw [abs_le]
  unfold mixed blend
  constructor <;> linarith

end

theorem within_one_iff (htf : t.isFinite = true) :
    t.within 0 1 = true ↔ 0 ≤ t.units ∧ t.units ≤ 2 ^ oneScale := by
  rw [Binary64.within_iff, Binary64.between_iff_units Binary64.zero_units.1 Binary64.one_units.1 htf,
    Binary64.zero_units.2, Binary64.one_units.2]

/-- A hundredth of at most 100 is rounded to a double from zero to one. -/
theorem hundredth_bounds (hn : n ≤ 100) (ht : RoundsTo (hundredth n) t) :
    t.isFinite = true ∧ (0 ≤ t.units ∧ t.units ≤ 2 ^ oneScale) ∧
      |(t.units : ℚ) - hundredth n| ≤ 2 ^ oneScale / 2 ^ 46 := by
  have hone : (0 : ℚ) < 2 ^ oneScale := by positivity
  have hn0 : 0 ≤ hundredth n :=
    mul_nonneg (div_nonneg (Nat.cast_nonneg n) (by norm_num)) hone.le
  have hn1 : hundredth n ≤ 2 ^ oneScale := by
    have hq : (n : ℚ) / 100 ≤ 1 := (div_le_one (by norm_num)).mpr (by exact_mod_cast hn)
    unfold hundredth
    exact mul_le_of_le_one_left hone.le hq
  obtain ⟨htf, hnear⟩ := rounding_near ht (by rw [abs_of_nonneg hn0]; linarith)
  have hwithin := ht.between Binary64.zero_units.1 Binary64.one_units.1 (by
    rw [Binary64.zero_units.2, Binary64.one_units.2]
    exact ⟨by exact_mod_cast hn0, by exact_mod_cast hn1⟩)
  exact ⟨htf, (within_one_iff htf).mp (Binary64.within_iff.mpr hwithin), hnear⟩

/-- **What five roundings miss is less than a four hundredth.** -/
theorem mixed_near (hn : n ≤ 100) (ht : RoundsTo (hundredth n) t) :
    (mixed a b t).isFinite = true ∧
      |((mixed a b t).units : ℚ) - exactChannel a b n| ≤ 2 ^ oneScale / 400 := by
  have hone : (0 : ℚ) < 2 ^ oneScale := by positivity
  obtain ⟨htf, ⟨h0, h1⟩, hnear⟩ := hundredth_bounds hn ht
  obtain ⟨hxf, herror⟩ := mixed_error htf h0 h1 a b
  have hway : |((b.toNat : ℚ) - a.toNat) * (t.units - hundredth n)| ≤
      255 * (2 ^ oneScale / 2 ^ 46) := by
    rw [abs_mul]
    gcongr
    exact abs_toNat_sub_le a b
  have hsplit : blend a b t - exactChannel a b n =
      ((b.toNat : ℚ) - a.toNat) * (t.units - hundredth n) := by
    unfold blend exactChannel hundredth
    ring
  rw [← hsplit] at hway
  refine ⟨hxf, ?_⟩
  rw [abs_le] at *
  constructor <;> linarith

/-! ## 2. The channels -/

theorem toNat_mixChannel (a b : UInt8) (t : Binary64) :
    (mixChannel a b t).toNat = min (mixed a b t).roundNat 255 := by
  show (UInt8.ofNat (min (mixed a b t).roundNat 255)).toNat = _
  rw [UInt8.toNat_ofNat']
  exact Nat.mod_eq_of_lt (by omega)

theorem mixChannel_le (h : mixed a b t ≤ mixed a b t') : mixChannel a b t ≤ mixChannel a b t' := by
  have hround := Binary64.roundNat_mono h
  rw [UInt8.le_iff_toNat_le, toNat_mixChannel, toNat_mixChannel]
  omega

/-- Exact channels a hundredth apart are not confused. -/
theorem mixed_le (hn : n ≤ 100) (hn' : n' ≤ 100) (ht : RoundsTo (hundredth n) t)
    (ht' : RoundsTo (hundredth n') t')
    (h : exactChannel a b n + 2 ^ oneScale / 100 ≤ exactChannel a b n') :
    mixed a b t ≤ mixed a b t' := by
  have hone : (0 : ℚ) < 2 ^ oneScale := by positivity
  obtain ⟨hx, hnear⟩ := mixed_near (a := a) (b := b) hn ht
  obtain ⟨hx', hnear'⟩ := mixed_near (a := a) (b := b) hn' ht'
  rw [abs_le] at hnear hnear'
  rw [Binary64.le_iff_units_le hx hx', ← Int.cast_le (R := ℚ)]
  linarith

/-- A way of at least one is a hundredth for each hundredth of the way. -/
theorem exactChannel_add_le (hab : a < b) (hn : n < n') :
    exactChannel a b n + 2 ^ oneScale / 100 ≤ exactChannel a b n' ∧
      exactChannel b a n' + 2 ^ oneScale / 100 ≤ exactChannel b a n := by
  have hone : (0 : ℚ) < 2 ^ oneScale := by positivity
  have hway : (a.toNat : ℚ) + 1 ≤ b.toNat := by exact_mod_cast UInt8.lt_iff_toNat_lt.mp hab
  have hstep : (n : ℚ) + 1 ≤ n' := by exact_mod_cast hn
  have hproduct : 1 ≤ ((b.toNat : ℚ) - a.toNat) * (n' - n) :=
    one_le_mul_of_one_le_of_one_le (by linarith) (by linarith)
  have hscaled := mul_le_mul_of_nonneg_right hproduct hone.le
  unfold exactChannel
  constructor <;> linarith

/-- **A channel is rounded into the whole numbers that hold the exact one.** -/
theorem mixChannel_bounds (htf : t.isFinite = true) (h0 : 0 ≤ t.units) (h1 : t.units ≤ 2 ^ oneScale)
    {lo hi : Nat} (hword : lo ≤ 255) (hlo : lo * 2 ^ oneScale ≤ blend a b t)
    (hhi : blend a b t ≤ hi * 2 ^ oneScale) :
    lo ≤ (mixChannel a b t).toNat ∧ (mixChannel a b t).toNat ≤ hi := by
  have hone : (0 : ℚ) < 2 ^ oneScale := by positivity
  obtain ⟨hx, herror⟩ := mixed_error htf h0 h1 a b
  rw [abs_le] at herror
  have hbelow : (2 * lo - 1 : Int) * 2 ^ oneScale ≤ 2 * (mixed a b t).units := by
    rw [← Int.cast_le (R := ℚ)]
    push_cast
    linarith
  have habove : 2 * (mixed a b t).units < (2 * hi + 1 : Int) * 2 ^ oneScale := by
    rw [← Int.cast_lt (R := ℚ)]
    push_cast
    linarith
  have hround := Binary64.roundNat_bounds hx (hword.trans (by decide)) hbelow habove
  rw [toNat_mixChannel]
  omega

/-- Between equal channels there is nothing else. -/
theorem mixChannel_self (htf : t.isFinite = true) (h0 : 0 ≤ t.units) (h1 : t.units ≤ 2 ^ oneScale) :
    mixChannel a a t = a := by
  have hbounds := blend_bounds h0 h1 (a := a) (b := a) ⟨le_rfl, le_rfl⟩ ⟨le_rfl, le_rfl⟩
  have hsame := mixChannel_bounds htf h0 h1 (Nat.le_of_lt_succ a.toNat_lt) hbounds.1 hbounds.2
  rw [← UInt8.toNat_inj]
  omega

/-- On the way from `a` to `b`, `y` is at least as far as `x`. -/
def Farther (a b x y : UInt8) : Prop := (a < b → x ≤ y) ∧ (b < a → y ≤ x) ∧ (a = b → x = y)

/-- **A channel goes from its first stop toward its second and never back.** -/
theorem mixChannel_farther (hn : n < n') (hn' : n' ≤ 100) (ht : RoundsTo (hundredth n) t)
    (ht' : RoundsTo (hundredth n') t') : Farther a b (mixChannel a b t) (mixChannel a b t') := by
  have hn₁ : n ≤ 100 := by omega
  refine ⟨fun hab => ?_, fun hab => ?_, fun hab => ?_⟩
  · exact mixChannel_le (mixed_le hn₁ hn' ht ht' (exactChannel_add_le hab hn).1)
  · exact mixChannel_le (mixed_le hn' hn₁ ht' ht (exactChannel_add_le hab hn).2)
  · subst hab
    obtain ⟨htf, ⟨h0, h1⟩, -⟩ := hundredth_bounds hn₁ ht
    obtain ⟨htf', ⟨h0', h1'⟩, -⟩ := hundredth_bounds hn' ht'
    rw [mixChannel_self htf h0 h1, mixChannel_self htf' h0' h1']

end Color

/-! ## 3. Gradients of two stops -/

namespace Gradient

open Color (mixChannel hundredth Farther)

theorem ofNat_within {n : Nat} (hn : n ≤ 100) : (Binary64.ofNat n).within 0 100 = true := by
  have hlo : (0 : Binary64) ≤ Binary64.ofNat n := Binary64.ofNat_le (Nat.zero_le n)
  have hhi : Binary64.ofNat n ≤ 100 := Binary64.ofNat_le hn
  exact Binary64.within_iff.mpr ⟨hlo, hhi⟩

/-- The range of one segment is the whole range. -/
theorem width_one : (100 / Binary64.ofNat 1).isFinite = true ∧
    (100 / Binary64.ofNat 1).units = 100 * 2 ^ oneScale := by
  have hone : (2 : ℚ) ^ oneScale ≠ 0 := by positivity
  obtain ⟨h₁, hunits₁⟩ := Binary64.ofNat_exact (n := 100) (by decide)
  have hdiv := Binary64.div_roundsTo h₁ Binary64.one_units.1
    (Binary64.isZero_of_units_pos (by rw [Binary64.one_units.2]; positivity))
  have hvalue : ((Binary64.ofNat 100).units : ℚ) / (1 : Binary64).units * 2 ^ oneScale =
      (Binary64.ofNat 100).units := by
    rw [Binary64.one_units.2]
    push_cast
    field_simp
  obtain ⟨hfinite, hunits⟩ := hdiv.exact h₁ hvalue
  exact ⟨hfinite, hunits.trans hunits₁⟩

/-- On one segment, `n` stands at `n / 100`. -/
theorem position_roundsTo {n : Nat} (hn : n ≤ 100) :
    RoundsTo (hundredth n) ((Binary64.ofNat n - Binary64.ofNat 0 * (100 / Binary64.ofNat 1)) /
      (100 / Binary64.ofNat 1)) := by
  have hone : (2 : ℚ) ^ oneScale ≠ 0 := by positivity
  obtain ⟨hx, hunits⟩ := Binary64.ofNat_exact (n := n) (hn.trans (by decide))
  obtain ⟨h₀, hunits₀⟩ := Binary64.ofNat_exact (n := 0) (by decide)
  obtain ⟨hw, hunitsw⟩ := width_one
  generalize 100 / Binary64.ofNat 1 = width at hw hunitsw ⊢
  obtain ⟨hmul, hmulunits⟩ := (Binary64.mul_roundsTo h₀ hw).exact h₀ (by rw [hunits₀]; simp)
  obtain ⟨hsub, hsubunits⟩ := (Binary64.sub_roundsTo hx hmul).exact hx
    (by rw [hmulunits, hunits₀]; simp)
  have hdiv := Binary64.div_roundsTo hsub hw
    (Binary64.isZero_of_units_pos (by rw [hunitsw]; positivity))
  have hvalue : ((Binary64.ofNat n - Binary64.ofNat 0 * width).units : ℚ) / width.units *
      2 ^ oneScale = hundredth n := by
    rw [hsubunits, hunits, hunitsw]
    unfold hundredth
    push_cast
    field_simp
  rwa [hvalue] at hdiv

/-- Between two stops, the color of `n` is mixed at `n / 100`. -/
theorem colorAt_pair {g : Gradient} {a b : Color} (h : g.stops = [a, b]) {n : Nat} (hn : n ≤ 100) :
    ∃ t, RoundsTo (hundredth n) t ∧ g.colorAt (Binary64.ofNat n) =
      ⟨mixChannel a.red b.red t, mixChannel a.green b.green t, mixChannel a.blue b.blue t⟩ := by
  obtain ⟨stops, size⟩ := g
  obtain rfl : stops = [a, b] := h
  have ht := position_roundsTo hn
  refine ⟨_, ht, ?_⟩
  have hx := (Binary64.ofNat_exact (n := n) (hn.trans (by decide))).1
  have hrange : ((Binary64.ofNat n - Binary64.ofNat 0 * (100 / Binary64.ofNat 1)) /
      (100 / Binary64.ofNat 1)).within 0 1 = true := by
    obtain ⟨htf, hbounds, -⟩ := Color.hundredth_bounds hn ht
    exact (Color.within_one_iff htf).mpr hbounds
  simp only [colorAt, segments, Binary64.isNaN_of_isFinite hx, Bool.false_eq_true, ↓reduceIte,
    Binary64.clamp_eq_self (ofNat_within hn), List.length_cons, List.length_nil, Nat.add_one_sub_one,
    Nat.sub_self, Nat.zero_add, Nat.min_zero, List.getElem_cons_zero, List.getElem_cons_succ,
    Color.mix, Binary64.clamp_eq_self hrange]

/-- **The color of a greater number is at least as far from the first stop toward the second**, in
each channel. -/
theorem colorAt_farther {g : Gradient} {a b : Color} (h : g.stops = [a, b]) {n n' : Nat}
    (hn : n ≤ n') (hn' : n' ≤ 100) {channel : Color → UInt8}
    (hchannel : channel ∈ [Color.red, Color.green, Color.blue]) :
    Farther (channel a) (channel b) (channel (g.colorAt (Binary64.ofNat n)))
      (channel (g.colorAt (Binary64.ofNat n'))) := by
  rcases hn.lt_or_eq with hlt | rfl
  · obtain ⟨t, ht, hcolor⟩ := colorAt_pair h (hlt.le.trans hn')
    obtain ⟨t', ht', hcolor'⟩ := colorAt_pair h hn'
    rw [hcolor, hcolor']
    simp only [List.mem_cons, List.not_mem_nil, or_false] at hchannel
    rcases hchannel with rfl | rfl | rfl <;> exact Color.mixChannel_farther hlt hn' ht ht'
  · exact ⟨fun _ => UInt8.le_refl _, fun _ => UInt8.le_refl _, fun _ => rfl⟩

end Gradient

end Barogrid
