import Mathlib
import Barogrid.Proofs.Binary64.Between
import Barogrid.Proofs.Geohash.Translation

/-!
# Cells within cells

A hash that begins with another one leads on from the cell of this one, by more halvings.  On doubles a
half stays within its interval even where the interval has become too narrow for a middle of its own,
because the middle of two doubles is never rounded beyond them.

* `Bounds.Sound` -- bounds on the globe, with their ends in order; `Bounds.Sound.half`: **halving keeps this
  and stays within the bounds**, and so does a row of answers of any length (`follow_sound`);
* `Hash.Extends` -- a hash begins with another one; `Hash.Extends.within`: its cell lies within that of the
  other;
* `encode_shorter_iff` -- **the shorter hash of a place is what the longer one begins with**;
* `Hash.width_value` -- up to twelve digits **the width of a cell is exact**, a power of two of the globe;
* `decode_nests` -- what this means for texts.
-/

namespace Barogrid

open Binary64 (Between)

/-! ## 1. Halving on doubles -/

/-- The bounds lie within others, which they may touch. -/
def Bounds.Within (inner outer : Bounds) : Prop :=
  ∀ x, (outer.along x).lo ≤ (inner.along x).lo ∧ (inner.along x).hi ≤ (outer.along x).hi

/-- The bounds lie on the globe, and their ends are in order. -/
structure Bounds.Sound (b : Bounds) : Prop where
  within : b.Within world
  ordered : ∀ x, (b.along x).lo ≤ (b.along x).hi

namespace Bounds

/-- On the globe doubling does not overflow. -/
theorem double_isFinite {x : Axis} {y : Binary64}
    (hy : Between (world.along x).lo (world.along x).hi y) : (y + y).isFinite = true := by
  have hlo : ((world.along x).lo + (world.along x).lo).isFinite = true := by
    cases x <;> decide +kernel
  have hhi : ((world.along x).hi + (world.along x).hi).isFinite = true := by
    cases x <;> decide +kernel
  exact (Binary64.add_between hlo hhi hy hy).isFinite hlo hhi

variable {b b' b'' : Bounds}

theorem Within.trans (h : b.Within b') (h' : b'.Within b'') : b.Within b'' :=
  fun x => ⟨Binary64.le_trans (h' x).1 (h x).1, Binary64.le_trans (h x).2 (h' x).2⟩

/-- Bounds whose ends are numbers lie within themselves. -/
theorem within_self (h : ∀ x, (b.along x).lo ≤ (b.along x).hi) : b.Within b := by
  intro x
  obtain ⟨hlo, hhi, -⟩ := Binary64.le_iff.mp (h x)
  exact ⟨Binary64.le_self hlo, Binary64.le_self hhi⟩

theorem world_sound : world.Sound :=
  ⟨within_self Geohash.world_lo_le_hi, Geohash.world_lo_le_hi⟩

namespace Sound

/-- **The middle lies between the ends.** -/
theorem mid_between (h : b.Sound) (x : Axis) :
    Between (b.along x).lo (b.along x).hi (b.along x).mid := by
  obtain ⟨hlo, hhi⟩ := h.within x
  have hord := h.ordered x
  have hself := within_self h.ordered x
  have hlo₂ := double_isFinite ⟨hlo, Binary64.le_trans hord hhi⟩
  have hhi₂ := double_isFinite ⟨Binary64.le_trans hlo hord, hhi⟩
  exact Binary64.half_between hlo₂ hhi₂ ⟨hself.1, hord⟩ ⟨hord, hself.2⟩

/-- **Half of the bounds lies within them**, and its ends are in order. -/
theorem half (h : b.Sound) (axis : Axis) (upper : Bool) :
    (b.half axis upper).Sound ∧ (b.half axis upper).Within b := by
  have hself := within_self h.ordered
  have hsteps : ∀ x, (b.along x).lo ≤ ((b.half axis upper).along x).lo ∧
      ((b.half axis upper).along x).lo ≤ ((b.half axis upper).along x).hi ∧
      ((b.half axis upper).along x).hi ≤ (b.along x).hi := by
    intro x
    -- along the axis that is halved one of the ends becomes the middle
    rcases x.eq_or_eq_other axis with rfl | rfl
    · obtain ⟨hlo, hhi⟩ := h.mid_between x
      rw [along_half]
      cases upper with
      | false => exact ⟨(hself x).1, hlo, hhi⟩
      | true => exact ⟨hlo, hhi, (hself x).2⟩
    · rw [along_half_other]
      exact ⟨(hself _).1, h.ordered _, (hself _).2⟩
  have hwithin : (b.half axis upper).Within b := fun x => ⟨(hsteps x).1, (hsteps x).2.2⟩
  exact ⟨⟨hwithin.trans h.within, fun x => (hsteps x).2.1⟩, hwithin⟩

theorem contains_center (h : b.Sound) : b.contains b.center = true := by
  obtain ⟨hsouth, hnorth⟩ := h.mid_between .latitude
  obtain ⟨hwest, heast⟩ := h.mid_between .longitude
  show (decide (_ ≤ _) && decide (_ ≤ _) && (decide (_ ≤ _) && decide (_ ≤ _))) = true
  simp only [Bool.and_eq_true, decide_eq_true_eq]
  exact ⟨⟨hsouth, hnorth⟩, hwest, heast⟩

end Sound

end Bounds

namespace Geohash

variable {as : List Bool} {first : Axis} {b : Bounds}

/-- **A row of answers, however long, leads to bounds within those from which it starts.** -/
theorem follow_sound (h : b.Sound) : (follow as first b).Sound ∧ (follow as first b).Within b := by
  induction as generalizing first b with
  | nil => exact ⟨h, Bounds.within_self h.ordered⟩
  | cons a as ih =>
    obtain ⟨hhalf, hwithin⟩ := h.half first a
    have hrest : (follow as first.other (b.half first a)).Sound ∧
        (follow as first.other (b.half first a)).Within (b.half first a) := ih hhalf
    exact ⟨hrest.1, hrest.2.trans hwithin⟩

/-! ## 2. Hashes that begin with another one -/

/-- The second part of a row of answers leads on from where the first has led. -/
theorem follow_append (as bs : List Bool) (first : Axis) (b : Bounds) :
    ∃ next, follow (as ++ bs) first b = follow bs next (follow as first b) := by
  induction as generalizing first b with
  | nil => exact ⟨first, rfl⟩
  | cons a as ih => exact ih first.other (b.half first a)

namespace Hash

variable {h k : Hash} {x : Axis}

/-- The hash begins with another one. -/
def Extends (k h : Hash) : Prop := h.digits <+: k.digits

instance : Decidable (k.Extends h) := inferInstanceAs (Decidable (h.digits <+: k.digits))

theorem bounds_sound (h : Hash) : h.bounds.Sound := (follow_sound Bounds.world_sound).1

/-- **The cell of a hash lies within the cells of all that it begins with.** -/
theorem Extends.within (hext : k.Extends h) : k.bounds.Within h.bounds := by
  obtain ⟨ds, hdigits⟩ := hext
  have hanswers : k.answers = h.answers ++ ds.flatMap Digit.answers := by
    unfold answers
    rw [← hdigits, List.flatMap_append]
  unfold bounds
  rw [hanswers]
  obtain ⟨next, hfollow⟩ := follow_append h.answers (ds.flatMap Digit.answers) .longitude .world
  rw [hfollow]
  exact (follow_sound h.bounds_sound).2

theorem extends_iff_take (m : Nat) (hlen : h.length = m) :
    k.Extends h ↔ h.digits = k.digits.take m := by
  subst hlen
  exact List.prefix_iff_eq_take

theorem toList_text_eq_take_iff (m : Nat) :
    h.text.toList = k.text.toList.take m ↔ h.digits = k.digits.take m := by
  rw [toList_text, toList_text, ← List.map_take]
  exact Digit.toChar_strictMono.injective.list_map.eq_iff

/-- Characters of the alphabet, put behind a hash, make a hash that begins with it. -/
theorem exists_extends (h : Hash) {t : String} (ht : ∀ c ∈ t.toList, c ∈ alphabet) :
    ∃ k : Hash, k.text = h.text ++ t ∧ k.Extends h := by
  obtain ⟨ds, hds⟩ := exists_digits ht
  have hne : h.digits ++ ds ≠ [] := List.append_ne_nil_of_left_ne_nil h.nonempty ds
  refine ⟨⟨h.digits ++ ds, hne⟩, ?_, List.prefix_append _ _⟩
  rw [← String.toList_inj, String.toList_append, toList_text, toList_text, List.map_append, hds]

end Hash

/-! ## 3. The hashes of one place -/

/-- The first questions about a place are the same, however many follow. -/
theorem take_ask (p : Place) {m n : Nat} (hmn : m ≤ n) (first : Axis) (b : Bounds) :
    (ask p n first b).take m = ask p m first b := by
  induction m generalizing n first b with
  | zero => rfl
  | succ m ih =>
    obtain ⟨n, rfl⟩ := Nat.exists_eq_add_of_le' (Nat.one_le_of_lt hmn)
    exact congrArg (List.cons _) (ih (Nat.le_of_succ_le_succ hmn) first.other _)

/-- A digit is made of its own answers only. -/
theorem toDigits_take {n k : Nat} (hk : 5 * n ≤ k) (as : List Bool) :
    toDigits n (as.take k) = toDigits n as := by
  induction n generalizing k as with
  | zero => rfl
  | succ n ih =>
    have hfirst : Digit.ofAnswers (as.take k) = Digit.ofAnswers as := by
      unfold Digit.ofAnswers
      rw [List.take_take, min_eq_left (by omega)]
    show Digit.ofAnswers (as.take k) :: toDigits n ((as.take k).drop 5) = _
    rw [hfirst, List.drop_take, ih (by omega)]
    rfl

theorem take_toDigits {m n : Nat} (hmn : m ≤ n) (as : List Bool) :
    (toDigits n as).take m = toDigits m as := by
  induction m generalizing n as with
  | zero => rfl
  | succ m ih =>
    obtain ⟨n, rfl⟩ := Nat.exists_eq_add_of_le' (Nat.one_le_of_lt hmn)
    exact congrArg (List.cons _) (ih (Nat.le_of_succ_le_succ hmn) (as.drop 5))

/-- **The shorter hash of a place is what the longer one begins with.** -/
theorem encode_shorter_iff {p : Place} {m n : Nat} {h k : Hash} (hencode : encode p n = .ok k)
    (hm : 1 ≤ m) (hmn : m ≤ n) : encode p m = .ok h ↔ h.digits = k.digits.take m := by
  obtain ⟨hn, hmax, hp⟩ := encode_valid hencode
  obtain ⟨k', hk', hlong⟩ := encode_eq_ok hp hn hmax
  obtain ⟨h', hh', hshort⟩ := encode_eq_ok hp hm (hmn.trans hmax)
  obtain rfl : k' = k := Except.ok.inj (hk'.symm.trans hencode)
  have htake : h'.digits = k'.digits.take m := by
    rw [hlong, take_toDigits hmn, hshort, ← take_ask p (Nat.mul_le_mul_left 5 hmn),
      toDigits_take le_rfl]
  rw [hh', ← htake]
  constructor
  · intro heq
    rw [Except.ok.inj heq]
  · intro hdigits
    rw [Hash.eq_of_digits hdigits]

namespace Hash

variable {h k : Hash} {x : Axis}

/-! ## 4. Widths -/

/-- **The width of a cell is exact**: the axis, divided by two once for each of its halvings. -/
theorem width_value (hlen : h.length ≤ maxLength) (x : Axis) :
    (h.bounds.along x).width.isFinite = true ∧
      (h.bounds.along x).width.value = 2 * x.degrees / 2 ^ level h.length x := by
  obtain ⟨i, hi⟩ := h.exists_at hlen x
  obtain ⟨hfinite, hunits⟩ := hi.width
  refine ⟨hfinite, ?_⟩
  have hlevel : level h.length x ≤ x.scale := by
    have hlt := level_lt hlen x
    have hscale := x.scale_bounds
    unfold finestLevel at hlt
    omega
  have hdegrees : (x.degrees : ℚ) * 2 ^ Binary64.oneScale = 45 * 2 ^ x.scale := by
    exact_mod_cast x.degrees_mul
  have hsplit : (2 : ℚ) ^ x.scale = 2 ^ level h.length x * 2 ^ (x.scale - level h.length x) := by
    rw [← pow_add, Nat.add_sub_cancel' hlevel]
  have hone : (2 : ℚ) ^ Binary64.oneScale ≠ 0 := by positivity
  have hpow : (2 : ℚ) ^ level h.length x ≠ 0 := by positivity
  unfold Binary64.value
  rw [hunits, div_eq_div_iff hone hpow]
  push_cast
  calc (90 : ℚ) * 2 ^ (x.scale - level h.length x) * 2 ^ level h.length x
      = 2 * (45 * (2 ^ level h.length x * 2 ^ (x.scale - level h.length x))) := by ring
    _ = 2 * x.degrees * 2 ^ Binary64.oneScale := by rw [← hsplit, ← hdegrees]; ring

end Hash

/-- Latitudes are halved at every other question, -/
theorem level_latitude (n : Nat) : level n .latitude = 5 * n / 2 := rfl

/-- and longitudes at the others, of which the first is one. -/
theorem level_longitude (n : Nat) : level n .longitude = (5 * n + 1) / 2 := rfl

/-! ## 5. Texts -/

theorem decode_eq_ok_iff {s : String} {b : Bounds} :
    decode s = .ok b ↔ ∃ h : Hash, h.text = s ∧ h.bounds = b := by
  unfold decode
  cases hs : Hash.parse s with
  | error f =>
    constructor
    · intro hb
      cases hb
    · rintro ⟨h, htext, -⟩
      rw [Hash.parse_eq_ok_iff.mpr htext] at hs
      cases hs
  | ok h =>
    have htext := Hash.parse_eq_ok_iff.mp hs
    constructor
    · intro hb
      exact ⟨h, htext, Except.ok.inj hb⟩
    · rintro ⟨h', htext', rfl⟩
      rw [Hash.text_injective (htext.trans htext'.symm)]
      rfl

theorem decode_isOk_iff {s : String} :
    (∃ b, decode s = .ok b) ↔ s ≠ "" ∧ ∀ c ∈ s.toList, c ∈ alphabet := by
  have hne : s ≠ "" ↔ s.length ≠ 0 := by
    rw [← String.length_toList, ne_eq, ne_eq, List.length_eq_zero_iff, String.toList_eq_nil_iff]
  rw [hne, ← Hash.exists_text_iff]
  simp only [decode_eq_ok_iff]
  exact ⟨fun ⟨_, h, htext, _⟩ => ⟨h, htext⟩, fun ⟨h, htext⟩ => ⟨h.bounds, h, htext, rfl⟩⟩

/-- **Texts of any length are decoded to cells within cells.**  A text is decoded exactly when it is
made of the characters of the alphabet and is not empty.  However many of these are put behind it, the
bounds keep their ends in order, contain their center and stay within what the text is decoded to.  Up
to twelve characters the spans are exact. -/
theorem decode_nests (s : String) :
    ((∃ b, decode s = .ok b) ↔ s ≠ "" ∧ ∀ c ∈ s.toList, c ∈ alphabet) ∧
    ∀ b, decode s = .ok b →
      (∀ t : String, (∀ c ∈ t.toList, c ∈ alphabet) → ∃ b', decode (s ++ t) = .ok b' ∧
        b'.latitude.lo ≤ b'.latitude.hi ∧ b'.longitude.lo ≤ b'.longitude.hi ∧
        b'.Within b ∧ b'.contains b'.center = true) ∧
      (s.length ≤ 12 →
        b.latitude.width.isFinite = true ∧
        b.latitude.width.value = 180 / 2 ^ (5 * s.length / 2) ∧
        b.longitude.width.isFinite = true ∧
        b.longitude.width.value = 360 / 2 ^ ((5 * s.length + 1) / 2)) := by
  refine ⟨decode_isOk_iff, fun b hb => ?_⟩
  obtain ⟨h, rfl, rfl⟩ := decode_eq_ok_iff.mp hb
  refine ⟨fun t ht => ?_, fun hlen => ?_⟩
  · obtain ⟨k, htext, hext⟩ := h.exists_extends ht
    have hsound := k.bounds_sound
    refine ⟨k.bounds, ?_, hsound.ordered .latitude, hsound.ordered .longitude, hext.within,
      hsound.contains_center⟩
    rw [← htext, decode_text]
  · rw [h.length_text] at hlen ⊢
    obtain ⟨hlatitude, hheight⟩ := h.width_value hlen .latitude
    obtain ⟨hlongitude, hwidth⟩ := h.width_value hlen .longitude
    refine ⟨hlatitude, hheight.trans ?_, hlongitude, hwidth.trans ?_⟩
    · rw [level_latitude]
      norm_num [Axis.degrees]
    · rw [level_longitude]
      norm_num [Axis.degrees]

/-- A cell of Galicia, and so far within it that the ends of the latitudes have become one double. -/
theorem ezs42_nests : ∃ b b', decode "ezs42" = .ok b ∧
    b.latitude.width.value = 180 / 2 ^ 12 ∧ b.longitude.width.value = 360 / 2 ^ 13 ∧
    decode ("ezs42" ++ String.ofList (List.replicate 20 'z')) = .ok b' ∧ b'.Within b ∧
    b'.latitude.lo = b'.latitude.hi := by
  obtain ⟨hok, hnests⟩ := decode_nests "ezs42"
  have hdigits : ∀ c ∈ "ezs42".toList, c ∈ alphabet := by
    rw [← List.all_iff_forall_prop]
    decide
  have htail : ∀ c ∈ (String.ofList (List.replicate 20 'z')).toList, c ∈ alphabet := by
    rw [String.toList_ofList, ← List.all_iff_forall_prop]
    decide
  obtain ⟨b, hb⟩ := hok.mpr ⟨by decide, hdigits⟩
  obtain ⟨hdeeper, hspans⟩ := hnests b hb
  obtain ⟨b', hb', -, -, hwithin, -⟩ := hdeeper _ htail
  obtain ⟨-, hheight, -, hwidth⟩ := hspans (by decide)
  refine ⟨b, b', hb, hheight, hwidth, hb', hwithin, ?_⟩
  obtain ⟨k, htext, hbounds⟩ := decode_eq_ok_iff.mp hb'
  have hread : k.digits = [13, 31, 24, 4, 2] ++ List.replicate 20 31 := by
    refine Digit.toChar_strictMono.injective.list_map ?_
    rw [← Hash.toList_text, htext, String.toList_append, String.toList_ofList]
    decide
  rw [← hbounds, Hash.bounds, Hash.answers, hread]
  decide +kernel

end Geohash

end Barogrid
