import Mathlib
import Barogrid.Proofs.Geohash.Raster
import Barogrid.Proofs.Geohash.Text

/-!
# The partition of the globe

A cell owns the places above its lower edges, the upper edges included; the cells that lie on the
southern or western edge of the globe own that edge as well.  Halving a cell divides what it owns,
and the answer to the question "upper half?" says which half a place goes to.  From this step:

* `follow_owns_iff` -- **a row of answers leads to the cell that owns a place exactly when these are
  the answers about the place**;
* `encode_eq_ok_iff` -- so the hash of a place is the hash of the cell that owns it;
* `encode_decode_partition` -- what this means for the two functions on texts.
-/

namespace Barogrid

/-! ## 1. Owning along an axis -/

/-- What an interval owns on an axis that begins at `edge`: its upper end, but not its lower end
unless the axis begins there. -/
def Interval.Owns (i : Interval) (edge x : Binary64) : Prop :=
  (i.lo < x ∧ x ≤ i.hi) ∨ (x = i.lo ∧ i.lo = edge)

/-- **Halving an interval divides what it owns.** -/
theorem Interval.half_owns_iff {i : Interval} {edge x : Binary64} (hedge : edge ≤ i.lo)
    (hlo : i.lo < i.mid) (hhi : i.mid < i.hi) (upper : Bool) :
    (i.half upper).Owns edge x ↔ i.Owns edge x ∧ upper = decide (i.mid < x) := by
  obtain ⟨-, hloNaN, hedge⟩ := Binary64.le_iff.mp hedge
  obtain ⟨-, hmidNaN, hlo⟩ := Binary64.lt_iff.mp hlo
  obtain ⟨-, hhiNaN, hhi⟩ := Binary64.lt_iff.mp hhi
  cases upper with
  | false =>
    show ((i.lo < x ∧ x ≤ i.mid) ∨ (x = i.lo ∧ i.lo = edge)) ↔ _
    simp only [Interval.Owns, Binary64.lt_iff, Binary64.le_iff, hloNaN, hmidNaN, hhiNaN, true_and,
      eq_comm (a := false), decide_eq_false_iff_not, not_and, not_lt]
    constructor
    · rintro (⟨⟨hx, h⟩, -, h'⟩ | ⟨rfl, h⟩)
      · exact ⟨Or.inl ⟨⟨hx, h⟩, hx, by omega⟩, fun _ => h'⟩
      · exact ⟨Or.inr ⟨rfl, h⟩, fun _ => hlo.le⟩
    · rintro ⟨⟨⟨hx, h⟩, -⟩ | ⟨rfl, h⟩, h'⟩
      · exact Or.inl ⟨⟨hx, h⟩, hx, h' hx⟩
      · exact Or.inr ⟨rfl, h⟩
  | true =>
    show ((i.mid < x ∧ x ≤ i.hi) ∨ (x = i.mid ∧ i.mid = edge)) ↔ _
    simp only [Interval.Owns, Binary64.lt_iff, Binary64.le_iff, hloNaN, hmidNaN, hhiNaN, true_and,
      eq_comm (a := true), decide_eq_true_eq]
    constructor
    · rintro (⟨⟨hx, h⟩, -, h'⟩ | ⟨-, h⟩)
      · exact ⟨Or.inl ⟨⟨hx, by omega⟩, hx, h'⟩, hx, h⟩
      · -- the middle is no edge of the globe
        have := congrArg Binary64.rank h
        omega
    · rintro ⟨⟨-, hx, h'⟩ | ⟨rfl, -⟩, hx', h⟩
      · exact Or.inl ⟨⟨hx', h⟩, hx, h'⟩
      · omega

/-- A whole axis owns everything between its ends. -/
theorem Interval.owns_of_within {lo hi x : Binary64} (h0 : lo.rank ≠ 0) (h : x.within lo hi = true) :
    Interval.Owns ⟨lo, hi⟩ lo x := by
  obtain ⟨hge, hle⟩ : lo ≤ x ∧ x ≤ hi := by simpa [Binary64.within] using h
  obtain ⟨hlo, hxNaN, hrank⟩ := Binary64.le_iff.mp hge
  rcases hrank.lt_or_eq with hlt | heq
  · exact Or.inl ⟨Binary64.lt_iff.mpr ⟨hlo, hxNaN, hlt⟩, hle⟩
  · exact Or.inr ⟨Binary64.eq_of_rank_eq heq.symm h0, rfl⟩

/-- What an interval owns lies in it. -/
theorem Interval.contains_of_owns {i : Interval} {edge x : Binary64} (hlo : i.lo < i.mid)
    (hhi : i.mid < i.hi) (h : i.Owns edge x) : i.contains x = true := by
  obtain ⟨hloNaN, -, hrank⟩ := Binary64.lt_iff.mp hlo
  obtain ⟨-, hhiNaN, hrank'⟩ := Binary64.lt_iff.mp hhi
  have hends : i.lo ≤ x ∧ x ≤ i.hi := by
    rcases h with ⟨hlt, hle⟩ | ⟨rfl, -⟩
    · obtain ⟨-, hxNaN, hrank⟩ := Binary64.lt_iff.mp hlt
      exact ⟨Binary64.le_iff.mpr ⟨hloNaN, hxNaN, hrank.le⟩, hle⟩
    · exact ⟨Binary64.le_self hloNaN, Binary64.le_iff.mpr ⟨hloNaN, hhiNaN, by omega⟩⟩
  simpa [Interval.contains, Binary64.within] using hends

/-- An interval owns its middle, which lies wherever the interval lies. -/
theorem Interval.mid_owned {i : Interval} {lo hi : Binary64} (hlo : lo ≤ i.lo) (hhi : i.hi ≤ hi)
    (hmid : i.lo < i.mid) (hmid' : i.mid < i.hi) : i.mid.within lo hi = true ∧ i.Owns lo i.mid := by
  obtain ⟨hloNaN, -, hlo⟩ := Binary64.le_iff.mp hlo
  obtain ⟨-, hhiNaN, hhi⟩ := Binary64.le_iff.mp hhi
  obtain ⟨-, hmidNaN, hlt⟩ := Binary64.lt_iff.mp hmid
  obtain ⟨-, hiNaN, hlt'⟩ := Binary64.lt_iff.mp hmid'
  have hge : lo ≤ i.mid := Binary64.le_iff.mpr ⟨hloNaN, hmidNaN, by omega⟩
  have hle : i.mid ≤ hi := Binary64.le_iff.mpr ⟨hmidNaN, hhiNaN, by omega⟩
  exact ⟨by simp [Binary64.within, hge, hle],
    Or.inl ⟨hmid, Binary64.le_iff.mpr ⟨hmidNaN, hiNaN, hlt'.le⟩⟩⟩

namespace Interval.IsCell

variable {x : Axis} {k i : Nat} {c : Interval}

theorem line_ends {x : Axis} {k : Nat} (hk : k ≤ finestLevel) :
    x.line k 0 = x.line 0 0 ∧ x.line k (2 ^ k) = x.line 0 1 := by
  have hscale := x.scale_bounds
  have hsplit : x.scale = k + (x.scale - k) := by
    unfold finestLevel at hk
    omega
  have hpow : (2 : Int) ^ x.scale = 2 ^ k * 2 ^ (x.scale - k) := by
    rw [← pow_add, ← hsplit]
  unfold Axis.line
  rw [Nat.sub_zero, hpow]
  constructor <;> push_cast <;> ring

/-- A cell lies on the globe. -/
theorem within_world (h : c.IsCell x k i) (hk : k ≤ finestLevel) :
    (Bounds.world.along x).lo ≤ c.lo ∧ c.hi ≤ (Bounds.world.along x).hi := by
  have hworld := world_isCell x
  obtain ⟨hfirst, hlast⟩ := line_ends (x := x) hk
  have hmono := (x.line_strictMono k).monotone
  have hlo := hmono (Nat.zero_le i)
  have hhi := hmono (Nat.succ_le_of_lt h.index_lt)
  rw [Binary64.le_iff_units_le hworld.lo_isFinite h.lo_isFinite,
    Binary64.le_iff_units_le h.hi_isFinite hworld.hi_isFinite, hworld.lo_units, hworld.hi_units,
    h.lo_units, h.hi_units]
  exact ⟨hfirst ▸ hlo, hlast ▸ hhi⟩

end Interval.IsCell

/-! ## 2. Owning places -/

/-- **What a cell owns.** -/
def Bounds.Owns (b : Bounds) (p : Place) : Prop :=
  b.latitude.Owns (-90) p.latitude ∧ b.longitude.Owns (-180) p.longitude

theorem Axis.forall_iff {P : Axis → Prop} : (∀ x, P x) ↔ P .latitude ∧ P .longitude :=
  ⟨fun h => ⟨h _, h _⟩, fun h x => match x with | .latitude => h.1 | .longitude => h.2⟩

/-- The latitude and the longitude are in range; a NaN is not. -/
def Place.InRange (p : Place) : Prop :=
  (-90 ≤ p.latitude ∧ p.latitude ≤ 90) ∧ -180 ≤ p.longitude ∧ p.longitude ≤ 180

instance : DecidablePred Place.InRange := fun p =>
  inferInstanceAs (Decidable ((-90 ≤ p.latitude ∧ p.latitude ≤ 90) ∧
    -180 ≤ p.longitude ∧ p.longitude ≤ 180))

theorem Place.onGlobe_iff_inRange {p : Place} : p.onGlobe = true ↔ p.InRange := by
  simp [Place.onGlobe, Binary64.within, Place.InRange]

namespace Bounds

theorem owns_iff_along {b : Bounds} {p : Place} :
    b.Owns p ↔ ∀ x, (b.along x).Owns (world.along x).lo (p.along x) :=
  (Axis.forall_iff (P := fun x => (b.along x).Owns (world.along x).lo (p.along x))).symm

/-- A place is owned along one axis and along the other. -/
theorem owns_iff_other {b : Bounds} {p : Place} (axis : Axis) :
    b.Owns p ↔ (b.along axis).Owns (world.along axis).lo (p.along axis) ∧
      (b.along axis.other).Owns (world.along axis.other).lo (p.along axis.other) := by
  rw [owns_iff_along, Axis.forall_iff]
  cases axis with
  | latitude => exact Iff.rfl
  | longitude => exact and_comm

theorem OnGrid.half_owns_iff {b : Bounds} {level : Axis → Nat} (h : b.OnGrid level) {axis : Axis}
    (hk : level axis < finestLevel) {p : Place} (upper : Bool) :
    (b.half axis upper).Owns p ↔ b.Owns p ∧ upper = decide ((b.along axis).mid < p.along axis) := by
  obtain ⟨i, hi⟩ := h axis
  obtain ⟨hlo, hhi⟩ := hi.lo_lt_mid hk
  rw [owns_iff_other axis, owns_iff_other axis, along_half, along_half_other,
    Interval.half_owns_iff (hi.within_world hk.le).1 hlo hhi]
  exact and_right_comm

/-- The globe owns every place on it. -/
theorem world_owns {p : Place} (h : p.onGlobe = true) : world.Owns p := by
  obtain ⟨hlat, hlon⟩ : p.latitude.within (-90) 90 = true ∧ p.longitude.within (-180) 180 = true := by
    simpa [Place.onGlobe] using h
  exact ⟨Interval.owns_of_within (by decide) hlat, Interval.owns_of_within (by decide) hlon⟩

end Bounds

namespace Geohash

/-! ## 3. Rows of answers -/

/-- **A row of answers leads to the cell that owns a place exactly when these are the answers about
the place.** -/
theorem follow_owns_iff {as : List Bool} {first : Axis} {b : Bounds} {level : Axis → Nat}
    (h : b.OnGrid level) (hk : ∀ x, level x + halvings first x as.length ≤ finestLevel)
    {p : Place} :
    (follow as first b).Owns p ↔ b.Owns p ∧ as = ask p as.length first b := by
  induction as generalizing first b level with
  | nil => simp [follow, ask]
  | cons a as ih =>
    have hfirst : level first < finestLevel := by
      have := hk first
      rw [List.length_cons, halvings, if_pos rfl] at this
      omega
    show (follow as first.other (b.half first a)).Owns p ↔
      b.Owns p ∧ a :: as = decide ((b.along first).mid < p.along first) ::
        ask p as.length first.other (b.half first (decide ((b.along first).mid < p.along first)))
    have hrest : (follow as first.other (b.half first a)).Owns p ↔ _ :=
      ih (h.half hfirst a) fun x => by
        rw [update_add_halvings]
        exact hk x
    rw [hrest, h.half_owns_iff hfirst, List.cons.injEq, and_assoc]
    -- the second half of the row is asked within the half that the first answer names
    refine and_congr_right fun _ => and_congr_right fun ha => ?_
    rw [← ha]

theorem length_ask (p : Place) (n : Nat) (first : Axis) (b : Bounds) :
    (ask p n first b).length = n := by
  induction n generalizing first b with
  | zero => rfl
  | succ n ih => simp [ask, ih]

theorem Hash.length_answers_le {h : Hash} (hlen : h.length ≤ maxLength) : h.answers.length ≤ 60 := by
  rw [h.length_answers]
  unfold maxLength at hlen
  omega

/-- The cell of a hash owns a place exactly when the digits say what is asked about the place. -/
theorem Hash.bounds_owns_iff {h : Hash} (hlen : h.length ≤ maxLength) {p : Place}
    (hp : p.onGlobe = true) :
    h.bounds.Owns p ↔ h.answers = ask p (5 * h.length) .longitude .world := by
  have hk : ∀ x, 0 + halvings .longitude x h.answers.length ≤ finestLevel := by
    intro x
    rw [Nat.zero_add]
    exact (halvings_lt_finestLevel (h.length_answers_le hlen) x).le
  unfold Hash.bounds
  rw [follow_owns_iff world_onGrid hk, and_iff_right (Bounds.world_owns hp), h.length_answers]

/-! ## 4. Hashes and cells -/

theorem encode_eq_ok {p : Place} (hp : p.onGlobe = true) {n : Nat} (hn : 1 ≤ n)
    (hmax : n ≤ maxLength) :
    ∃ h : Hash, encode p n = .ok h ∧ h.digits = toDigits n (ask p (5 * n) .longitude .world) := by
  obtain ⟨m, rfl⟩ := Nat.exists_eq_add_of_le' hn
  refine ⟨⟨toDigits (m + 1) (ask p (5 * (m + 1)) .longitude .world), List.cons_ne_nil _ _⟩, ?_, rfl⟩
  simp only [encode, not_lt.mpr hmax, hp, Bool.not_true, Bool.false_eq_true, ↓reduceIte]

theorem Hash.eq_of_digits {h h' : Hash} (e : h.digits = h'.digits) : h = h' := by
  cases h
  cases h'
  cases e
  rfl

/-- **The hash of a place is the hash of the cell that owns it.** -/
theorem encode_eq_ok_iff {p : Place} (hp : p.onGlobe = true) {n : Nat} (hn : 1 ≤ n)
    (hmax : n ≤ maxLength) {h : Hash} :
    encode p n = .ok h ↔ h.length = n ∧ h.bounds.Owns p := by
  obtain ⟨h', hencode, hdigits⟩ := encode_eq_ok hp hn hmax
  have hasked := length_ask p (5 * n) .longitude .world
  rw [hencode]
  constructor
  · intro heq
    rw [← Except.ok.inj heq]
    have hlen : h'.length = n := by
      unfold Hash.length
      rw [hdigits, length_toDigits]
    refine ⟨hlen, (Hash.bounds_owns_iff (hlen.le.trans hmax) hp).mpr ?_⟩
    unfold Hash.answers
    rw [hdigits, answers_toDigits hasked, hlen]
  · rintro ⟨hlen, howns⟩
    have hanswers := (Hash.bounds_owns_iff (hlen.le.trans hmax) hp).mp howns
    refine congrArg Except.ok (Hash.eq_of_digits ?_)
    rw [hdigits, ← hlen, ← hanswers]
    exact toDigits_answers h.digits

/-- A length that cannot be asked for is reported first, -/
theorem encode_eq_error_length (p : Place) {n : Nat} (hn : ¬ (1 ≤ n ∧ n ≤ maxLength)) :
    encode p n = .error (.length n) := by
  cases n with
  | zero => rfl
  | succ n =>
    have hlong : maxLength < n + 1 := by omega
    simp only [encode, hlong, ↓reduceIte]

/-- and then a place that does not lie on the globe. -/
theorem encode_eq_error_place {p : Place} (hp : p.onGlobe = false) {n : Nat} (hn : 1 ≤ n)
    (hmax : n ≤ maxLength) : encode p n = .error (.place p) := by
  obtain ⟨m, rfl⟩ := Nat.exists_eq_add_of_le' hn
  simp only [encode, not_lt.mpr hmax, hp, Bool.not_false, ↓reduceIte]

/-- Only places on the globe have a hash, and only of a length that can be asked for. -/
theorem encode_valid {p : Place} {n : Nat} {h : Hash} (hencode : encode p n = .ok h) :
    1 ≤ n ∧ n ≤ maxLength ∧ p.onGlobe = true := by
  unfold encode at hencode
  split at hencode
  · cases hencode
  · split at hencode
    · cases hencode
    · rename_i hmax
      split at hencode
      · cases hencode
      · rename_i hp
        exact ⟨Nat.le_add_left 1 _, not_lt.mp hmax, by simpa using hp⟩

theorem encode_isOk {p : Place} (hp : p.onGlobe = true) {n : Nat} (hn : 1 ≤ n)
    (hmax : n ≤ maxLength) : ∃ h, encode p n = .ok h ∧ h.length = n ∧ h.bounds.Owns p := by
  obtain ⟨h, hencode, -⟩ := encode_eq_ok hp hn hmax
  exact ⟨h, hencode, (encode_eq_ok_iff hp hn hmax).mp hencode⟩

/-! ## 5. Centers -/

/-- Along each axis the bounds of a hash are a cell that can be halved once more. -/
theorem Hash.bounds_isCell {h : Hash} (hlen : h.length ≤ maxLength) (x : Axis) :
    ∃ k i, k < finestLevel ∧ (h.bounds.along x).IsCell x k i := by
  have hshort := h.length_answers_le hlen
  obtain ⟨i, hi⟩ := follow_world_onGrid hshort x
  exact ⟨_, i, halvings_lt_finestLevel hshort x, hi⟩

/-- **The center of a cell lies on the globe and is owned by the cell.** -/
theorem Hash.center_owned {h : Hash} (hlen : h.length ≤ maxLength) :
    h.bounds.center.onGlobe = true ∧ h.bounds.Owns h.bounds.center := by
  have key : ∀ x, (h.bounds.along x).mid.within (Bounds.world.along x).lo (Bounds.world.along x).hi =
      true ∧ (h.bounds.along x).Owns (Bounds.world.along x).lo (h.bounds.along x).mid := by
    intro x
    obtain ⟨k, i, hk, hi⟩ := h.bounds_isCell hlen x
    obtain ⟨hlo, hhi⟩ := hi.within_world hk.le
    obtain ⟨hmid, hmid'⟩ := hi.lo_lt_mid hk
    exact Interval.mid_owned hlo hhi hmid hmid'
  refine ⟨?_, (key .latitude).2, (key .longitude).2⟩
  show (h.bounds.latitude.mid.within (-90) 90 && h.bounds.longitude.mid.within (-180) 180) = true
  rw [Bool.and_eq_true]
  exact ⟨(key .latitude).1, (key .longitude).1⟩

/-- What a cell owns lies within its closed bounds. -/
theorem Hash.contains_of_owns {h : Hash} (hlen : h.length ≤ maxLength) {p : Place}
    (howns : h.bounds.Owns p) : h.bounds.contains p = true := by
  have key : ∀ x, (h.bounds.along x).contains (p.along x) = true := by
    intro x
    obtain ⟨k, i, hk, hi⟩ := h.bounds_isCell hlen x
    obtain ⟨hmid, hmid'⟩ := hi.lo_lt_mid hk
    exact Interval.contains_of_owns hmid hmid' (Bounds.owns_iff_along.mp howns x)
  show (h.bounds.latitude.contains _ && h.bounds.longitude.contains _) = true
  rw [Bool.and_eq_true]
  exact ⟨key .latitude, key .longitude⟩

/-! ## 6. The two functions on texts -/

/-- A text of `n` characters of the alphabet. -/
def IsKey (n : Nat) (s : String) : Prop := s.length = n ∧ ∀ c ∈ s.toList, c ∈ alphabet

theorem IsKey.exists_hash {n : Nat} {s : String} (h : IsKey n s) (hn : 1 ≤ n) :
    ∃ k : Hash, k.text = s ∧ k.length = n := by
  obtain ⟨k, rfl⟩ := Hash.exists_text_iff.mpr ⟨by rw [h.1]; omega, h.2⟩
  exact ⟨k, rfl, (Hash.length_text k).symm.trans h.1⟩

theorem Hash.text_isKey (h : Hash) : IsKey h.length h.text :=
  ⟨h.length_text, (Hash.exists_text_iff.mp ⟨h, rfl⟩).2⟩

theorem decode_text (h : Hash) : decode h.text = .ok h.bounds := by
  unfold decode
  rw [Hash.parse_text]
  rfl

theorem map_text_eq_ok_iff {r : Except Fault Hash} {h : Hash} :
    r.map Hash.text = .ok h.text ↔ r = .ok h := by
  cases r with
  | error f => simp [Except.map]
  | ok h' =>
    simp only [Except.map, Except.ok.injEq]
    exact ⟨Hash.text_injective, fun e => e ▸ rfl⟩

/-- The key of a place is the text whose cell owns it. -/
theorem encode_text_iff {p : Place} (hp : p.onGlobe = true) {n : Nat} (hn : 1 ≤ n)
    (hmax : n ≤ maxLength) {s : String} (hs : IsKey n s) :
    (encode p n).map Hash.text = .ok s ↔ ∃ b, decode s = .ok b ∧ b.Owns p := by
  obtain ⟨k, rfl, hlen⟩ := hs.exists_hash hn
  rw [map_text_eq_ok_iff, encode_eq_ok_iff hp hn hmax, and_iff_right hlen, decode_text]
  simp

/-- **`encode` and `decode` agree on one half-open partition of the globe.**  For each length up to
twelve: a key is the key of a place exactly when its cell owns the place; the bounds of the key of a
place contain it; each place is owned by the cell of exactly one key; the center of the cell of a key
has this key.  All middles are exact on the way. -/
theorem encode_decode_partition {n : Nat} (hn : 1 ≤ n) (hmax : n ≤ 12) :
    (∀ p : Place, -90 ≤ p.latitude → p.latitude ≤ 90 → -180 ≤ p.longitude → p.longitude ≤ 180 →
      (∀ s, IsKey n s →
        ((encode p n).map Hash.text = .ok s ↔ ∃ b, decode s = .ok b ∧ b.Owns p)) ∧
      (∃ h b, encode p n = .ok h ∧ decode h.text = .ok b ∧ b.contains p = true) ∧
      (∃! s, IsKey n s ∧ ∃ b, decode s = .ok b ∧ b.Owns p)) ∧
    (∀ s, IsKey n s → ∃ b, decode s = .ok b ∧ (encode b.center n).map Hash.text = .ok s) ∧
    (∀ as : List Bool, as.length ≤ 5 * n → ∀ x,
      ((follow as .longitude .world).along x).mid.isFinite = true ∧
      2 * ((follow as .longitude .world).along x).mid.units =
        ((follow as .longitude .world).along x).lo.units +
          ((follow as .longitude .world).along x).hi.units) := by
  refine ⟨fun p h₁ h₂ h₃ h₄ => ?_, fun s hs => ?_, fun as has x => ?_⟩
  · have hp : p.onGlobe = true := by simp [Place.onGlobe, Binary64.within, h₁, h₂, h₃, h₄]
    obtain ⟨h, hencode, hlen, howns⟩ := encode_isOk hp hn hmax
    refine ⟨fun s hs => encode_text_iff hp hn hmax hs, ?_, h.text, ?_, ?_⟩
    · exact ⟨h, h.bounds, hencode, decode_text h, h.contains_of_owns (hlen.le.trans hmax) howns⟩
    · exact ⟨hlen ▸ h.text_isKey, h.bounds, decode_text h, howns⟩
    · rintro s ⟨hs, hb⟩
      have hkey := (encode_text_iff hp hn hmax hs).mpr hb
      rw [hencode] at hkey
      exact (Except.ok.inj hkey).symm
  · obtain ⟨k, rfl, hlen⟩ := hs.exists_hash hn
    obtain ⟨hglobe, howns⟩ := k.center_owned (hlen.le.trans hmax)
    refine ⟨k.bounds, decode_text k, ?_⟩
    rw [map_text_eq_ok_iff, encode_eq_ok_iff hglobe hn hmax]
    exact ⟨hlen, howns⟩
  · have hshort : as.length ≤ 60 := by omega
    obtain ⟨i, hi⟩ := follow_world_onGrid hshort x
    have hfine := halvings_lt_finestLevel hshort x
    exact ⟨(hi.mid hfine).1, hi.two_mul_mid_units hfine⟩

/-- The southwestern corner of the globe lies on two lower edges, and still one cell owns it. -/
theorem corner_has_one_key :
    (encode ⟨-90, -180⟩ 5).toOption.map Hash.text = some "00000" ∧
    ∃! s, IsKey 5 s ∧ ∃ b, decode s = .ok b ∧ b.Owns ⟨-90, -180⟩ := by
  have hpartition := (encode_decode_partition (n := 5) (by decide) (by decide)).1 ⟨-90, -180⟩
    (by decide) (by decide) (by decide) (by decide)
  exact ⟨by decide +kernel, hpartition.2.2⟩

end Geohash

end Barogrid
