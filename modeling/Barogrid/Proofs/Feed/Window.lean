import Mathlib
import Barogrid.Feed.Service

/-!
# The window of time that is asked for

A window is set as a number of seconds, and any 64-bit number may be set.  Two limits lie behind it: the
window itself is a 64-bit number of milliseconds, and the instant that it begins with has to be
representable.  The number of seconds is held down to 64 bits with sign, which is the limit of neither.

* `Instant.isRepresentable_of_le` -- the instants of the years 1970 to 9999 are representable;
* `window_eq` -- **holding the number of seconds down makes no difference**;
* `query_of_overreaches`, `query_of_reaches` -- what becomes of a query, on either side of the second
  limit;
* `query_spans_window` -- **a window has a query unless it overreaches**, and this then spans the window.
-/

namespace Barogrid

variable {now : Int}

/-! ## 1. The two limits -/

namespace TimeWindow

theorem greatest_eq : greatest = 0x7fffffffffffffff := rfl

/-- A window of so many seconds. -/
theorem ofSeconds_eq {n : Int} (hn : 0 ≤ n) : ofSeconds n =
    if n * 1000 ≤ greatest then .ok ⟨n * 1000⟩ else .error (.overflow "time window") := by
  have hlow : -greatest ≤ n * 1000 := by
    rw [greatest_eq]
    omega
  simp [ofSeconds, ofMillis, hlow]

end TimeWindow

namespace Instant

/-- The last millisecond of the year 9999. -/
def endOf9999 : Int := 253402300799999

theorem isRepresentable_iff {t : Int} : isRepresentable t = true ↔ first ≤ t ∧ t ≤ last := by
  simp [isRepresentable]

/-- From 1970 to 9999 all instants are representable. -/
theorem isRepresentable_of_le (h : 0 ≤ now) (h' : now ≤ endOf9999) : isRepresentable now = true := by
  rw [isRepresentable_iff]
  unfold endOf9999 at h'
  unfold first last
  omega

end Instant

/-- A window that does not end before it begins has a query if it begins with a representable instant. -/
theorem Query.endingAt_eq (hnow : Instant.isRepresentable now = true) (box : Option Box)
    {window : TimeWindow} (hwindow : 0 ≤ window.millis) (limit : Nat) :
    Query.endingAt now box window limit =
      if now - window.millis < Instant.first then .error (.overflow "start of the time window")
      else .ok ⟨now - window.millis, now, box, limit⟩ := by
  have hlast := (Instant.isRepresentable_iff.mp hnow).2
  unfold endingAt
  by_cases hfirst : now - window.millis < Instant.first
  · have hstart : ¬ Instant.isRepresentable (now - window.millis) = true := fun h =>
      absurd (Instant.isRepresentable_iff.mp h).1 (not_le.mpr hfirst)
    simp [hnow, hstart, hfirst]
  · have hstart : Instant.isRepresentable (now - window.millis) = true :=
      Instant.isRepresentable_iff.mpr ⟨not_lt.mp hfirst, by omega⟩
    simp [hnow, hstart, hfirst]

/-! ## 2. The query for the window that is set -/

namespace ServiceSettings

variable {s : ServiceSettings}

/-- Does the window that ends now begin before the first representable instant? -/
def Overreaches (s : ServiceSettings) (now : Int) : Prop :=
  now - s.windowSeconds * 1000 < Instant.first

instance (s : ServiceSettings) (now : Int) : Decidable (s.Overreaches now) :=
  inferInstanceAs (Decidable (_ < _))

/-- What is out of range where the window overreaches: its length, or else the instant that it begins
with. -/
def excess (s : ServiceSettings) : String :=
  if TimeWindow.greatest < s.windowSeconds * 1000 then "time window" else "start of the time window"

/-- **Holding the number of seconds down makes no difference**: where it does anything, the window is too
long before and after. -/
theorem window_eq (s : ServiceSettings) : s.window = TimeWindow.ofSeconds s.windowSeconds := by
  have hpos := Int.natCast_nonneg s.windowSeconds
  unfold window
  rcases le_or_gt (s.windowSeconds : Int) TimeWindow.greatest with hle | hgt
  · rw [min_eq_left hle]
  · have hgreatest := TimeWindow.greatest_eq
    rw [min_eq_right hgt.le, TimeWindow.ofSeconds_eq (by omega), TimeWindow.ofSeconds_eq hpos,
      if_neg (by omega), if_neg (by omega)]

/-- A window that is too long for 64 bits begins before anything representable. -/
theorem overreaches_of_long (hnow : Instant.isRepresentable now = true)
    (hlong : TimeWindow.greatest < s.windowSeconds * 1000) : s.Overreaches now := by
  have hlast := (Instant.isRepresentable_iff.mp hnow).2
  rw [TimeWindow.greatest_eq] at hlong
  unfold Instant.last at hlast
  unfold Overreaches Instant.first
  omega

theorem query_of_long (hlong : TimeWindow.greatest < s.windowSeconds * 1000) :
    s.query now = .error (.overflow "time window") := by
  unfold query
  rw [window_eq, TimeWindow.ofSeconds_eq (Int.natCast_nonneg _), if_neg (not_le.mpr hlong)]
  rfl

theorem query_of_short (hnow : Instant.isRepresentable now = true)
    (hshort : ¬ TimeWindow.greatest < s.windowSeconds * 1000) : s.query now =
      if s.Overreaches now then .error (.overflow "start of the time window")
      else .ok ⟨now - s.windowSeconds * 1000, now, none, s.limit⟩ := by
  have hpos := Int.natCast_nonneg s.windowSeconds
  unfold query
  rw [window_eq, TimeWindow.ofSeconds_eq hpos, if_pos (not_lt.mp hshort)]
  exact Query.endingAt_eq hnow none (Int.mul_nonneg hpos (by decide)) s.limit

/-- A window that overreaches has no query. -/
theorem query_of_overreaches (hnow : Instant.isRepresentable now = true) (hover : s.Overreaches now) :
    s.query now = .error (.overflow s.excess) := by
  unfold excess
  by_cases hlong : TimeWindow.greatest < s.windowSeconds * 1000
  · rw [query_of_long hlong, if_pos hlong]
  · rw [query_of_short hnow hlong, if_pos hover, if_neg hlong]

/-- Every other window has one. -/
theorem query_of_reaches (hnow : Instant.isRepresentable now = true) (hreach : ¬ s.Overreaches now) :
    s.query now = .ok ⟨now - s.windowSeconds * 1000, now, none, s.limit⟩ := by
  have hshort := fun hlong => hreach (overreaches_of_long hnow hlong)
  rw [query_of_short hnow hshort, if_neg hreach]

/-- **A window has a query unless it overreaches**, at every representable instant.  The query spans the
window, and so its end is not before its start; a window that overreaches is too long for 64 bits, or at
least its start is out of range. -/
theorem query_spans_window (hnow : Instant.isRepresentable now = true) (s : ServiceSettings) :
    if s.Overreaches now then s.query now = .error (.overflow s.excess)
    else ∃ q, s.query now = .ok q ∧ q.startTime ≤ q.endTime ∧ q.endTime = now ∧
      q.endTime - q.startTime = s.windowSeconds * 1000 ∧ q.box = none ∧ q.limit = s.limit := by
  split
  · rename_i hover
    exact query_of_overreaches hnow hover
  · rename_i hreach
    refine ⟨_, query_of_reaches hnow hreach, ?_, rfl, ?_, rfl, rfl⟩
    · show now - s.windowSeconds * 1000 ≤ now
      omega
    · show now - (now - s.windowSeconds * 1000) = s.windowSeconds * 1000
      omega

/-- The longest window that can be set. -/
def longest : ServiceSettings := .ofEnvironment [("READINGS_WINDOW_SECS", "18446744073709551615")]

/-- A window that fits 64 bits, but reaches back beyond the first representable date. -/
def prehistoric : ServiceSettings := { windowSeconds := 9000000000000 }

theorem longest_overreaches :
    longest.windowSeconds = 0xffffffffffffffff ∧
    longest.query Instant.endOf9999 = .error (.overflow "time window") ∧
    prehistoric.query Instant.endOf9999 = .error (.overflow "start of the time window") ∧
    ∃ q, ({} : ServiceSettings).query 0 = .ok q ∧ q.startTime = -3600000 := by
  have hlast : Instant.isRepresentable Instant.endOf9999 = true :=
    Instant.isRepresentable_of_le (by decide) (by decide)
  have hepoch : Instant.isRepresentable 0 = true :=
    Instant.isRepresentable_of_le (by decide) (by decide)
  have hlongest := query_spans_window hlast longest
  have hprehistoric := query_spans_window hlast prehistoric
  have hhour := query_spans_window hepoch {}
  rw [if_pos (by decide), excess, if_pos (by decide)] at hlongest
  rw [if_pos (by decide), excess, if_neg (by decide)] at hprehistoric
  rw [if_neg (by decide)] at hhour
  obtain ⟨q, hq, -, hend, hspan, -, -⟩ := hhour
  refine ⟨by decide, hlongest, hprehistoric, q, hq, ?_⟩
  have hseconds : (({} : ServiceSettings).windowSeconds : Int) = 3600 := rfl
  omega

end ServiceSettings

end Barogrid
