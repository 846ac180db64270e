import Mathlib
import Barogrid.Proofs.Binary64.Order
import Barogrid.Proofs.Geohash.Nesting
import Barogrid.Proofs.Grid.Alike
import Barogrid.Proofs.Grid.Coverage

/-!
# The frame of a map

The frame of a map is the least rectangle of latitudes and longitudes that holds all its cells.  A cell
that sticks out of it on one side has at most one neighbour that does not: the one a step back.  Two are
needed to fill it.

* `IsFrame` -- the frame of a row of bounds, which is the least of the bounds that hold them all;
* `Hash.lo_le_of_adjacent`, `Hash.hi_le_of_adjacent` -- **only a step north or east leads further
  there**, also at the edges of the globe, where a step is cut short;
* `closed_within` -- so the keys of the cells within any bounds are closed;
* `filled_within_frame` -- what this says of the cells that filling adds.
-/

namespace Barogrid

open Geohash (Hash Direction maxLength)

/-! ## 1. Frames -/

/-- All the bounds lie within the frame, and each of its edges is an edge of one of them. -/
structure IsFrame (row : List Bounds) (frame : Bounds) : Prop where
  holds : ∀ b ∈ row, b.Within frame
  touches : ∀ x, (∃ b ∈ row, (b.along x).lo = (frame.along x).lo) ∧
    ∃ b ∈ row, (b.along x).hi = (frame.along x).hi

namespace IsFrame

variable {row row' : List Bounds} {frame : Bounds}

/-- **The frame is the least of the bounds that hold all in the row.** -/
theorem within (h : IsFrame row frame) {other : Bounds} (hother : ∀ b ∈ row, b.Within other) :
    frame.Within other := by
  intro x
  obtain ⟨⟨low, hlow, hlo⟩, ⟨high, hhigh, hhi⟩⟩ := h.touches x
  rw [← hlo, ← hhi]
  exact ⟨(hother low hlow x).1, (hother high hhigh x).2⟩

/-- Only what is in the row counts. -/
theorem congr (h : IsFrame row frame) (hrow : ∀ b, b ∈ row ↔ b ∈ row') : IsFrame row' frame := by
  refine ⟨fun b hb => h.holds b ((hrow b).mpr hb), fun x => ?_⟩
  obtain ⟨⟨low, hlow, hlo⟩, ⟨high, hhigh, hhi⟩⟩ := h.touches x
  exact ⟨⟨low, (hrow low).mp hlow, hlo⟩, ⟨high, (hrow high).mp hhigh, hhi⟩⟩

/-- More bounds have the same frame if they lie within it. -/
theorem extend (h : IsFrame row frame) (hrow : row ⊆ row') (hholds : ∀ b ∈ row', b.Within frame) :
    IsFrame row' frame := by
  refine ⟨hholds, fun x => ?_⟩
  obtain ⟨⟨low, hlow, hlo⟩, ⟨high, hhigh, hhi⟩⟩ := h.touches x
  exact ⟨⟨low, hrow hlow, hlo⟩, ⟨high, hrow hhigh, hhi⟩⟩

end IsFrame

/-- The bounds with the given interval along each axis. -/
def Bounds.ofAxes (edges : Axis → Interval) : Bounds := ⟨edges .latitude, edges .longitude⟩

theorem Bounds.along_ofAxes (edges : Axis → Interval) (x : Axis) :
    (ofAxes edges).along x = edges x := by cases x <;> rfl

/-- **Finite bounds have a frame.** -/
theorem exists_isFrame {row : List Bounds} (hne : row ≠ [])
    (hfinite : ∀ b ∈ row, ∀ x, (b.along x).lo.isFinite = true ∧ (b.along x).hi.isFinite = true) :
    ∃ frame, IsFrame row frame := by
  have hleast := fun x =>
    Binary64.exists_least hne (f := fun b => (b.along x).lo) fun b hb => (hfinite b hb x).1
  have hgreatest := fun x =>
    Binary64.exists_greatest hne (f := fun b => (b.along x).hi) fun b hb => (hfinite b hb x).2
  choose low hlow hlo using hleast
  choose high hhigh hhi using hgreatest
  refine ⟨Bounds.ofAxes fun x => ⟨((low x).along x).lo, ((high x).along x).hi⟩,
    fun b hb x => ?_, fun x => ?_⟩
  · rw [Bounds.along_ofAxes]
    exact ⟨hlo x b hb, hhi x b hb⟩
  · rw [Bounds.along_ofAxes]
    exact ⟨⟨low x, hlow x, rfl⟩, high x, hhigh x, rfl⟩

/-! ## 2. Steps -/

namespace Interval.IsCell

variable {x : Axis} {k i j : Nat} {c c' : Interval}

theorem lo_le (h : c.IsCell x k i) (h' : c'.IsCell x k j) (hij : i ≤ j) : c.lo ≤ c'.lo := by
  rw [Binary64.le_iff_units_le h.lo_isFinite h'.lo_isFinite, h.lo_units, h'.lo_units]
  exact (x.line_strictMono k).monotone hij

theorem hi_le (h : c.IsCell x k i) (h' : c'.IsCell x k j) (hij : i ≤ j) : c.hi ≤ c'.hi := by
  rw [Binary64.le_iff_units_le h.hi_isFinite h'.hi_isFinite, h.hi_units, h'.hi_units]
  exact (x.line_strictMono k).monotone (Nat.succ_le_succ hij)

end Interval.IsCell

namespace Geohash

/-- Does the direction lead along the axis, towards greater or towards smaller coordinates? -/
def Direction.Leads (d : Direction) (x : Axis) (upward : Bool) : Prop :=
  d.axis = x ∧ d.upward = upward

namespace Direction

variable {d d' : Direction} {x : Axis} {n i : Nat}

theorem eq_of_leads {upward : Bool} (h : d.Leads x upward) (h' : d'.Leads x upward) : d = d' :=
  eq_of_axis_of_upward (h.1.trans h'.1.symm) (h.2.trans h'.2.symm)

theorem moved_le (h : ¬ d.Leads x true) : d.moved x n i ≤ i := by
  by_cases haxis : x = d.axis
  · subst haxis
    have hdown : d.upward = false := by simpa [Leads] using h
    rw [d.moved_axis, hdown]
    exact Nat.sub_le i 1
  · rw [d.moved_other haxis]

theorem le_moved (hi : i < n) (h : ¬ d.Leads x false) : i ≤ d.moved x n i := by
  by_cases haxis : x = d.axis
  · subst haxis
    have hup : d.upward = true := by simpa [Leads] using h
    rw [d.moved_axis, hup]
    exact le_min (Nat.le_succ i) (Nat.le_sub_one_of_lt hi)
  · rw [d.moved_other haxis]

end Direction

namespace Hash

variable {h k : Hash} {d : Direction} {x : Axis}

/-- Only a step north or east leads to a cell that begins further there. -/
theorem lo_le_of_adjacent (hlen : h.length ≤ maxLength) (hadj : h.adjacent d = .ok k)
    (hd : ¬ d.Leads x true) : (k.bounds.along x).lo ≤ (h.bounds.along x).lo := by
  obtain ⟨i, hi⟩ := h.exists_at hlen x
  have hk := adjacent_at hlen hadj hi
  unfold At at hi hk
  rw [adjacent_length hlen hadj] at hk
  exact hk.lo_le hi (Direction.moved_le hd)

/-- Only a step south or west leads to a cell that ends further there. -/
theorem hi_le_of_adjacent (hlen : h.length ≤ maxLength) (hadj : h.adjacent d = .ok k)
    (hd : ¬ d.Leads x false) : (h.bounds.along x).hi ≤ (k.bounds.along x).hi := by
  obtain ⟨i, hi⟩ := h.exists_at hlen x
  have hk := adjacent_at hlen hadj hi
  unfold At at hi hk
  rw [adjacent_length hlen hadj] at hk
  exact hi.hi_le hk (Direction.le_moved hi.index_lt hd)

end Hash

end Geohash

namespace Filling

variable {n passes : Nat} {T : Set Hash} {cells : CellMap} {key : Hash} {c : Cell}

/-! ## 3. Filling -/

/-- One of two different neighbours is reached without a step in the given direction. -/
theorem Supported.exists_not_leads (h : Supported T key) (x : Axis) (upward : Bool) :
    ∃ d k, k ∈ T ∧ key.adjacent d = .ok k ∧ ¬ d.Leads x upward := by
  obtain ⟨a, b, hne, ⟨d, ha⟩, ⟨d', hb⟩, haT, hbT⟩ := h
  by_cases hleads : d.Leads x upward
  · refine ⟨d', b, hbT, hb, fun hleads' => hne ?_⟩
    rw [Direction.eq_of_leads hleads hleads', hb] at ha
    exact (Except.ok.inj ha).symm
  · exact ⟨d, a, haT, ha, hleads⟩

/-- **The keys of the cells within any bounds are closed.** -/
theorem closed_within (hmax : n ≤ maxLength) (outer : Bounds) :
    Closed n {key | key.bounds.Within outer} := by
  intro key hlength hsupported x
  have hlen : key.length ≤ maxLength := hlength.le.trans hmax
  obtain ⟨d, low, hlow, hadj, hd⟩ := hsupported.exists_not_leads x true
  obtain ⟨d', high, hhigh, hadj', hd'⟩ := hsupported.exists_not_leads x false
  exact ⟨Binary64.le_trans (hlow x).1 (Hash.lo_le_of_adjacent hlen hadj hd),
    Binary64.le_trans (Hash.hi_le_of_adjacent hlen hadj' hd') (hhigh x).2⟩

/-- Filling stays in the hull of the keys. -/
theorem fill_subset_hull (hmax : n ≤ maxLength) (h : cells.Uniform n) (passes : Nat) :
    (fill cells passes).cells.keySet ⊆ hull n cells.keySet := by
  rw [fill_cells, run_eq_runBy]
  exact (runBy_covers (fun _ _ => List.Perm.refl _) hmax h passes 0).below

/-- **Filling stays within all bounds that the cells lie within.** -/
theorem fill_within (hmax : n ≤ maxLength) (h : cells.Uniform n) {outer : Bounds}
    (houter : ∀ key, cells.contains key = true → key.bounds.Within outer)
    (hkey : (fill cells passes).cells.contains key = true) : key.bounds.Within outer :=
  hull_subset (T := {key | key.bounds.Within outer}) houter (closed_within hmax outer)
    (fill_subset_hull hmax h passes hkey)

/-- Nothing comes of nothing. -/
theorem keys_ne_nil_of_fill (hmax : n ≤ maxLength) (h : cells.Uniform n)
    (hkey : (fill cells passes).cells.contains key = true) : cells.keys ≠ [] := by
  intro hnone
  have hempty : cells.keySet ⊆ ∅ := fun key hkey => by
    have hmem := CellMap.mem_keys.mpr hkey
    rw [hnone] at hmem
    cases hmem
  have hclosed : Closed n ∅ := fun key _ ⟨_, _, _, _, _, hnot, _⟩ => hnot
  exact hull_subset hempty hclosed (fill_subset_hull hmax h passes hkey)

/-- A cell that comes into the map has the bounds of its key. -/
theorem fill_bounds (hnew : cells.contains key = false)
    (hc : (fill cells passes).cells.get? key = some c) : c.key = key ∧ c.bounds = key.bounds := by
  have hall : ∀ key c, cells.contains key = false → (fill cells passes).cells.get? key = some c →
      c.key = key ∧ c.bounds = key.bounds := by
    refine fill_induction (Q := fun m => ∀ key c, cells.contains key = false →
      m.get? key = some c → c.key = key ∧ c.bounds = key.bounds) ?_ ?_ passes
    · intro pass p site _ _ hp key c hnew hc
      unfold look at hc
      split at hc
      · rw [CellMap.get?_insert] at hc
        split at hc
        · rename_i hkey
          rw [← Option.some.inj hc]
          exact ⟨hkey, congrArg Hash.bounds hkey⟩
        · exact hp key c hnew hc
      · exact hp key c hnew hc
    · intro key c hnew hc
      rw [CellMap.contains_eq_false_iff.mp hnew] at hc
      cases hc
  exact hall key c hnew hc

/-- Cells that have the bounds of their keys. -/
theorem mem_bounds_iff (h : ∀ key c, cells.get? key = some c → c.bounds = key.bounds) (b : Bounds) :
    b ∈ cells.keys.map Hash.bounds ↔ b ∈ cells.cells.map Cell.bounds := by
  rw [List.mem_map, List.mem_map]
  constructor
  · rintro ⟨key, hkey, rfl⟩
    obtain ⟨c, hc⟩ := CellMap.contains_iff.mp (CellMap.mem_keys.mp hkey)
    exact ⟨c, CellMap.mem_cells.mpr ⟨key, hc⟩, h key c hc⟩
  · rintro ⟨c, hc, rfl⟩
    obtain ⟨key, hc⟩ := CellMap.mem_cells.mp hc
    exact ⟨key, CellMap.mem_keys.mpr (CellMap.contains_iff.mpr ⟨c, hc⟩), (h key c hc).symm⟩

/-- **Filling never leaves the frame of a map.**  For a map whose keys have one length there is a least
rectangle that holds the cells of all keys -- that is, all cells, where they have the bounds of their
keys.  Every cell that filling adds, in however many passes, lies within it, so that it is also the
frame of the map in the end. -/
theorem filled_within_frame (hmax : n ≤ 12) (h : cells.Uniform n)
    (hnew : cells.contains key = false) (hc : (fill cells passes).cells.get? key = some c) :
    ∃ frame, IsFrame (cells.keys.map Hash.bounds) frame ∧
      ((∀ key c, cells.get? key = some c → c.bounds = key.bounds) →
        IsFrame (cells.cells.map Cell.bounds) frame) ∧
      c.key = key ∧ c.bounds = key.bounds ∧ c.bounds.Within frame ∧
      IsFrame ((fill cells passes).cells.keys.map Hash.bounds) frame := by
  have hkey : (fill cells passes).cells.contains key = true := CellMap.contains_iff.mpr ⟨c, hc⟩
  have hfinite : ∀ b ∈ cells.keys.map Hash.bounds, ∀ x,
      (b.along x).lo.isFinite = true ∧ (b.along x).hi.isFinite = true := by
    intro b hb x
    obtain ⟨key, hkey, rfl⟩ := List.mem_map.mp hb
    have hlen := uniform_short h hmax key (CellMap.mem_keys.mp hkey)
    obtain ⟨i, hi⟩ := key.exists_at hlen x
    exact ⟨hi.lo_isFinite, hi.hi_isFinite⟩
  have hne : cells.keys.map Hash.bounds ≠ [] := fun hnone =>
    keys_ne_nil_of_fill hmax h hkey (List.map_eq_nil_iff.mp hnone)
  obtain ⟨frame, hframe⟩ := exists_isFrame hne hfinite
  have houter : ∀ key, cells.contains key = true → key.bounds.Within frame := fun key hkey =>
    hframe.holds key.bounds (List.mem_map_of_mem (CellMap.mem_keys.mpr hkey))
  obtain ⟨hown, hbounds⟩ := fill_bounds hnew hc
  refine ⟨frame, hframe, fun hplaced => hframe.congr (mem_bounds_iff hplaced), hown, hbounds,
    hbounds ▸ fill_within hmax h houter hkey, hframe.extend (fun b hb => ?_) fun b hb => ?_⟩
  · obtain ⟨key, hkey, rfl⟩ := List.mem_map.mp hb
    have hkept := (fill_keeps cells passes).contains (CellMap.mem_keys.mp hkey)
    exact List.mem_map_of_mem (CellMap.mem_keys.mpr hkept)
  · obtain ⟨key, hkey, rfl⟩ := List.mem_map.mp hb
    exact fill_within hmax h houter (CellMap.mem_keys.mp hkey)

/-- The gap between two cells at the south pole lies within the frame of the two. -/
theorem southwest_within_frame :
    southwest.contains ⟨[1], by decide⟩ = false ∧
    (fill southwest 1).cells.get? ⟨[1], by decide⟩ =
      some (Cell.filled ⟨[1], by decide⟩ 1010 0) ∧
    ∃ frame, IsFrame (southwest.keys.map Hash.bounds) frame ∧
      (Cell.filled ⟨[1], by decide⟩ 1010 0).bounds.Within frame := by
  have hnew : southwest.contains ⟨[1], by decide⟩ = false := by decide +kernel
  have hc : (fill southwest 1).cells.get? ⟨[1], by decide⟩ =
      some (Cell.filled ⟨[1], by decide⟩ 1010 0) := by decide +kernel
  obtain ⟨frame, hframe, -, -, -, hwithin, -⟩ :=
    filled_within_frame (by decide) southwest_uniform hnew hc
  exact ⟨hnew, hc, frame, hframe, hwithin⟩

end Filling

end Barogrid
