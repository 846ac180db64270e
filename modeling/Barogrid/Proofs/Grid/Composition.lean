import Mathlib
import Barogrid.Proofs.Grid.Simulation
import Barogrid.Proofs.Grid.Uniform

/-!
# Filling in parts

The number of a pass goes into the cells that it fills and nowhere else.  So a map can be filled in
parts, the second part beginning with the number 0 again: it fills the same cells with the same values,
and only the numbers are smaller, by the passes of the first part.

* `Cell.delayed`, `CellMap.DelayedBy` -- the same cells, filled in later passes;
* `delayedBy_simulation` -- filling keeps two maps equal but for the numbers of passes;
* `singly_delayedBy` -- **a run is as many fillings of one pass each**;
* `passes_compose` -- **the parts of a filling put together are the filling**, but for the length of
  the report.
-/

namespace Barogrid

open Geohash (Hash)

/-! ## 1. Cells that differ in the number of a pass -/

/-- The origin of a cell that is filled so many passes later.  Readings are in no pass. -/
def Origin.delayed (later : Nat) : Origin → Origin
  | .observed readings => .observed readings
  | .filled pass => .filled (pass + later)

/-- The cell, filled so many passes later. -/
def Cell.delayed (later : Nat) (c : Cell) : Cell := { c with origin := c.origin.delayed later }

@[simp]
theorem Cell.delayed_zero (c : Cell) : c.delayed 0 = c := by
  obtain ⟨key, bounds, average, _ | pass⟩ := c <;> rfl

namespace CellMap

variable {m m' : CellMap} {delay delay' : Hash → Nat} {key : Hash} {later : Nat}

/-- The cells of `m'` are those of `m`, each filled as many passes later as `delay` says. -/
def DelayedBy (delay : Hash → Nat) (m m' : CellMap) : Prop :=
  ∀ key, m'.get? key = (m.get? key).map (Cell.delayed (delay key))

/-- The cells of the map are where they were; those that come to them are so many passes later. -/
def lag (m : CellMap) (later : Nat) (key : Hash) : Nat := if m.contains key then 0 else later

theorem lag_of_contains (h : m.contains key = true) : m.lag later key = 0 := if_pos h

theorem lag_of_not_contains (h : m.contains key = false) : m.lag later key = later := by
  rw [lag, h]
  rfl

/-- Only the delay of cells that are there matters. -/
theorem DelayedBy.congr (h : m.DelayedBy delay m')
    (hdelay : ∀ key, m.contains key = true → delay' key = delay key) : m.DelayedBy delay' m' := by
  intro key
  rw [h key]
  cases hkey : m.get? key with
  | none => rfl
  | some c => rw [hdelay key (contains_iff.mpr ⟨c, hkey⟩)]

theorem DelayedBy.agree (h : m.DelayedBy delay m') : Filling.Agree m m' := by
  intro key
  unfold average?
  rw [h key, Option.map_map]
  rfl

theorem delayedBy_zero (m : CellMap) : m.DelayedBy (fun _ => 0) m := by
  intro key
  cases m.get? key with
  | none => rfl
  | some c => exact congrArg some c.delayed_zero.symm

theorem DelayedBy.insert (h : m.DelayedBy delay m') (c : Cell) :
    (m.insert c).DelayedBy delay (m'.insert (c.delayed (delay c.key))) := by
  intro key
  have hkey : (c.delayed (delay c.key)).key = c.key := rfl
  rw [get?_insert, get?_insert, hkey]
  by_cases heq : c.key = key
  · rw [if_pos heq, if_pos heq, ← heq]
    rfl
  · rw [if_neg heq, if_neg heq]
    exact h key

end CellMap

namespace Filling

variable {cells m m' : CellMap} {delay : Hash → Nat} {later : Nat}

/-! ## 2. Runs that differ in the number of the first pass -/

/-- Cells that come to those of `start` are delayed by as many passes as the runs are apart. -/
theorem delayedBy_simulation {start : CellMap}
    (hnew : ∀ key, start.contains key = false → delay key = later) :
    Simulation (fun m m' => start.KeptBy m ∧ m.DelayedBy delay m') later where
  agree h := h.2.agree
  fill {m m' key} pass h hready := by
    obtain ⟨hkept, hdelayed⟩ := h
    have hstart : start.contains key = false := by
      by_contra hkey
      exact absurd (hready.1.symm.trans (hkept.contains (by simpa using hkey))) Bool.noConfusion
    have hfilling : filling (pass + later) m' key = (filling pass m key).delayed (delay key) := by
      rw [hnew key hstart, filling, ← hdelayed.agree.surroundings]
      rfl
    rw [hfilling]
    exact ⟨hkept.trans (CellMap.keptBy_insert hready.1), hdelayed.insert (filling pass m key)⟩

/-- **Runs over maps that are equal but for numbers of passes** report the same and leave such maps. -/
theorem run_delayedBy (h : m.DelayedBy delay m')
    (hnew : ∀ key, m.contains key = false → delay key = later) (left pass : Nat) :
    (run left pass m).cells.DelayedBy delay (run left (pass + later) m').cells ∧
      (run left pass m).created = (run left (pass + later) m').created := by
  obtain ⟨⟨-, hcells⟩, hcreated⟩ :=
    (delayedBy_simulation hnew).run ⟨CellMap.KeptBy.refl m, h⟩ left pass
  exact ⟨hcells, hcreated⟩

/-- Over one map, only the numbers of the cells that are filled differ. -/
theorem run_later (m : CellMap) (left pass later : Nat) :
    (run left pass m).cells.DelayedBy (m.lag later) (run left (pass + later) m).cells ∧
      (run left pass m).created = (run left (pass + later) m).created :=
  run_delayedBy (m.delayedBy_zero.congr fun _ => CellMap.lag_of_contains)
    (fun _ => CellMap.lag_of_not_contains) left pass

/-! ## 3. Fillings of one pass each -/

/-- So many fillings of one pass each, every one of what the one before it has left. -/
def singly (cells : CellMap) : Nat → Outcome
  | 0 => ⟨cells, .ok []⟩
  | n + 1 => (singly cells n).andThen fun m => fill m 1

/-- By which of `n` such fillings a cell came, counted from 0. -/
def arrival (cells : CellMap) : Nat → Hash → Nat
  | 0, _ => 0
  | n + 1, key => if (singly cells n).cells.contains key then arrival cells n key else n

/-- **A run is as many fillings of one pass each**: these report the same and leave the same cells, each
of which has in the single run the number of the filling that it came by. -/
theorem singly_delayedBy (cells : CellMap) (n : Nat) :
    (singly cells n).cells.DelayedBy (arrival cells n) (run n 0 cells).cells ∧
      (singly cells n).created = (run n 0 cells).created := by
  induction n with
  | zero => exact ⟨cells.delayedBy_zero, rfl⟩
  | succ n ih =>
    obtain ⟨hcells, hcreated⟩ := ih
    have hlast : (singly cells n).cells.DelayedBy (arrival cells (n + 1)) (run n 0 cells).cells :=
      hcells.congr fun key hkey => if_pos hkey
    obtain ⟨hnext, hreport⟩ := run_delayedBy hlast
      (fun key hkey => by rw [arrival, hkey]; rfl) 1 0
    have hone : fill (singly cells n).cells 1 = run 1 0 (singly cells n).cells := fill_eq_run (by decide)
    rw [run_add, singly, Outcome.andThen, Outcome.andThen, hcreated]
    cases (run n 0 cells).created with
    | error f => exact ⟨hlast, hcreated⟩
    | ok counts =>
      rw [hone]
      exact ⟨hnext, congrArg (Except.map (counts ++ ·)) hreport⟩

/-! ## 4. Parts of a filling -/

/-- **Passes compose.**  Filling in `a + b` passes leaves what `b` passes make of what `a` passes have
left, only that the numbers of the passes of the second part begin with 0 again; more passes keep every
cell.  The report is put together from those of the parts -- as far as these can be held: the whole may
be too long for a report where the parts are not.  So it is with `n` fillings of one pass each, all of
which are carried out: they leave the same cells, and report what filling in `n` passes would. -/
theorem passes_compose (h : Short cells) (a b : Nat) :
    (fill (fill cells a).cells b).cells.DelayedBy ((fill cells a).cells.lag a)
        (fill cells (a + b)).cells ∧
      (fill cells a).cells.KeptBy (fill cells (a + b)).cells ∧
      (∃ first second,
        (fill cells a).created =
          (if longestReport < a then .error (.overflow "report of the passes") else .ok first) ∧
        (fill (fill cells a).cells b).created =
          (if longestReport < b then .error (.overflow "report of the passes") else .ok second) ∧
        (fill cells (a + b)).created =
          if longestReport < a + b then .error (.overflow "report of the passes")
          else .ok (first ++ second)) ∧
      ∀ n, (fill cells n).cells = (run n 0 cells).cells ∧
        (singly cells n).cells.DelayedBy (arrival cells n) (fill cells n).cells ∧
        ∃ counts, (run n 0 cells).created = .ok counts ∧ (singly cells n).created = .ok counts ∧
          (fill cells n).created =
            if longestReport < n then .error (.overflow "report of the passes") else .ok counts := by
  obtain ⟨first, second, hfirst, hsecond, hrun⟩ := run_add_of_short h a b 0
  rw [← fill_cells] at hsecond hrun
  obtain ⟨hcells, hcreated⟩ := run_later (fill cells a).cells b 0 a
  refine ⟨?_, fill_keptBy h (Nat.le_add_right a b), ⟨first, second, fill_created_of_run hfirst,
    fill_created_of_run (hcreated.trans hsecond),
    fill_created_of_run (congrArg Outcome.created hrun)⟩, fun n => ?_⟩
  · rw [fill_cells _ b, fill_cells cells (a + b), hrun]
    exact hcells
  · obtain ⟨counts, hcounts, -⟩ := run_isOk h n 0
    obtain ⟨hsingly, hreport⟩ := singly_delayedBy cells n
    refine ⟨fill_cells cells n, ?_, counts, hcounts, hreport.trans hcounts,
      fill_created_of_run hcounts⟩
    rw [fill_cells]
    exact hsingly

/-- Three cells on a diagonal get four neighbors in one pass and two more in another, and so they do in
two fillings of one pass.  The last two have the number 1 in the single filling and 0 in the second of the
two.  When 2^60 - 1 passes more are asked for after the first, there is no report. -/
theorem passes_compose_diagonal :
    Short diagonal ∧ (fill diagonal 2).created = .ok [4, 2] ∧
      (fill (fill diagonal 1).cells 1).cells.DelayedBy ((fill diagonal 1).cells.lag 1)
        (fill diagonal 2).cells ∧
      (fill diagonal 2).cells.cells.map Cell.pass? =
        [some 0, some 0, some 0, some 0, some 1, some 0, some 1, some 0, some 0] ∧
      (fill (fill diagonal 1).cells 1).cells.cells.map Cell.pass? =
        [some 0, some 0, some 0, some 0, some 0, some 0, some 0, some 0, some 0] ∧
      (fill diagonal (1 + 0xfffffffffffffff)).created = .error (.overflow "report of the passes") := by
  have hshort : Short diagonal := uniform_short diagonal_uniform (by decide)
  -- one evaluation for all, because it meets the same map again and again
  have hruns : (fill diagonal 1).created = .ok [4] ∧
      (fill (fill diagonal 1).cells 1).created = .ok [2] ∧
      (fill diagonal 2).cells.cells.map Cell.pass? =
        [some 0, some 0, some 0, some 0, some 1, some 0, some 1, some 0, some 0] ∧
      (fill (fill diagonal 1).cells 1).cells.cells.map Cell.pass? =
        [some 0, some 0, some 0, some 0, some 0, some 0, some 0, some 0, some 0] := by
    decide +kernel
  obtain ⟨honce, hagain, hnumbers, hanew⟩ := hruns
  obtain ⟨hcells, -, ⟨first, second, hfirst, hsecond, hboth⟩, -⟩ := passes_compose hshort 1 1
  obtain ⟨-, -, ⟨_, _, -, -, hmore⟩, -⟩ := passes_compose hshort 1 0xfffffffffffffff
  rw [honce] at hfirst
  rw [hagain] at hsecond
  cases hfirst
  cases hsecond
  exact ⟨hshort, hboth, hcells, hnumbers, hanew, hmore⟩

end Filling

end Barogrid
