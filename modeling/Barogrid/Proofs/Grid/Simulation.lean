import Mathlib
import Barogrid.Proofs.Grid.Run

/-!
# Maps that filling cannot tell apart

Filling reads the keys of a map and the values under them, and nothing else of a cell.  So what it
does to two maps that agree in these it does to both at once, whatever else tells them apart, be it the
passes that have filled their cells.

* `CellMap.keys_sublist`, `CellMap.keys_eq` -- keys that are fewer, or the same, are listed so;
* `Simulation` -- a relation between maps that agree, which is kept when a pass of one and a later pass
  of the other fill the same cell;
* `Simulation.run` -- **it is kept by all passes**, of which the reports are the same.
-/

namespace Barogrid

open Geohash (Hash)

/-! ## 1. The lists of keys of two maps -/

namespace CellMap

variable {m m' : CellMap}

/-- Fewer keys are listed in the same order. -/
theorem keys_sublist (h : ∀ key, m.contains key = true → m'.contains key = true) :
    m.keys.Sublist m'.keys := by
  have hsubset : m.keys ⊆ m'.keys := fun key hkey => mem_keys.mpr (h key (mem_keys.mp hkey))
  have : Std.Antisymm fun key key' : Hash => compare key key' = .lt := by
    refine ⟨fun key key' hlt hgt => ?_⟩
    rw [Std.OrientedCmp.gt_of_lt hgt] at hlt
    cases hlt
  exact List.sublist_of_subperm_of_pairwise
    (List.Nodup.subperm Std.ExtTreeMap.nodup_keys hsubset)
    Std.ExtTreeMap.ordered_keys Std.ExtTreeMap.ordered_keys

theorem keys_eq (h : ∀ key, m.contains key = m'.contains key) : m.keys = m'.keys :=
  (keys_sublist fun key hkey => (h key).symm.trans hkey).antisymm
    (keys_sublist fun key hkey => (h key).trans hkey)

end CellMap

namespace Filling

variable {m m' : CellMap} {p p' : Progress} {key : Hash} {later : Nat}
  {R : CellMap → CellMap → Prop}

/-! ## 2. Maps that agree -/

/-- The maps have the same keys, with the same values under them. -/
def Agree (m m' : CellMap) : Prop := ∀ key, m.average? key = m'.average? key

namespace Agree

variable (h : Agree m m')

include h

theorem contains (key : Hash) : m.contains key = m'.contains key := by
  rw [← CellMap.average?_isSome, ← CellMap.average?_isSome, h]

theorem surroundings (key : Hash) : Filling.surroundings m key = Filling.surroundings m' key :=
  List.filterMap_congr fun key' _ => h key'

theorem ready (key : Hash) : Ready m key ↔ Ready m' key := by
  unfold Ready
  rw [h.contains, h.surroundings]

theorem sites : Filling.sites m = Filling.sites m' := by
  unfold Filling.sites
  rw [CellMap.keys_eq h.contains]

end Agree

/-! ## 3. Relations that filling keeps -/

/-- **Related maps agree, and filling a cell of both keeps them related**, the second of them `later`
passes after the first. -/
structure Simulation (R : CellMap → CellMap → Prop) (later : Nat) : Prop where
  agree : ∀ {m m'}, R m m' → Agree m m'
  fill : ∀ {m m' key} pass, R m m' → Ready m key →
    R (m.insert (filling pass m key)) (m'.insert (filling (pass + later) m' key))

/-- Related maps, with the same count. -/
def Progress.Related (R : CellMap → CellMap → Prop) (p p' : Progress) : Prop :=
  R p.cells p'.cells ∧ p.created = p'.created

namespace Simulation

variable (h : Simulation R later)

include h

theorem look (hp : p.Related R p') (pass : Nat) (site : Site) :
    (look pass p site).Related R (look (pass + later) p' site) := by
  unfold Filling.look
  have hready := (h.agree hp.1).ready site.target
  by_cases hp₀ : Ready p.cells site.target
  · rw [if_pos hp₀, if_pos (hready.mp hp₀)]
    exact ⟨h.fill pass hp.1 hp₀, congrArg (· + 1) hp.2⟩
  · rw [if_neg hp₀, if_neg (mt hready.mpr hp₀)]
    exact hp

theorem sweep (hp : p.Related R p') (pass : Nat) (sites : List Site) :
    (sweep pass sites p).1.Related R (sweep (pass + later) sites p').1 ∧
      (sweep pass sites p).2 = (sweep (pass + later) sites p').2 := by
  induction sites generalizing p p' with
  | nil => exact ⟨hp, rfl⟩
  | cons site sites ih =>
    unfold Filling.sweep
    by_cases hsite : site.Short
    · rw [visit_eq hsite, visit_eq hsite]
      exact ih (h.look hp pass site)
    · rw [visit_of_long hsite, visit_of_long hsite]
      exact ⟨hp, rfl⟩

theorem once (hm : R m m') (pass : Nat) :
    R (once pass m).cells (once (pass + later) m').cells ∧
      (once pass m).created = (once (pass + later) m').created := by
  have hstart : Progress.Related R ⟨m, 0⟩ ⟨m', 0⟩ := ⟨hm, rfl⟩
  obtain ⟨hp, hf⟩ := h.sweep hstart pass (sites m)
  rw [Filling.once, Filling.once, ← (h.agree hm).sites]
  generalize Filling.sweep pass (sites m) ⟨m, 0⟩ = q at hp hf ⊢
  generalize Filling.sweep (pass + later) (sites m) ⟨m', 0⟩ = q' at hp hf ⊢
  obtain ⟨p, f⟩ := q
  obtain ⟨p', f'⟩ := q'
  obtain rfl : f = f' := hf
  obtain ⟨hcells, hcreated⟩ : R p.cells p'.cells ∧ p.created = p'.created := hp
  cases f with
  | some f => exact ⟨hcells, rfl⟩
  | none => exact ⟨hcells, congrArg (fun count => Except.ok [count]) hcreated⟩

/-- **All passes keep maps related and report the same**, also where they fail. -/
theorem run (hm : R m m') (left pass : Nat) :
    R (run left pass m).cells (run left (pass + later) m').cells ∧
      (run left pass m).created = (run left (pass + later) m').created := by
  induction left generalizing pass m m' with
  | zero => exact ⟨hm, rfl⟩
  | succ left ih =>
    obtain ⟨hcells, hcreated⟩ := h.once hm pass
    rw [Filling.run, Filling.run, Outcome.andThen, Outcome.andThen, ← hcreated]
    cases (Filling.once pass m).created with
    | error f => exact ⟨hcells, hcreated⟩
    | ok counts =>
      obtain ⟨hrun, hrest⟩ := ih hcells (pass + 1)
      rw [Nat.add_right_comm] at hrun hrest
      exact ⟨hrun, congrArg (Except.map (counts ++ ·)) hrest⟩

end Simulation

end Filling

end Barogrid
