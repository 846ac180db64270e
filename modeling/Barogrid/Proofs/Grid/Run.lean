import Mathlib
import Barogrid.Proofs.Grid.Pass
import Barogrid.Proofs.Yields

/-!
# What all passes do

Filling ends early, after a pass that has filled nothing, and reports the passes that are left as idle
ones.  This file sets the run beside it in which every pass is carried out, and from which all the
passes can be told one after the other.

* `run` -- so many passes, each on the map that the one before has left;
* `run_induction` -- what each look keeps is kept by all passes, also when a failure ends them;
* `run_isOk`, `run_isError_iff` -- **passes fail only on keys that are too long**;
* `run_add` -- later passes take the map that the earlier ones have left;
* `run_succ`, `run_eq_work` -- **it makes no difference that the work ends early**;
* `fill_cells`, `fill_eq_run` -- **filling leaves the map of the run**, and its report where the passes
  are not too many for one;
* `fill_isError_iff`, `fill_overflows` -- **which fillings fail**, and how those with too many passes do.
-/

namespace Barogrid.Filling

open Geohash (Hash Direction maxLength)

variable {cells : CellMap} {pass passes : Nat}

/-! ## 1. All passes -/

/-- Work that goes on with the map that `o` has left, unless that has failed.  The reports are joined. -/
def Outcome.andThen (o : Outcome) (next : CellMap → Outcome) : Outcome :=
  match o.created with
  | .error _ => o
  | .ok counts => ⟨(next o.cells).cells, (next o.cells).created.map (counts ++ ·)⟩

/-- One pass. -/
def once (pass : Nat) (cells : CellMap) : Outcome :=
  match sweep pass (sites cells) ⟨cells, 0⟩ with
  | (p, some f) => ⟨p.cells, .error f⟩
  | (p, none) => ⟨p.cells, .ok [p.created]⟩

/-- **So many passes, all of which are carried out** and reported, as if a report could be of any length.
The first has the number `pass`. -/
def run : Nat → Nat → CellMap → Outcome
  | 0, _, cells => ⟨cells, .ok []⟩
  | left + 1, pass, cells => (once pass cells).andThen (run left (pass + 1))

theorem Outcome.andThen_nil (next : CellMap → Outcome) (cells : CellMap) :
    (⟨cells, .ok []⟩ : Outcome).andThen next = next cells := by
  show (⟨(next cells).cells, (next cells).created.map ([] ++ ·)⟩ : Outcome) = next cells
  obtain ⟨cells', created⟩ := next cells
  cases created <;> rfl

theorem Outcome.andThen_assoc (o : Outcome) (f g : CellMap → Outcome) :
    (o.andThen f).andThen g = o.andThen fun m => (f m).andThen g := by
  obtain ⟨cells, _ | counts⟩ := o
  · rfl
  show Outcome.andThen ⟨(f cells).cells, (f cells).created.map (counts ++ ·)⟩ g =
    ⟨((f cells).andThen g).cells, ((f cells).andThen g).created.map (counts ++ ·)⟩
  obtain ⟨cells', _ | counts'⟩ := f cells
  · rfl
  show (⟨(g cells').cells, (g cells').created.map (counts ++ counts' ++ ·)⟩ : Outcome) =
    ⟨(g cells').cells, ((g cells').created.map (counts' ++ ·)).map (counts ++ ·)⟩
  obtain ⟨cells'', _ | counts''⟩ := g cells'
  · rfl
  · exact congrArg (fun counts => (⟨cells'', .ok counts⟩ : Outcome)) (List.append_assoc _ _ _)

theorem once_cells (pass : Nat) (cells : CellMap) :
    (once pass cells).cells = (sweep pass (sites cells) ⟨cells, 0⟩).1.cells := by
  unfold once
  rcases sweep pass (sites cells) ⟨cells, 0⟩ with ⟨p, _ | f⟩ <;> rfl

theorem Short.once_eq (h : Short cells) (pass : Nat) :
    once pass cells =
      let p := (Filling.sites cells).foldl (look pass) ⟨cells, 0⟩
      ⟨p.cells, .ok [p.created]⟩ := by
  rw [once, h.sweep_eq]

/-! ## 2. What passes keep -/

/-- **What every look at a neighbour of a present cell keeps, all passes keep**, also when a failure ends
them. -/
theorem run_induction {Q : CellMap → Prop}
    (hlook : ∀ pass p site, site.Short → p.cells.contains site.key = true → Q p.cells →
      Q (look pass p site).cells)
    (h : Q cells) (left pass : Nat) : Q (run left pass cells).cells := by
  induction left generalizing pass cells with
  | zero => exact h
  | succ left ih =>
    have honce : Q (once pass cells).cells := by
      rw [once_cells]
      exact sweep_induction hlook (fun site hsite => mem_sites.mp hsite) h
    rw [run, Outcome.andThen]
    cases (once pass cells).created with
    | error f => exact honce
    | ok counts => exact ih honce (pass + 1)

theorem run_keeps (left pass : Nat) (cells : CellMap) : cells.KeptBy (run left pass cells).cells :=
  run_induction (fun pass p site _ _ h => h.trans (look_keeps pass p site))
    (CellMap.KeptBy.refl cells) left pass

/-- A property of keys that a cell shares with its neighbours is one of all keys afterwards. -/
theorem run_keys {P : Hash → Prop} (hP : ∀ (h : Hash) (d : Direction), h.length ≤ maxLength → P h →
    P (h.next d)) (h : cells.Keys P) (left pass : Nat) : (run left pass cells).cells.Keys P :=
  run_induction (fun _ _ site hshort hkey hp =>
    look_keys (hP site.key site.direction hshort (hp site.key hkey)) hp) h left pass

theorem run_short (h : Short cells) (left pass : Nat) : Short (run left pass cells).cells :=
  run_keys (fun _ d hlen _ => (Hash.length_next hlen d).le.trans hlen) h left pass

theorem run_succ_of_short (h : Short cells) (left pass : Nat) :
    run (left + 1) pass cells =
      let p := (sites cells).foldl (look pass) ⟨cells, 0⟩
      let rest := run left (pass + 1) p.cells
      ⟨rest.cells, rest.created.map (p.created :: ·)⟩ := by
  rw [run, h.once_eq]
  rfl

/-! ## 3. Which passes fail -/

/-- **Without long keys nothing fails**, and each pass is reported. -/
theorem run_isOk (h : Short cells) (left pass : Nat) :
    ∃ created, (run left pass cells).created = .ok created ∧ created.length = left := by
  induction left generalizing pass cells with
  | zero => exact ⟨[], rfl, rfl⟩
  | succ left ih =>
    have hshort := h.foldl_look pass
    rw [run_succ_of_short h]
    generalize (sites cells).foldl (look pass) ⟨cells, 0⟩ = p at hshort
    obtain ⟨created, hrest, hlength⟩ := ih hshort (pass + 1)
    refine ⟨p.created :: created, ?_, by rw [List.length_cons, hlength]⟩
    exact congrArg (Except.map (p.created :: ·)) hrest

/-- With a long key the first pass fails. -/
theorem run_isError (h : ¬ Short cells) (left pass : Nat) :
    ∃ f, (run (left + 1) pass cells).created = .error f := by
  have hfails := mt (sweep_snd pass (sites cells) ⟨cells, 0⟩).mp (mt sites_short_iff.mp h)
  rw [run, once]
  rcases hsweep : sweep pass (sites cells) ⟨cells, 0⟩ with ⟨p, _ | f⟩
  · rw [hsweep] at hfails
    exact absurd rfl hfails
  · exact ⟨f, rfl⟩

/-- **Passes fail exactly where there is one and a key that is too long.** -/
theorem run_isError_iff {left : Nat} :
    (∃ f, (run left pass cells).created = .error f) ↔ 1 ≤ left ∧ ¬ Short cells := by
  constructor
  · rintro ⟨f, hf⟩
    cases left with
    | zero => cases hf
    | succ left =>
      refine ⟨Nat.le_add_left 1 left, fun hshort => ?_⟩
      obtain ⟨created, hok, -⟩ := run_isOk hshort (left + 1) pass
      rw [hok] at hf
      cases hf
  · rintro ⟨hleft, hlong⟩
    obtain ⟨left, rfl⟩ := Nat.exists_eq_add_of_le' hleft
    exact run_isError hlong left pass

/-! ## 4. Pass after pass -/

/-- **Passes can be carried out in two parts**, the second taking the map that the first has left,
unless that has failed. -/
theorem run_add (m n pass : Nat) (cells : CellMap) :
    run (m + n) pass cells = (run m pass cells).andThen (run n (pass + m)) := by
  induction m generalizing pass cells with
  | zero => rw [Nat.zero_add, run, Outcome.andThen_nil]; rfl
  | succ m ih =>
    have hnumber : pass + 1 + m = pass + (m + 1) := Nat.add_right_comm pass 1 m
    have hlater : run (m + n) (pass + 1) =
        fun m' => (run m (pass + 1) m').andThen (run n (pass + (m + 1))) :=
      funext fun m' => by rw [ih, hnumber]
    rw [Nat.add_right_comm, run, run, Outcome.andThen_assoc, hlater]

/-- Where nothing fails, the parts and their reports are simply put together. -/
theorem run_add_of_short (h : Short cells) (m n pass : Nat) :
    ∃ first second, (run m pass cells).created = .ok first ∧
      (run n (pass + m) (run m pass cells).cells).created = .ok second ∧
      run (m + n) pass cells =
        ⟨(run n (pass + m) (run m pass cells).cells).cells, .ok (first ++ second)⟩ := by
  obtain ⟨first, hfirst, -⟩ := run_isOk h m pass
  obtain ⟨second, hsecond, -⟩ := run_isOk (run_short h m pass) n (pass + m)
  refine ⟨first, second, hfirst, hsecond, ?_⟩
  rw [run_add, Outcome.andThen, hfirst]
  simp only [hsecond]
  rfl

theorem run_cells_add (h : Short cells) (m n pass : Nat) :
    (run (m + n) pass cells).cells = (run n (pass + m) (run m pass cells).cells).cells := by
  obtain ⟨first, second, -, -, hrun⟩ := run_add_of_short h m n pass
  rw [hrun]

theorem run_one (pass : Nat) (cells : CellMap) : run 1 pass cells = once pass cells := by
  rw [run, once, Outcome.andThen]
  rcases sweep pass (sites cells) ⟨cells, 0⟩ with ⟨p, _ | f⟩ <;> rfl

/-! ## 5. Ending early -/

/-- Where nothing can be filled, passes leave the map as it is and report it. -/
theorem run_of_not_ready (h : Short cells) (hidle : ∀ site ∈ sites cells, ¬ Ready cells site.target)
    (left pass : Nat) : run left pass cells = ⟨cells, .ok (List.replicate left 0)⟩ := by
  induction left generalizing pass with
  | zero => rfl
  | succ left ih =>
    rw [run_succ_of_short h, foldl_look_of_not_ready (p := ⟨cells, 0⟩) pass hidle]
    simp only [ih]
    rfl

/-- **After a pass that has filled nothing the others fill nothing**: it found nothing to fill, and they
find the same map. -/
theorem run_succ (left pass : Nat) (cells : CellMap) :
    run (left + 1) pass cells =
      match sweep pass (sites cells) ⟨cells, 0⟩ with
      | (p, some f) => ⟨p.cells, .error f⟩
      | (p, none) =>
        if p.created = 0 then ⟨p.cells, .ok (List.replicate (left + 1) 0)⟩
        else ⟨(run left (pass + 1) p.cells).cells,
          (run left (pass + 1) p.cells).created.map (p.created :: ·)⟩ := by
  rcases hsweep : sweep pass (sites cells) ⟨cells, 0⟩ with ⟨p, _ | f⟩
  · have hshort : Short cells := sites_short_iff.mp
      ((sweep_snd pass (sites cells) ⟨cells, 0⟩).mp (by rw [hsweep]))
    have hp : (sites cells).foldl (look pass) ⟨cells, 0⟩ = p :=
      congrArg Prod.fst ((hshort.sweep_eq pass).symm.trans hsweep)
    show _ = (if p.created = 0 then _ else _ : Outcome)
    by_cases hzero : p.created = 0
    · have hidle : ∀ site ∈ sites cells, ¬ Ready cells site.target :=
        not_ready_of_created_eq (p := ⟨cells, 0⟩) ((congrArg Progress.created hp).trans hzero)
      have hsame : p = ⟨cells, 0⟩ := hp.symm.trans (foldl_look_of_not_ready pass hidle)
      rw [if_pos hzero, hsame, run_of_not_ready hshort hidle]
    · rw [if_neg hzero, run_succ_of_short hshort, hp]
  · rw [run, once, hsweep]
    rfl

/-- **Ending the work early makes no difference**, if the passes left out are reported as idle. -/
theorem run_eq_work (left pass : Nat) (cells : CellMap) :
    run left pass cells = ⟨(work left pass cells).cells, (work left pass cells).created.map
      fun counts => counts ++ List.replicate (left - counts.length) 0⟩ := by
  induction left generalizing pass cells with
  | zero => rfl
  | succ left ih =>
    rw [run_succ, work]
    rcases sweep pass (sites cells) ⟨cells, 0⟩ with ⟨p, _ | f⟩
    · show (if p.created = 0 then _ else _ : Outcome) = _
      by_cases hzero : p.created = 0
      · simp only [hzero, ↓reduceIte]
        rfl
      · simp only [hzero, ↓reduceIte, ih (pass + 1) p.cells]
        cases (work left (pass + 1) p.cells).created with
        | error f => rfl
        | ok counts => simp [Except.map]
    · rfl

/-! ## 6. Filling -/

/-- **Filling leaves the map of the run**, -/
theorem fill_cells (cells : CellMap) (passes : Nat) :
    (fill cells passes).cells = (run passes 0 cells).cells := by
  rw [run_eq_work]
  rfl

/-- and its report, unless the passes are too many for one. -/
theorem fill_created (cells : CellMap) (passes : Nat) :
    (fill cells passes).created = (run passes 0 cells).created >>= fun counts =>
      if longestReport < passes then .error (.overflow "report of the passes") else .ok counts := by
  rw [run_eq_work]
  show (work passes 0 cells).created >>= report passes = _
  cases (work passes 0 cells).created with
  | error f => rfl
  | ok counts => rfl

/-- **In as many passes as a report can hold, filling is the run.** -/
theorem fill_eq_run (hfits : passes ≤ longestReport) : fill cells passes = run passes 0 cells := by
  show (⟨(fill cells passes).cells, (fill cells passes).created⟩ : Outcome) = _
  rw [fill_cells, fill_created]
  simp only [not_lt.mpr hfits, ↓reduceIte]
  exact congrArg _ (bind_pure (run passes 0 cells).created)

theorem fill_created_of_run {counts : List Nat} (h : (run passes 0 cells).created = .ok counts) :
    (fill cells passes).created =
      if longestReport < passes then .error (.overflow "report of the passes") else .ok counts := by
  rw [fill_created, h]
  rfl

/-- A filling that has been reported is a run that has been. -/
theorem run_created_of_fill {counts : List Nat} (h : (fill cells passes).created = .ok counts) :
    (run passes 0 cells).created = .ok counts := by
  rw [fill_created] at h
  obtain ⟨counts', hrun, h⟩ := exists_of_bind_eq_ok h
  split at h
  · cases h
  · rwa [Except.ok.inj h] at hrun

/-- **Without long keys filling succeeds in as many passes as a report can hold**, -/
theorem fill_isOk (h : Short cells) (hfits : passes ≤ longestReport) :
    ∃ created, (fill cells passes).created = .ok created ∧ created.length = passes := by
  rw [fill_eq_run hfits]
  exact run_isOk h passes 0

/-- **and in more it does not**, although the map has been filled. -/
theorem fill_overflows (h : Short cells) (hlong : longestReport < passes) :
    (fill cells passes).created = .error (.overflow "report of the passes") := by
  obtain ⟨counts, hcounts, -⟩ := run_isOk h passes 0
  rw [fill_created_of_run hcounts, if_pos hlong]

/-- **Filling fails exactly where there is a pass and a key that is too long, and where there are too
many passes.** -/
theorem fill_isError_iff : (∃ f, (fill cells passes).created = .error f) ↔
    (1 ≤ passes ∧ ¬ Short cells) ∨ longestReport < passes := by
  by_cases hlong : longestReport < passes
  · refine iff_of_true ?_ (Or.inr hlong)
    rw [fill_created]
    cases (run passes 0 cells).created with
    | error f => exact ⟨f, rfl⟩
    | ok counts => exact ⟨_, if_pos hlong⟩
  · rw [fill_eq_run (not_lt.mp hlong), run_isError_iff]
    exact (or_iff_left hlong).symm

/-- What each look keeps, filling keeps. -/
theorem fill_induction {Q : CellMap → Prop}
    (hlook : ∀ pass p site, site.Short → p.cells.contains site.key = true → Q p.cells →
      Q (look pass p site).cells)
    (h : Q cells) (passes : Nat) : Q (fill cells passes).cells := by
  rw [fill_cells]
  exact run_induction hlook h passes 0

theorem fill_keeps (cells : CellMap) (passes : Nat) : cells.KeptBy (fill cells passes).cells := by
  rw [fill_cells]
  exact run_keeps passes 0 cells

theorem fill_short (h : Short cells) (k : Nat) : Short (fill cells k).cells := by
  rw [fill_cells]
  exact run_short h k 0

/-- Filling with `j + k` passes goes on with `k` passes where that with `j` has ended. -/
theorem fill_cells_add (h : Short cells) (j k : Nat) :
    (fill cells (j + k)).cells = (run k j (fill cells j).cells).cells := by
  rw [fill_cells, fill_cells, run_cells_add h, Nat.zero_add]

/-- **After `k + 1` passes the map is what the pass `k` makes of the map after `k` passes.** -/
theorem fill_cells_succ (h : Short cells) (k : Nat) :
    (fill cells (k + 1)).cells =
      ((sites (fill cells k).cells).foldl (look k) ⟨(fill cells k).cells, 0⟩).cells := by
  rw [fill_cells_add h, run_one, (fill_short h k).once_eq]

/-- More passes keep what fewer have filled. -/
theorem fill_keptBy (h : Short cells) {j k : Nat} (hjk : j ≤ k) :
    (fill cells j).cells.KeptBy (fill cells k).cells := by
  obtain ⟨n, rfl⟩ := Nat.exists_eq_add_of_le hjk
  rw [fill_cells_add h]
  exact run_keeps n _ _

end Barogrid.Filling
