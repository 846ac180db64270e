import Mathlib
import Barogrid.Proofs.Grid.Uniform

/-!
# Where filled cells come from

A filled cell is put into the map by one look of one pass, and stays as it is.

* `Moment` -- this look, and what the map was then;
* `exists_moment` -- each key that comes into the map in a pass comes by such a look;
* `fill_get?_cases` -- each cell there is after some passes was there before, or came in one of them;
* `exists_walk` -- after `k` passes no cell is further than `k` steps from one of the beginning;
* `filled_corroborated` -- what this says of every filled cell.
-/

namespace Barogrid

open Geohash (Hash Direction maxLength)

namespace Filling

variable {cells start : CellMap} {key : Hash} {c : Cell} {k passes pass : Nat} {seen : Progress}

/-! ## 1. The moment -/

/-- **The look by which a pass over `start` fills the cell `c`.**  The pass has come to `seen`, the
cell is still vacant, and it gets the mean of its neighbours that have a value. -/
structure Moment (start : CellMap) (pass : Nat) (seen : Progress) (c : Cell) : Prop where
  reached : ∃ earlier site later, sites start = earlier ++ site :: later ∧
    sweep pass earlier ⟨start, 0⟩ = (seen, none) ∧
    site.key.adjacent site.direction = .ok c.key ∧
    visit pass seen site = .ok ⟨seen.cells.insert c, seen.created + 1⟩
  vacant : seen.cells.contains c.key = false
  average : ∃ near, Direction.all.mapM c.key.adjacent = .ok near ∧
    2 ≤ (near.filterMap seen.cells.average?).length ∧
    Statistics.mean (near.filterMap seen.cells.average?) = .ok c.average
  others : ∀ n, c.key.HasNeighbor n → seen.cells.contains n = true → n ≠ c.key

theorem moment_of_ready (h : Short start) {earlier later : List Site} {site : Site}
    (hsites : sites start = earlier ++ site :: later)
    (hsweep : sweep pass earlier ⟨start, 0⟩ = (seen, none))
    (hready : Ready seen.cells site.target) :
    Moment start pass seen (filling pass seen.cells site.target) where
  reached := by
    have hshort : site.Short := h.sites site (by simp [hsites])
    refine ⟨earlier, site, later, hsites, hsweep, Hash.adjacent_eq_next hshort _, ?_⟩
    rw [visit_eq hshort, look, if_pos hready]
  vacant := hready.1
  average := by
    have hshort : site.Short := h.sites site (by simp [hsites])
    have hlen : site.target.length ≤ maxLength := (Hash.length_next hshort _).le.trans hshort
    exact ⟨_, mapM_adjacent hlen, hready.2, mean_eq hready.2⟩
  others := by
    rintro n - hn rfl
    exact Bool.false_ne_true (hready.1.symm.trans hn)

/-- **A key that comes into the map in a pass comes by a moment of it**, and its cell stays. -/
theorem exists_moment (h : Short start) (hnew : start.contains key = false)
    (hkey : ((sites start).foldl (look pass) ⟨start, 0⟩).cells.contains key = true) :
    ∃ seen c, Moment start pass seen c ∧ c.key = key ∧ c.pass? = some pass ∧
      seen.cells.KeptBy ((sites start).foldl (look pass) ⟨start, 0⟩).cells ∧
      ((sites start).foldl (look pass) ⟨start, 0⟩).cells.get? key = some c := by
  obtain ⟨earlier, site, later, hsites, rfl, hready⟩ :=
    exists_look_of_contains (p := ⟨start, 0⟩) hnew hkey
  have hsweep : sweep pass earlier ⟨start, 0⟩ = (earlier.foldl (look pass) ⟨start, 0⟩, none) :=
    sweep_eq_foldl (fun site hsite => h.sites site (by simp [hsites, hsite])) pass ⟨start, 0⟩
  have hpass : (sites start).foldl (look pass) ⟨start, 0⟩ =
      later.foldl (look pass) (look pass (earlier.foldl (look pass) ⟨start, 0⟩) site) := by
    rw [hsites, List.foldl_append, List.foldl_cons]
  rw [hpass]
  generalize earlier.foldl (look pass) ⟨start, 0⟩ = seen at hready hsweep ⊢
  have hafter := foldl_look_keeps pass later (look pass seen site)
  have hinserted : (look pass seen site).cells.get? site.target =
      some (filling pass seen.cells site.target) := by
    rw [look, if_pos hready]
    exact CellMap.get?_insert_self seen.cells (filling pass seen.cells site.target)
  exact ⟨seen, filling pass seen.cells site.target, moment_of_ready h hsites hsweep hready, rfl, rfl,
    (look_keeps pass seen site).trans hafter, hafter _ _ hinserted⟩

namespace Moment

variable (hmoment : Moment start pass seen c)

include hmoment

/-- It looks from a cell that was there when the pass began. -/
theorem exists_site : ∃ site : Site, start.contains site.key = true ∧
    site.key.adjacent site.direction = .ok c.key := by
  obtain ⟨earlier, site, later, hsites, -, hadj, -⟩ := hmoment.reached
  exact ⟨site, mem_sites.mp (by simp [hsites]), hadj⟩

theorem new : start.contains c.key = false := by
  obtain ⟨earlier, -, -, -, hsweep, -⟩ := hmoment.reached
  have hseen : seen = (earlier.takeWhile Site.Short).foldl (look pass) ⟨start, 0⟩ := by
    rw [← sweep_fst, hsweep]
  by_contra hkey
  have hkept := (foldl_look_keeps pass (earlier.takeWhile Site.Short) ⟨start, 0⟩).contains
    (by simpa using hkey)
  rw [← hseen, hmoment.vacant] at hkept
  cases hkept

theorem ready (hlen : c.key.length ≤ maxLength) : Ready seen.cells c.key := by
  obtain ⟨near, hnear, htwo, -⟩ := hmoment.average
  have hnext := Except.ok.inj (hnear.symm.trans (mapM_adjacent hlen))
  rw [hnext] at htwo
  exact ⟨hmoment.vacant, htwo⟩

/-- A neighbour of the cell was there when the pass began. -/
theorem exists_neighbor (h : Short start) :
    ∃ n, c.key.HasNeighbor n ∧ start.contains n = true := by
  obtain ⟨site, hsite, hadj⟩ := hmoment.exists_site
  have hne : c.key ≠ site.key := by
    intro heq
    rw [← heq, hmoment.new] at hsite
    cases hsite
  exact ⟨site.key, ⟨site.direction.opposite, Hash.adjacent_opposite (h _ hsite) hadj hne⟩, hsite⟩

end Moment

/-! ## 2. All passes -/

/-- **Each cell was there before, or came in one of the passes.** -/
theorem fill_get?_cases (h : Short cells) (hc : (fill cells passes).cells.get? key = some c) :
    cells.get? key = some c ∨
      ∃ k < passes, c.pass? = some k ∧ c.key = key ∧
        (fill cells (k + 1)).cells.get? key = some c ∧ ∃ seen,
          Moment (fill cells k).cells k seen c ∧ seen.cells.KeptBy (fill cells (k + 1)).cells := by
  induction passes with
  | zero => exact Or.inl hc
  | succ n ih =>
    by_cases hkey : (fill cells n).cells.contains key = true
    · obtain ⟨c', hc'⟩ := CellMap.contains_iff.mp hkey
      have hkept := fill_keptBy h n.le_succ key c' hc'
      obtain rfl := Option.some.inj (hkept.symm.trans hc)
      refine (ih hc').imp_right ?_
      rintro ⟨k, hk, hmoment⟩
      exact ⟨k, hk.trans n.lt_succ_self, hmoment⟩
    · have hshort := fill_short h n
      have hsucc := fill_cells_succ h n
      have hlater : (fill cells (n + 1)).cells.contains key = true :=
        CellMap.contains_iff.mpr ⟨c, hc⟩
      rw [hsucc] at hlater
      obtain ⟨seen, c', hmoment, hkey', htag, hkept, hget⟩ :=
        exists_moment hshort (by simpa using hkey) hlater
      rw [← hsucc] at hkept hget
      obtain rfl := Option.some.inj (hget.symm.trans hc)
      exact Or.inr ⟨n, n.lt_succ_self, htag, hkey', hget, seen, hmoment, hkept⟩

/-- **After `k` passes no cell is further than `k` steps from one of the beginning.** -/
theorem exists_walk (h : Short cells) (hkey : (fill cells k).cells.contains key = true) :
    ∃ (origin : Hash) (ds : List Direction), cells.contains origin = true ∧ ds.length ≤ k ∧
      ds.foldlM Hash.adjacent origin = .ok key := by
  induction k generalizing key with
  | zero => exact ⟨key, [], hkey, le_rfl, rfl⟩
  | succ n ih =>
    by_cases hbefore : (fill cells n).cells.contains key = true
    · obtain ⟨origin, ds, horigin, hlength, hwalk⟩ := ih hbefore
      exact ⟨origin, ds, horigin, hlength.trans n.le_succ, hwalk⟩
    · rw [fill_cells_succ h] at hkey
      obtain ⟨seen, c, hmoment, rfl, -⟩ := exists_moment (fill_short h n) (by simpa using hbefore) hkey
      obtain ⟨site, hsite, hadj⟩ := hmoment.exists_site
      obtain ⟨origin, ds, horigin, hlength, hwalk⟩ := ih hsite
      refine ⟨origin, ds ++ [site.direction], horigin, by simpa using hlength, ?_⟩
      rw [List.foldlM_append, hwalk]
      show [site.direction].foldlM Hash.adjacent site.key = .ok c.key
      rw [List.foldlM_cons, hadj]
      rfl

/-- A neighbour of the cell that has a value after the passes, and had one in the beginning or got it
in a pass up to `k`. -/
def Supports (cells : CellMap) (passes k : Nat) (key n : Hash) : Prop :=
  n ≠ key ∧ key.HasNeighbor n ∧ ∃ c, (fill cells passes).cells.get? n = some c ∧
    (cells.get? n = some c ∨ ∃ j ≤ k, c.pass? = some j)

theorem Moment.exists_supports (hmoment : Moment (fill cells k).cells k seen c) (h : Short cells)
    (hlen : c.key.length ≤ maxLength) (hk : k < passes)
    (hkept : seen.cells.KeptBy (fill cells (k + 1)).cells) :
    ∃ a b, a ≠ b ∧ Supports cells passes k c.key a ∧ Supports cells passes k c.key b := by
  obtain ⟨d₁, d₂, hne, hself₁, hself₂, h₁, h₂⟩ := (hmoment.ready hlen).exists_neighbors hlen
  have hearly : ∀ n, seen.cells.contains n = true → ∃ c', (fill cells passes).cells.get? n = some c' ∧
      (cells.get? n = some c' ∨ ∃ j ≤ k, c'.pass? = some j) := by
    intro n hn
    obtain ⟨c', hc'⟩ := CellMap.contains_iff.mp (hkept.contains hn)
    refine ⟨c', fill_keptBy h (Nat.succ_le_of_lt hk) n c' hc', ?_⟩
    refine (fill_get?_cases h hc').imp_right ?_
    rintro ⟨j, hj, htag, -⟩
    exact ⟨j, Nat.le_of_lt_succ hj, htag⟩
  exact ⟨_, _, hne, ⟨hself₁, Hash.hasNeighbor_next hlen d₁, hearly _ h₁⟩,
    ⟨hself₂, Hash.hasNeighbor_next hlen d₂, hearly _ h₂⟩⟩

/-- **Every filled cell is corroborated and can be traced.**  It bears the number `k` of the pass
that filled it; this pass began with the map `(fill cells k).cells`, in which the cell had a
neighbour, so that it is at most `k + 1` steps away from a cell of the beginning.  Two other cells
next to it support it, and its value is the mean of what was around it at the moment it was filled. -/
theorem filled_corroborated (h : Short cells) (hnew : cells.contains key = false)
    (hc : (fill cells passes).cells.get? key = some c) :
    ∃ k < passes, c.key = key ∧ c.pass? = some k ∧
      (fill cells passes).cells = (run (passes - k) k (fill cells k).cells).cells ∧
      (∃ n, key.HasNeighbor n ∧ (fill cells k).cells.contains n = true) ∧
      (∃ (origin : Hash) (ds : List Direction), cells.contains origin = true ∧
        ds.length ≤ k + 1 ∧ ds.foldlM Hash.adjacent origin = .ok key) ∧
      (∃ a b, a ≠ b ∧ Supports cells passes k key a ∧ Supports cells passes k key b) ∧
      ∃ seen, Moment (fill cells k).cells k seen c := by
  obtain hold | ⟨k, hk, htag, rfl, hget, seen, hmoment, hkept⟩ := fill_get?_cases h hc
  · have hkey := CellMap.contains_iff.mpr ⟨c, hold⟩
    rw [hnew] at hkey
    cases hkey
  have hlen : c.key.length ≤ maxLength := fill_short h passes c.key (CellMap.contains_iff.mpr ⟨c, hc⟩)
  have hbegun : (fill cells passes).cells = (run (passes - k) k (fill cells k).cells).cells := by
    have hadd := fill_cells_add h k (passes - k)
    rw [Nat.add_sub_cancel' hk.le] at hadd
    exact hadd
  have hnext := CellMap.contains_iff.mpr ⟨c, hget⟩
  exact ⟨k, hk, rfl, htag, hbegun, hmoment.exists_neighbor (fill_short h k), exists_walk h hnext,
    hmoment.exists_supports h hlen hk hkept, seen, hmoment⟩

/-- The gap between two cells at the south pole is its own neighbour there, and is filled from the
west and the east. -/
theorem southwest_corroborated :
    southwest.contains ⟨[1], by decide⟩ = false ∧
    (fill southwest 1).cells.get? ⟨[1], by decide⟩ =
      some (Cell.filled ⟨[1], by decide⟩ 1010 0) ∧
    Hash.adjacent ⟨[1], by decide⟩ .bottom = .ok ⟨[1], by decide⟩ ∧
    ∃ seen, Moment southwest 0 seen (Cell.filled ⟨[1], by decide⟩ 1010 0) := by
  have hnew : southwest.contains ⟨[1], by decide⟩ = false := by decide +kernel
  have hc : (fill southwest 1).cells.get? ⟨[1], by decide⟩ =
      some (Cell.filled ⟨[1], by decide⟩ 1010 0) := by decide +kernel
  have hedge : (Hash.adjacent ⟨[1], by decide⟩ .bottom).toOption = some ⟨[1], by decide⟩ := by
    decide +kernel
  obtain ⟨k, hk, -, -, -, -, -, -, hmoment⟩ := 
    filled_corroborated (uniform_short southwest_uniform (by decide)) hnew hc
  obtain rfl := Nat.lt_one_iff.mp hk
  refine ⟨hnew, hc, ?_, hmoment⟩
  cases hadj : Hash.adjacent ⟨[1], by decide⟩ .bottom with
  | error f => rw [hadj] at hedge; cases hedge
  | ok key => rw [hadj] at hedge; rw [Option.some.inj hedge]

end Filling

end Barogrid
