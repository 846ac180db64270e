import Mathlib
import Barogrid.Proofs.Grid.Groups
import Barogrid.Proofs.Grid.Run

/-!
# Maps with keys of one length

All cells of a map that comes from binning have keys of the length asked for, and filling gaps keeps
this, because a neighbour's key is as long as that of the cell.  As long as the length can be asked
for at all, nothing on the way fails, unless the passes are too many for a report.

* `Binning.bin_yields` -- **places on the globe are binned into a map of uniform keys**;
* `Filling.fill_uniform`, `Filling.fill_yields` -- filling keeps such a map uniform, and **succeeds in as
  many passes as a report can hold**.
-/

namespace Barogrid

/-- All keys have `n` digits. -/
def CellMap.Uniform (n : Nat) (m : CellMap) : Prop := ∀ key, m.contains key = true → key.length = n

namespace CellMap

variable {n : Nat} {m : CellMap}

theorem uniform_empty : empty.Uniform n := by
  intro key h
  rw [contains_eq, get?_empty] at h
  cases h

theorem uniform_ofList {cells : List Cell} (h : ∀ c ∈ cells, c.key.length = n) :
    (ofList cells).Uniform n := by
  suffices hfold : ∀ m : CellMap, m.Uniform n → (cells.foldl CellMap.insert m).Uniform n from
    hfold empty uniform_empty
  induction cells with
  | nil => exact fun m hm => hm
  | cons c cells ih =>
    intro m hm
    exact ih (fun c' hc' => h c' (List.mem_cons_of_mem _ hc')) _
      (Keys.insert hm (h c List.mem_cons_self))

end CellMap

variable {n : Nat}

namespace Binning

/-! ## 1. Binning -/

theorem bin_uniform {readings : List Reading} {m : CellMap} (h : bin readings n = .ok m) :
    m.Uniform n := by
  intro key hkey
  obtain ⟨c, hc⟩ := CellMap.contains_iff.mp hkey
  obtain ⟨hne, -⟩ := (get?_bin h).mp hc
  obtain ⟨r, hr⟩ := List.exists_mem_of_ne_nil _ hne
  exact (key?_owns (mem_under.mp hr).2).1

/-- **Places on the globe are binned into a map of uniform keys.** -/
theorem bin_yields {readings : List Reading} (h : ∀ r ∈ readings, r.place.onGlobe = true)
    (hn : 1 ≤ n) (hmax : n ≤ Geohash.maxLength) : Yields (bin readings n) (CellMap.Uniform n) := by
  obtain ⟨m, hm⟩ := bin_isOk_iff.mpr fun r hr => exists_key? (h r hr) hn hmax
  exact ⟨m, hm, bin_uniform hm⟩

end Binning

namespace Filling

/-! ## 2. Filling -/

theorem uniform_short {cells : CellMap} (h : cells.Uniform n) (hmax : n ≤ Geohash.maxLength) :
    Short cells :=
  fun key hkey => (h key hkey).le.trans hmax

theorem fill_uniform {cells : CellMap} (h : cells.Uniform n) (passes : Nat) :
    (fill cells passes).cells.Uniform n := by
  rw [fill_cells]
  exact run_keys (fun key d hlen hkey => (Geohash.Hash.length_next hlen d).trans hkey) h passes 0

/-- **Filling the gaps of a map of uniform keys succeeds in as many passes as a report can hold.** -/
theorem fill_yields (hmax : n ≤ Geohash.maxLength) {passes : Nat} (hfits : passes ≤ longestReport)
    {cells : CellMap} (h : cells.Uniform n) :
    Yields (fill cells passes).created fun created => created.length = passes :=
  fill_isOk (uniform_short h hmax) hfits

/-- Two cells at the south pole with a gap of one cell between them. -/
def southwest : CellMap :=
  .ofList ([("0", 1000), ("4", 1020)].filterMap fun (key, value) =>
    (Cell.readFilled key value 0).toOption)

theorem southwest_uniform : southwest.Uniform 1 := CellMap.uniform_ofList (by decide +kernel)

/-- Three cells on a diagonal, between which two passes find something to fill. -/
def diagonal : CellMap :=
  .ofList ([("0", 1000), ("3", 1010), ("d", 1020)].filterMap fun (key, value) =>
    (Cell.readFilled key value 0).toOption)

theorem diagonal_uniform : diagonal.Uniform 1 := CellMap.uniform_ofList (by decide +kernel)

end Filling

end Barogrid
