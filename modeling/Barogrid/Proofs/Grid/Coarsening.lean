import Mathlib
import Barogrid.Proofs.Geohash.Nesting
import Barogrid.Proofs.Grid.Partition

/-!
# Coarser grids

Keys of a smaller length make a coarser grid.  Binning into it asks about every reading anew, but the
first answers are the ones that the finer grid was made from: what comes out is the finer grid with
those cells merged whose keys begin alike.

* `key?_shorter_iff` -- **the shorter key of a reading is what the longer one begins with**;
* `CellMap.Merges` -- what it means that the cells of a map are those of a finer one, merged;
* `coarser_bins_merge` -- this holds of binned readings.
-/

namespace Barogrid

open Geohash (Hash)

/-- **The cells of the coarse map are those of the fine one, merged** where the first `q` characters of
their keys agree. -/
structure CellMap.Merges (coarse fine : CellMap) (q : Nat) (readings : List Reading) : Prop where
  keys : ∀ key, key ∈ coarse.keys ↔
    ∃ longer ∈ fine.keys, key.text.toList = longer.text.toList.take q
  /-- In the order of arrival, -/
  readings : ∀ c ∈ coarse.cells, c.readings =
    readings.filter fun r => ∃ d ∈ fine.cells, d.key.Extends c.key ∧ r ∈ d.readings
  /-- and each as often as it is in the merged cells. -/
  multiplicity : ∀ c ∈ coarse.cells, c.readings.Perm
    ((fine.cells.filter fun d => d.key.Extends c.key).flatMap Cell.readings)
  home : ∀ d ∈ fine.cells, ∃! c, c ∈ coarse.cells ∧ d.key.Extends c.key
  within : ∀ d ∈ fine.cells, ∀ c ∈ coarse.cells, d.key.Extends c.key → d.bounds.Within c.bounds
  size : coarse.size ≤ fine.size

namespace Binning

variable {p q : Nat} {key longer : Hash} {r : Reading} {readings : List Reading}
  {coarse fine : CellMap} {c d : Cell}

/-! ## 1. The two keys of a reading -/

/-- **The shorter key of a reading is what the longer one begins with.** -/
theorem key?_shorter_iff (hlonger : key? p r = some longer) (hq : 1 ≤ q) (hqp : q ≤ p) :
    key? q r = some key ↔ key.digits = longer.digits.take q := by
  rw [key?_eq_some_iff]
  exact Geohash.encode_shorter_iff (key?_eq_some_iff.mp hlonger) hq hqp

/-- A reading has the key of a coarse cell exactly if its longer key begins with this. -/
theorem key?_iff_extends (hq : 1 ≤ q) (hqp : q ≤ p) (hcoarse : bin readings q = .ok coarse)
    (hc : c ∈ coarse.cells) (hlonger : key? p r = some longer) :
    key? q r = some c.key ↔ longer.Extends c.key := by
  have hlen := bin_uniform hcoarse c.key (CellMap.mem_keys.mp (key_mem_keys hcoarse hc))
  rw [key?_shorter_iff hlonger hq hqp, Hash.extends_iff_take q hlen]

/-! ## 2. The cells of two grids -/

section TwoGrids

variable (hq : 1 ≤ q) (hqp : q ≤ p) (hcoarse : bin readings q = .ok coarse)
  (hfine : bin readings p = .ok fine)
include hq hqp hcoarse hfine

theorem mem_coarse_keys : key ∈ coarse.keys ↔
    ∃ longer ∈ fine.keys, key.text.toList = longer.text.toList.take q := by
  simp only [Hash.toList_text_eq_take_iff]
  constructor
  · intro hkey
    obtain ⟨r, hr, hkey⟩ := (mem_keys_bin hcoarse).mp hkey
    obtain ⟨longer, hmem, hlonger⟩ := exists_key hfine hr
    exact ⟨longer, hmem, (key?_shorter_iff hlonger hq hqp).mp hkey⟩
  · intro ⟨longer, hmem, hdigits⟩
    obtain ⟨r, hr, hlonger⟩ := (mem_keys_bin hfine).mp hmem
    exact (mem_keys_bin hcoarse).mpr ⟨r, hr, (key?_shorter_iff hlonger hq hqp).mpr hdigits⟩

theorem coarse_readings (hc : c ∈ coarse.cells) : c.readings =
    readings.filter fun r => ∃ d ∈ fine.cells, d.key.Extends c.key ∧ r ∈ d.readings := by
  rw [readings_of_mem_cells hcoarse hc]
  refine List.filter_congr fun r hr => ?_
  obtain ⟨longer, -, hlonger⟩ := exists_key hfine hr
  rw [decide_eq_decide, key?_iff_extends hq hqp hcoarse hc hlonger]
  constructor
  · intro hext
    obtain ⟨d, hd, rfl, hmem⟩ := exists_cell hfine hr hlonger
    exact ⟨d, hd, hext, hmem⟩
  · intro ⟨d, hd, hext, hmem⟩
    have hkey := ((mem_readings_iff hfine hd).mp hmem).2
    rwa [Option.some.inj (hlonger.symm.trans hkey)]

theorem coarse_readings_perm (hc : c ∈ coarse.cells) : c.readings.Perm
    ((fine.cells.filter fun d => d.key.Extends c.key).flatMap Cell.readings) := by
  have hperm := perm_flatMap_under (n := p)
    (fine.nodup_keys.filter fun longer => longer.Extends c.key) readings
  have hfilter : (readings.filter fun r =>
      ∃ longer ∈ fine.keys.filter fun longer : Hash => longer.Extends c.key,
        key? p r = some longer) = c.readings := by
    rw [readings_of_mem_cells hcoarse hc]
    refine List.filter_congr fun r hr => ?_
    obtain ⟨longer, hmem, hlonger⟩ := exists_key hfine hr
    rw [decide_eq_decide, key?_iff_extends hq hqp hcoarse hc hlonger, hlonger]
    simp [hmem]
  rw [hfilter] at hperm
  rw [cells_bin hfine, List.filter_map, List.flatMap_map]
  exact hperm

theorem coarse_home (hd : d ∈ fine.cells) : ∃! c, c ∈ coarse.cells ∧ d.key.Extends c.key := by
  obtain ⟨r, hr, hlonger⟩ := (mem_keys_bin hfine).mp (key_mem_keys hfine hd)
  obtain ⟨key, -, hkey⟩ := exists_key hcoarse hr
  obtain ⟨c, hc, rfl, -⟩ := exists_cell hcoarse hr hkey
  refine ⟨c, ⟨hc, (key?_iff_extends hq hqp hcoarse hc hlonger).mp hkey⟩, ?_⟩
  rintro c' ⟨hc', hext⟩
  have hkey' := (key?_iff_extends hq hqp hcoarse hc' hlonger).mpr hext
  exact eq_of_key_eq hcoarse hc' hc (Option.some.inj (hkey'.symm.trans hkey))

theorem coarse_size_le : coarse.size ≤ fine.size := by
  have hnodup : (coarse.keys.map Hash.digits).Nodup :=
    coarse.nodup_keys.map fun _ _ => Hash.eq_of_digits
  have hsubset : coarse.keys.map Hash.digits ⊆ fine.keys.map fun longer => longer.digits.take q := by
    intro digits hdigits
    obtain ⟨key, hkey, rfl⟩ := List.mem_map.mp hdigits
    obtain ⟨longer, hlonger, htext⟩ := (mem_coarse_keys hq hqp hcoarse hfine).mp hkey
    exact List.mem_map.mpr ⟨longer, hlonger, ((Hash.toList_text_eq_take_iff q).mp htext).symm⟩
  have hle := (List.subperm_of_subset hnodup hsubset).length_le
  rwa [List.length_map, List.length_map, CellMap.length_keys, CellMap.length_keys] at hle

theorem bin_merges : coarse.Merges fine q readings where
  keys := fun _ => mem_coarse_keys hq hqp hcoarse hfine
  readings := fun _ hc => coarse_readings hq hqp hcoarse hfine hc
  multiplicity := fun _ hc => coarse_readings_perm hq hqp hcoarse hfine hc
  home := fun _ hd => coarse_home hq hqp hcoarse hfine hd
  within := fun d hd c hc hext => by
    rw [((mem_cells_bin hfine).mp hd).2, ((mem_cells_bin hcoarse).mp hc).2]
    exact hext.within
  size := coarse_size_le hq hqp hcoarse hfine

end TwoGrids

/-- **Coarser grids are finer grids with their cells merged.**  The shorter key of a place is what its
longer key begins with.  Where readings are binned into a coarse and into a fine grid, the cells of the
coarse one are those of the fine one, merged. -/
theorem coarser_bins_merge (hq : 1 ≤ q) (hqp : q ≤ p) (hp : p ≤ 12) :
    (∀ place : Place, place.InRange → ∃ short long, Geohash.encode place q = .ok short ∧
      Geohash.encode place p = .ok long ∧ short.text.toList = long.text.toList.take q) ∧
    ∀ readings : List Reading, (∀ r ∈ readings, r.place.InRange) →
      ∃ coarse fine, bin readings q = .ok coarse ∧ bin readings p = .ok fine ∧
        coarse.Merges fine q readings := by
  refine ⟨fun place hplace => ?_, fun readings hreadings => ?_⟩
  · have hon := Place.onGlobe_iff_inRange.mpr hplace
    obtain ⟨short, hshort, -⟩ := Geohash.encode_isOk hon hq (hqp.trans hp)
    obtain ⟨long, hlong, -⟩ := Geohash.encode_isOk hon (hq.trans hqp) hp
    exact ⟨short, long, hshort, hlong, (Hash.toList_text_eq_take_iff q).mpr
      ((Geohash.encode_shorter_iff hlong hq hqp).mp hshort)⟩
  · have hbins : ∀ n, 1 ≤ n → n ≤ 12 → ∃ m, bin readings n = .ok m := fun n hn hmax =>
      bin_isOk_iff.mpr fun r hr => exists_key?_iff.mpr ⟨⟨hn, hmax⟩, hreadings r hr⟩
    obtain ⟨coarse, hcoarse⟩ := hbins q hq (hqp.trans hp)
    obtain ⟨fine, hfine⟩ := hbins p (hq.trans hqp) hp
    exact ⟨coarse, fine, hcoarse, hfine, bin_merges hq hqp hcoarse hfine⟩

/-- The two cells of one city are merged. -/
theorem twoCities_merged : ∃ coarse fine, bin twoCities 3 = .ok coarse ∧ bin twoCities 5 = .ok fine ∧
    coarse.Merges fine 3 twoCities ∧ coarse.keys.map Hash.text = ["dr5", "gcp"] ∧
    fine.keys.map Hash.text = ["dr5re", "dr5rs", "gcpuv"] := by
  obtain ⟨-, hbins⟩ := coarser_bins_merge (q := 3) (p := 5) (by decide) (by decide) (by decide)
  obtain ⟨coarse, fine, hcoarse, hfine, hmerges⟩ := hbins twoCities (by decide +kernel)
  have hshort : (bin twoCities 3).toOption.map (fun m => m.keys.map Hash.text) =
      some ["dr5", "gcp"] := by decide +kernel
  have hlong : (bin twoCities 5).toOption.map (fun m => m.keys.map Hash.text) =
      some ["dr5re", "dr5rs", "gcpuv"] := by decide +kernel
  rw [hcoarse] at hshort
  rw [hfine] at hlong
  exact ⟨coarse, fine, hcoarse, hfine, hmerges, Option.some.inj hshort, Option.some.inj hlong⟩

end Binning

end Barogrid
