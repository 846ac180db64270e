import Mathlib
import Barogrid.Proofs.Grid.Groups
import Barogrid.Proofs.Grid.History

/-!
# Binning divides the readings

Every reading that is binned comes to lie in one cell, the one of its key, and nothing else lies there.
A reading without a key stops the binning.

* `mem_keys_bin`, `cells_bin` -- **the cells of binned readings**, by the keys of the readings;
* `perm_flatMap_under` -- to go through the readings key by key is to meet each of them once;
* `bin_eq_error` -- **the first reading without a key is what is reported**;
* `CellMap.Divides` -- what it means that a map divides readings among its cells;
* `bin_partitions` -- when binning succeeds, what it reports otherwise, and that its result divides the
  readings.
-/

namespace Barogrid

open Geohash (Hash)

/-- **The cells of the map divide the readings among them**: under each key of `n` digits that some
reading has there is one cell, with the readings that have this key. -/
structure CellMap.Divides (m : CellMap) (n : Nat) (readings : List Reading) : Prop where
  keys : ∀ key, key ∈ m.keys ↔ ∃ r ∈ readings, Geohash.encode r.place n = .ok key
  distinct : m.keys.Nodup
  cells : m.cells.map Cell.key = m.keys
  members : ∀ c ∈ m.cells,
    c.readings = readings.filter fun r => (Geohash.encode r.place n).toOption = some c.key
  nonempty : ∀ c ∈ m.cells, c.readings ≠ []
  observed : ∀ c ∈ m.cells, c.isFilled = false
  once : (m.cells.flatMap Cell.readings).Perm readings
  total : (m.cells.map fun c => c.readings.length).sum = readings.length
  bounds : ∀ c ∈ m.cells, ∀ r ∈ c.readings, c.bounds.contains r.place = true
  average : ∀ c ∈ m.cells, Statistics.median (c.readings.map Reading.value) = .ok c.average

namespace Binning

variable {n : Nat} {key : Hash} {r : Reading} {readings : List Reading} {m : CellMap} {c d : Cell}

/-! ## 1. The cells of a bin -/

theorem mem_keys_bin (h : bin readings n = .ok m) :
    key ∈ m.keys ↔ ∃ r ∈ readings, key? n r = some key := by
  rw [CellMap.mem_keys, CellMap.contains_iff]
  constructor
  · intro ⟨c, hc⟩
    obtain ⟨r, hr⟩ := List.exists_mem_of_ne_nil _ ((get?_bin h).mp hc).1
    exact ⟨r, mem_under.mp hr⟩
  · intro ⟨r, hr⟩
    exact ⟨_, (get?_bin h).mpr ⟨List.ne_nil_of_mem (mem_under.mpr hr), rfl⟩⟩

/-- Readings that are binned have keys. -/
theorem exists_key (h : bin readings n = .ok m) (hr : r ∈ readings) :
    ∃ key ∈ m.keys, key? n r = some key := by
  obtain ⟨key, hkey⟩ := bin_isOk_iff.mp ⟨m, h⟩ r hr
  exact ⟨key, (mem_keys_bin h).mpr ⟨r, hr, hkey⟩, hkey⟩

/-- **The cells of binned readings.** -/
theorem cells_bin (h : bin readings n = .ok m) :
    m.cells = m.keys.map fun key => observedCell key (under n readings key) := by
  rw [CellMap.cells_eq_filterMap, ← List.filterMap_eq_map]
  refine List.filterMap_congr fun key hkey => ?_
  obtain ⟨c, hc⟩ := CellMap.contains_iff.mp (CellMap.mem_keys.mp hkey)
  obtain ⟨-, rfl⟩ := (get?_bin h).mp hc
  exact hc

/-- A cell of a bin has all the readings with its key. -/
theorem mem_cells_bin (h : bin readings n = .ok m) :
    c ∈ m.cells ↔ c.key ∈ m.keys ∧ c = observedCell c.key (under n readings c.key) := by
  rw [cells_bin h, List.mem_map]
  constructor
  · intro ⟨key, hkey, hc⟩
    rw [← hc]
    exact ⟨hkey, rfl⟩
  · intro ⟨hkey, hc⟩
    exact ⟨c.key, hkey, hc.symm⟩

theorem readings_of_mem_cells (h : bin readings n = .ok m) (hc : c ∈ m.cells) :
    c.readings = under n readings c.key := by
  rw [((mem_cells_bin h).mp hc).2]
  rfl

theorem mem_readings_iff (h : bin readings n = .ok m) (hc : c ∈ m.cells) :
    r ∈ c.readings ↔ r ∈ readings ∧ key? n r = some c.key := by
  rw [readings_of_mem_cells h hc, mem_under]

theorem key_mem_keys (h : bin readings n = .ok m) (hc : c ∈ m.cells) : c.key ∈ m.keys :=
  ((mem_cells_bin h).mp hc).1

theorem exists_mem_cells (h : bin readings n = .ok m) (hkey : key ∈ m.keys) :
    ∃ c ∈ m.cells, c.key = key :=
  ⟨observedCell key (under n readings key), (mem_cells_bin h).mpr ⟨hkey, rfl⟩, rfl⟩

/-- The cells of a bin have different keys. -/
theorem eq_of_key_eq (h : bin readings n = .ok m) (hc : c ∈ m.cells) (hd : d ∈ m.cells)
    (heq : c.key = d.key) : c = d := by
  rw [((mem_cells_bin h).mp hc).2, ((mem_cells_bin h).mp hd).2, heq]

/-- Every reading lies in the cell of its key. -/
theorem exists_cell (h : bin readings n = .ok m) (hr : r ∈ readings) (hkey : key? n r = some key) :
    ∃ c ∈ m.cells, c.key = key ∧ r ∈ c.readings := by
  obtain ⟨c, hc, rfl⟩ := exists_mem_cells h ((mem_keys_bin h).mpr ⟨r, hr, hkey⟩)
  exact ⟨c, hc, rfl, (mem_readings_iff h hc).mpr ⟨hr, hkey⟩⟩

/-- To take the readings of different keys one key after the other is to take once each reading that
has one of these keys. -/
theorem perm_flatMap_under {keys : List Hash} (h : keys.Nodup) (readings : List Reading) :
    (readings.filter fun r => ∃ key ∈ keys, key? n r = some key).Perm
      (keys.flatMap (under n readings)) := by
  induction keys with
  | nil => simp
  | cons key keys ih =>
    obtain ⟨hnew, hrest⟩ := List.nodup_cons.mp h
    have hsplit := List.filter_append_perm (fun r => decide (key? n r = some key))
      (readings.filter fun r => ∃ key' ∈ key :: keys, key? n r = some key')
    rw [List.filter_filter, List.filter_filter] at hsplit
    -- those with the first key, and those with one of the others, which is not the first
    have hfirst : (readings.filter fun r => decide (key? n r = some key) &&
        decide (∃ key' ∈ key :: keys, key? n r = some key')) = under n readings key := by
      refine List.filter_congr fun r _ => ?_
      by_cases hr : key? n r = some key <;> simp [hr]
    have hothers : (readings.filter fun r => (!decide (key? n r = some key)) &&
        decide (∃ key' ∈ key :: keys, key? n r = some key')) =
          readings.filter fun r => ∃ key' ∈ keys, key? n r = some key' := by
      refine List.filter_congr fun r _ => ?_
      by_cases hr : key? n r = some key
      · simp [hr, hnew]
      · simp [hr]
    rw [hfirst, hothers] at hsplit
    rw [List.flatMap_cons]
    exact hsplit.symm.trans ((ih hrest).append_left _)

/-! ## 2. Failures -/

/-- Readings have keys of the lengths that can be asked for, if their places are in range. -/
theorem exists_key?_iff :
    (∃ key, key? n r = some key) ↔ (1 ≤ n ∧ n ≤ 12) ∧ r.place.InRange := by
  constructor
  · intro ⟨key, hkey⟩
    obtain ⟨hn, hmax, hr⟩ := Geohash.encode_valid (key?_eq_some_iff.mp hkey)
    exact ⟨⟨hn, hmax⟩, Place.onGlobe_iff_inRange.mp hr⟩
  · intro ⟨⟨hn, hmax⟩, hr⟩
    exact exists_key? (Place.onGlobe_iff_inRange.mpr hr) hn hmax

/-- **The first reading without a key is what is reported.** -/
theorem bin_eq_error {before after : List Reading} {fault : Geohash.Fault}
    (hbefore : ∀ r ∈ before, ∃ key, key? n r = some key)
    (hr : Geohash.encode r.place n = .error fault) :
    bin (before ++ r :: after) n = .error (Failure.ofHash fault) := by
  obtain ⟨groups, hgroups⟩ := group_isOk hbefore
  have hkey : keyOf n r = .error (Failure.ofHash fault) := by
    unfold keyOf Geohash.lift
    rw [hr]
    rfl
  have hgroup : group n (before ++ r :: after) = .error (Failure.ofHash fault) := by
    refine foldlM_eq_error hgroups ?_
    rw [hkey]
    rfl
  unfold bin
  rw [hgroup]
  rfl

/-- A length that cannot be asked for is reported whatever the places are. -/
theorem bin_eq_error_length (hne : readings ≠ []) (hn : ¬ (1 ≤ n ∧ n ≤ 12)) :
    bin readings n = .error (.keyLength n) := by
  obtain ⟨r, after, rfl⟩ := List.exists_cons_of_ne_nil hne
  show bin ([] ++ r :: after) n = _
  exact bin_eq_error (fun r hr => absurd hr List.not_mem_nil)
    (Geohash.encode_eq_error_length r.place hn)

/-- Otherwise the first place out of range is reported. -/
theorem bin_eq_error_place {before after : List Reading} (hn : 1 ≤ n ∧ n ≤ 12)
    (hbefore : ∀ r ∈ before, r.place.InRange) (hr : ¬ r.place.InRange) :
    bin (before ++ r :: after) n =
      .error (.place (Geohash.Fault.message (.place r.place))) := by
  have hoff : r.place.onGlobe = false := by
    rw [Bool.eq_false_iff]
    exact fun hon => hr (Place.onGlobe_iff_inRange.mp hon)
  exact bin_eq_error (fun r' hr' => exists_key?_iff.mpr ⟨hn, hbefore r' hr'⟩)
    (Geohash.encode_eq_error_place hoff hn.1 hn.2)

/-- Some reading is the first with a place out of range, if there is any. -/
theorem exists_first_out_of_range (h : ¬ ∀ r ∈ readings, r.place.InRange) :
    ∃ before r after, readings = before ++ r :: after ∧ (∀ r' ∈ before, r'.place.InRange) ∧
      ¬ r.place.InRange := by
  push Not at h
  obtain ⟨r, hr, hout⟩ := h
  rw [← Place.onGlobe_iff_inRange] at hout
  obtain ⟨first, hfirst⟩ : ∃ first, readings.find? (fun r => !r.place.onGlobe) = some first :=
    Option.isSome_iff_exists.mp (List.find?_isSome.mpr ⟨r, hr, by simpa using hout⟩)
  obtain ⟨hoff, before, after, hsplit, hbefore⟩ := List.find?_eq_some_iff_append.mp hfirst
  refine ⟨before, first, after, hsplit, fun r' hr' => ?_, ?_⟩
  · rw [← Place.onGlobe_iff_inRange]
    simpa using hbefore r' hr'
  · rw [← Place.onGlobe_iff_inRange]
    simpa using hoff

/-! ## 3. The division of the readings -/

theorem bin_divides (h : bin readings n = .ok m) : m.Divides n readings := by
  have hnonempty : ∀ c ∈ m.cells, c.readings ≠ [] := by
    intro c hc
    obtain ⟨r, hr⟩ := (mem_keys_bin h).mp (key_mem_keys h hc)
    exact List.ne_nil_of_mem ((mem_readings_iff h hc).mpr hr)
  have honce : (m.cells.flatMap Cell.readings).Perm readings := by
    have hperm := perm_flatMap_under (n := n) m.nodup_keys readings
    rw [List.filter_eq_self.mpr fun r hr => by simpa using exists_key h hr] at hperm
    rw [cells_bin h, List.flatMap_map]
    exact hperm.symm
  exact
    { keys := fun key => by
        rw [mem_keys_bin h]
        simp only [key?_eq_some_iff]
      distinct := m.nodup_keys
      cells := by
        rw [cells_bin h, List.map_map]
        exact List.map_id _
      members := fun c hc => readings_of_mem_cells h hc
      nonempty := hnonempty
      observed := fun c hc => by
        rw [((mem_cells_bin h).mp hc).2]
        rfl
      once := honce
      total := by rw [← List.length_flatMap, honce.length_eq]
      bounds := fun c hc r hr => by
        obtain ⟨-, hkey⟩ := (mem_readings_iff h hc).mp hr
        obtain ⟨hlen, howns, hmax⟩ := key?_owns hkey
        rw [((mem_cells_bin h).mp hc).2]
        exact c.key.contains_of_owns (hlen.le.trans hmax) howns
      average := fun c hc => by
        have hne : under n readings c.key ≠ [] := readings_of_mem_cells h hc ▸ hnonempty c hc
        rw [((mem_cells_bin h).mp hc).2]
        exact median_observedCell c.key hne }

/-- **Binning partitions the readings.**  It succeeds exactly when there are none, or the length can be
asked for and all places are in range; what it reports otherwise is the length, or else the first
place out of range; and the cells of its result divide the readings among them. -/
theorem bin_partitions (readings : List Reading) (n : Nat) :
    ((∃ m, bin readings n = .ok m) ↔
      readings = [] ∨ ((1 ≤ n ∧ n ≤ 12) ∧ ∀ r ∈ readings, r.place.InRange)) ∧
    (∀ f, bin readings n = .error f →
      (¬ (1 ≤ n ∧ n ≤ 12) ∧ f = .keyLength n) ∨
      ((1 ≤ n ∧ n ≤ 12) ∧ ∃ before r after, readings = before ++ r :: after ∧
        (∀ r' ∈ before, r'.place.InRange) ∧ ¬ r.place.InRange ∧
        f = .place (Geohash.Fault.message (.place r.place)))) ∧
    ∀ m, bin readings n = .ok m → m.Divides n readings := by
  have hok : (∃ m, bin readings n = .ok m) ↔
      readings = [] ∨ ((1 ≤ n ∧ n ≤ 12) ∧ ∀ r ∈ readings, r.place.InRange) := by
    rw [bin_isOk_iff]
    simp only [exists_key?_iff]
    by_cases hne : readings = []
    · simp [hne]
    · obtain ⟨r, hr⟩ := List.exists_mem_of_ne_nil _ hne
      simp only [hne, false_or]
      exact ⟨fun h => ⟨(h r hr).1, fun r' hr' => (h r' hr').2⟩, fun h r' hr' => ⟨h.1, h.2 r' hr'⟩⟩
  refine ⟨hok, fun f hf => ?_, fun m hm => bin_divides hm⟩
  have hfails : ¬ (readings = [] ∨ ((1 ≤ n ∧ n ≤ 12) ∧ ∀ r ∈ readings, r.place.InRange)) := by
    intro h
    obtain ⟨m, hm⟩ := hok.mpr h
    rw [hm] at hf
    cases hf
  rw [not_or] at hfails
  by_cases hn : 1 ≤ n ∧ n ≤ 12
  · obtain ⟨before, r, after, rfl, hbefore, hr⟩ :=
      exists_first_out_of_range fun h => hfails.2 ⟨hn, h⟩
    rw [bin_eq_error_place hn hbefore hr] at hf
    exact Or.inr ⟨hn, before, r, after, rfl, hbefore, hr, (Except.error.inj hf).symm⟩
  · rw [bin_eq_error_length hfails.1 hn] at hf
    exact Or.inl ⟨hn, (Except.error.inj hf).symm⟩

/-- Two readings in one city with one in another between them. -/
def twoCities : List Reading :=
  [⟨⟨40.7, -74⟩, 1015, 2⟩, ⟨⟨51.5, -0.1⟩, 1020, 0⟩, ⟨⟨40.71, -74.01⟩, 1009, 1⟩]

theorem twoCities_partitioned : ∃ m, bin twoCities 3 = .ok m ∧ m.Divides 3 twoCities ∧
    m.cells.map (fun c => (c.key.text, c.readings.map Reading.time)) =
      [("dr5", [2, 1]), ("gcp", [0])] := by
  obtain ⟨hok, -, hdivides⟩ := bin_partitions twoCities 3
  obtain ⟨m, hm⟩ := hok.mpr (Or.inr (by decide +kernel))
  have hcells : (bin twoCities 3).toOption.map (fun m =>
      m.cells.map fun c => (c.key.text, c.readings.map Reading.time)) =
        some [("dr5", [2, 1]), ("gcp", [0])] := by decide +kernel
  rw [hm] at hcells
  exact ⟨m, hm, hdivides m hm, Option.some.inj hcells⟩

end Binning

end Barogrid
