import Mathlib
import Barogrid.Proofs.Grid.Uniform

/-!
# Histories of maps

A map begins empty; cells are put into it and its gaps are filled, in any order.  Cells that cannot be
built are not put in, and filling may fail on the way, or at its end for want of a report that is long
enough.

* `CellMap.cells_insert_perm` -- a cell with a new key adds one cell to the list of cells;
* `Cell.Sound`, `Operation.apply_sound` -- **cells are as they were built**, whatever is done to the
  map;
* `CellMap.GrownBy`, `Filling.run_grownBy` -- **the report counts the cells that passes add**, one by
  one;
* `history_consistent` -- both together, for every history.
-/

namespace Barogrid

open Geohash (Hash Direction maxLength)

/-! ## 1. The cells of a map -/

namespace CellMap

variable {m : CellMap} {c : Cell} {key : Hash}

theorem cells_eq (m : CellMap) : m.cells = m.byKey.toList.map Prod.snd := by
  have hvalues : m.cells = m.byKey.foldr (fun _ c cs => c :: cs) [] := rfl
  rw [hvalues, Std.ExtTreeMap.foldr_eq_foldr_toList]
  induction m.byKey.toList with
  | nil => rfl
  | cons p ps ih => rw [List.foldr_cons, ih, List.map_cons]

theorem length_cells (m : CellMap) : m.cells.length = m.size := by
  rw [cells_eq, List.length_map, Std.ExtTreeMap.length_toList]
  rfl

theorem mem_toList : (key, c) ∈ m.byKey.toList ↔ m.get? key = some c :=
  Std.ExtTreeMap.mem_toList_iff_getElem?_eq_some

theorem nodup_toList (m : CellMap) : m.byKey.toList.Nodup := by
  refine Std.ExtTreeMap.distinct_keys_toList.imp fun hne heq => hne ?_
  rw [heq]
  exact Std.ReflOrd.compare_self

theorem mem_cells : c ∈ m.cells ↔ ∃ key, m.get? key = some c := by
  rw [cells_eq, List.mem_map]
  constructor
  · rintro ⟨⟨key, c'⟩, hmem, rfl⟩
    exact ⟨key, mem_toList.mp hmem⟩
  · rintro ⟨key, hget⟩
    exact ⟨(key, c), mem_toList.mpr hget, rfl⟩

/-- The cells are found under the keys, one after the other. -/
theorem cells_eq_filterMap (m : CellMap) : m.cells = m.keys.filterMap m.get? := by
  have hkeys : m.keys = m.byKey.toList.map Prod.fst := Std.ExtTreeMap.map_fst_toList_eq_keys.symm
  rw [cells_eq, hkeys, List.filterMap_map, ← List.filterMap_eq_map]
  refine List.filterMap_congr fun ⟨key, c⟩ hmem => ?_
  exact (mem_toList.mp hmem).symm

/-- **A cell with a new key is added to the cells.** -/
theorem cells_insert_perm (h : m.contains c.key = false) :
    (m.insert c).cells.Perm (c :: m.cells) := by
  rw [contains_eq_false_iff] at h
  have hnew : (c.key, c) ∉ m.byKey.toList := by
    intro hmem
    rw [mem_toList.mp hmem] at h
    cases h
  have hperm : (m.insert c).byKey.toList.Perm ((c.key, c) :: m.byKey.toList) := by
    rw [List.perm_ext_iff_of_nodup (nodup_toList _) (List.nodup_cons.mpr ⟨hnew, nodup_toList m⟩)]
    rintro ⟨key, c'⟩
    rw [List.mem_cons, mem_toList, mem_toList, get?_insert]
    by_cases hkey : c.key = key
    · subst hkey
      simp [h, eq_comm]
    · simp [hkey, Ne.symm hkey]
  rw [cells_eq, cells_eq]
  exact hperm.map Prod.snd

/-- The keys are listed in ascending order, as texts. -/
theorem keys_ascending (m : CellMap) : (m.keys.map Hash.text).Pairwise (· < ·) := by
  rw [List.pairwise_map]
  exact Std.ExtTreeMap.ordered_keys.imp Hash.text_lt_of_compare

theorem nodup_keys (m : CellMap) : m.keys.Nodup := Std.ExtTreeMap.nodup_keys

theorem length_keys (m : CellMap) : m.keys.length = m.size := Std.ExtTreeMap.length_keys

theorem observedCount_add_filledCount (m : CellMap) : m.observedCount + m.filledCount = m.size := by
  have hle : m.filledCount ≤ m.cells.length := List.countP_le_length
  rw [length_cells] at hle
  exact Nat.sub_add_cancel hle

end CellMap

/-! ## 2. Sound cells -/

/-- A cell is consistent in itself: its bounds are those of its key, and it is either filled, with a
pass and without readings, or has the median of its readings. -/
structure Cell.Sound (c : Cell) : Prop where
  bounds : Geohash.decode c.key.text = .ok c.bounds
  pass : c.isFilled = true ↔ c.pass?.isSome = true
  readings : c.isFilled = true ↔ c.readings = []
  average : c.isFilled = false → Statistics.median (c.readings.map Reading.value) = .ok c.average

/-- Every cell sits under its own key and is sound. -/
def CellMap.Sound (m : CellMap) : Prop := ∀ key c, m.get? key = some c → c.key = key ∧ c.Sound

namespace Cell

variable {c : Cell} {text : String} {readings : List Reading}

theorem filled_sound (key : Hash) (average : Binary64) (pass : Nat) :
    (filled key average pass).Sound where
  bounds := Geohash.decode_text key
  pass := ⟨fun _ => rfl, fun _ => rfl⟩
  readings := ⟨fun _ => rfl, fun _ => rfl⟩
  average := fun h => by cases h

theorem observed_sound {key : Hash} (h : observed key readings = .ok c) : c.Sound := by
  obtain ⟨average, hmedian, hcell⟩ := exists_of_bind_eq_ok h
  obtain rfl : _ = c := Except.ok.inj hcell
  have hsome : readings ≠ [] := by
    intro hnone
    rw [hnone] at hmedian
    cases hmedian
  exact
    { bounds := Geohash.decode_text key
      pass := ⟨(nomatch ·), (nomatch ·)⟩
      readings := ⟨(nomatch ·), fun hnone => absurd hnone hsome⟩
      average := fun _ => hmedian }

theorem readObserved_sound (h : readObserved text readings = .ok c) : c.Sound := by
  obtain ⟨-, -, h⟩ := exists_of_bind_eq_ok h
  obtain ⟨key, -, h⟩ := exists_of_bind_eq_ok h
  exact observed_sound h

theorem readFilled_sound {average : Binary64} {pass : Nat}
    (h : readFilled text average pass = .ok c) : c.Sound := by
  obtain ⟨key, -, h⟩ := exists_of_bind_eq_ok h
  obtain rfl : _ = c := Except.ok.inj h
  exact filled_sound key average pass

end Cell

theorem CellMap.Sound.insert {m : CellMap} {c : Cell} (h : m.Sound) (hc : c.Sound) :
    (m.insert c).Sound := by
  intro key c' hget
  rw [get?_insert] at hget
  by_cases hkey : c.key = key
  · rw [if_pos hkey] at hget
    obtain rfl := Option.some.inj hget
    exact ⟨hkey, hc⟩
  · rw [if_neg hkey] at hget
    exact h key c' hget

namespace Filling

variable {cells : CellMap}

theorem fill_sound (h : cells.Sound) (passes : Nat) : (fill cells passes).cells.Sound := by
  refine fill_induction (fun pass p site _ _ hp => ?_) h passes
  unfold look
  split
  · exact hp.insert (Cell.filled_sound _ _ _)
  · exact hp

end Filling

/-! ## 3. What filling adds -/

/-- The cells of `m'` are those of `m` and, under new keys, those of `added`. -/
structure CellMap.GrownBy (m m' : CellMap) (added : List Cell) : Prop where
  kept : m.KeptBy m'
  cells : m'.cells.Perm (added ++ m.cells)
  fresh : ∀ c ∈ added, m.contains c.key = false

namespace CellMap

variable {m m' m'' : CellMap} {c : Cell} {added added' : List Cell}

theorem GrownBy.refl (m : CellMap) : m.GrownBy m [] :=
  ⟨KeptBy.refl m, List.Perm.refl _, fun _ hc => absurd hc List.not_mem_nil⟩

theorem GrownBy.trans (h : m.GrownBy m' added) (h' : m'.GrownBy m'' added') :
    m.GrownBy m'' (added' ++ added) := by
  refine ⟨h.kept.trans h'.kept, ?_, fun c hc => ?_⟩
  · rw [List.append_assoc]
    exact h'.cells.trans (h.cells.append_left added')
  · rcases List.mem_append.mp hc with hc | hc
    · by_contra hold
      have hkept := h.kept.contains (by simpa using hold)
      rw [h'.fresh c hc] at hkept
      cases hkept
    · exact h.fresh c hc

theorem grownBy_insert (h : m.contains c.key = false) : m.GrownBy (m.insert c) [c] :=
  ⟨keptBy_insert h, cells_insert_perm h, by simpa using h⟩

theorem GrownBy.size (h : m.GrownBy m' added) : m'.size = m.size + added.length := by
  rw [← length_cells, ← length_cells, h.cells.length_eq, List.length_append, Nat.add_comm]

/-- What was not there before and has a property is counted among the cells added. -/
theorem GrownBy.countP_new (h : m.GrownBy m' added) (hm : m.Sound) (q : Cell → Prop)
    [DecidablePred q] :
    m'.cells.countP (fun c => m.contains c.key = false ∧ q c) = added.countP (fun c => q c) := by
  have hold : m.cells.countP (fun c => m.contains c.key = false ∧ q c) = 0 := by
    rw [List.countP_eq_zero]
    intro c hc
    obtain ⟨key, hget⟩ := mem_cells.mp hc
    have hkey := contains_iff.mpr ⟨c, (hm key c hget).1 ▸ hget⟩
    simp [hkey]
  rw [h.cells.countP_eq, List.countP_append, hold, Nat.add_zero]
  exact List.countP_congr fun c hc => by simp [h.fresh c hc]

end CellMap

namespace Filling

variable {cells : CellMap} {pass : Nat}

/-- Looks count the cells that they add, all of which bear the number of the pass. -/
theorem foldl_look_grownBy (pass : Nat) (sites : List Site) (p : Progress) :
    ∃ added, p.cells.GrownBy (sites.foldl (look pass) p).cells added ∧
      (∀ c ∈ added, c.pass? = some pass) ∧
      (sites.foldl (look pass) p).created = p.created + added.length := by
  induction sites generalizing p with
  | nil => exact ⟨[], CellMap.GrownBy.refl p.cells, by simp, rfl⟩
  | cons site sites ih =>
    obtain ⟨added, hgrown, htags, hcount⟩ := ih (look pass p site)
    rw [List.foldl_cons]
    by_cases hready : Ready p.cells site.target
    · have hlook : look pass p site =
          ⟨p.cells.insert (filling pass p.cells site.target), p.created + 1⟩ := if_pos hready
      rw [hlook] at hgrown hcount ⊢
      have hinsert : p.cells.GrownBy (p.cells.insert (filling pass p.cells site.target)) _ :=
        CellMap.grownBy_insert hready.1
      refine ⟨_, hinsert.trans hgrown, fun c hc => ?_, ?_⟩
      · rcases List.mem_append.mp hc with hc | hc
        · exact htags c hc
        · rw [List.mem_singleton.mp hc]
          rfl
      · rw [hcount, List.length_append, List.length_singleton]
        exact Nat.add_right_comm p.created 1 added.length
    · have hlook : look pass p site = p := if_neg hready
      rw [hlook] at hgrown hcount ⊢
      exact ⟨added, hgrown, htags, hcount⟩

/-- The cells added by passes from `pass` on, and the report on them. -/
structure Report (pass left : Nat) (added : List Cell) (created : List Nat) : Prop where
  tags : ∀ c ∈ added, ∃ k, pass ≤ k ∧ c.pass? = some k
  counts : created = (List.range' pass left).map fun k => added.countP fun c => c.pass? = some k
  total : added.length = created.sum
  idle : ∀ n ∈ created.dropWhile (· ≠ 0), n = 0

theorem Report.nothing (pass left : Nat) : Report pass left [] (List.replicate left 0) where
  tags := fun _ hc => absurd hc List.not_mem_nil
  counts := by simp
  total := by simp
  idle := fun n hn => List.eq_of_mem_replicate ((List.dropWhile_sublist _).mem hn)

theorem countP_pass_eq_zero {added : List Cell} {k : Nat}
    (h : ∀ c ∈ added, ∃ j, c.pass? = some j ∧ j ≠ k) :
    added.countP (fun c => c.pass? = some k) = 0 := by
  rw [List.countP_eq_zero]
  intro c hc
  obtain ⟨j, htag, hne⟩ := h c hc
  simp [htag, hne]

/-- One pass more, before the others. -/
theorem Report.cons {left : Nat} {added added' : List Cell} {created : List Nat}
    (h : Report (pass + 1) left added' created) (htags : ∀ c ∈ added, c.pass? = some pass)
    (hsome : added.length ≠ 0) :
    Report pass (left + 1) (added' ++ added) (added.length :: created) where
  tags := fun c hc => by
    rcases List.mem_append.mp hc with hc | hc
    · obtain ⟨k, hk, htag⟩ := h.tags c hc
      exact ⟨k, Nat.le_of_succ_le hk, htag⟩
    · exact ⟨pass, le_rfl, htags c hc⟩
  counts := by
    have hfirst : (added' ++ added).countP (fun c => c.pass? = some pass) = added.length := by
      have hlater : added'.countP (fun c => c.pass? = some pass) = 0 := by
        refine countP_pass_eq_zero fun c hc => ?_
        obtain ⟨k, hk, htag⟩ := h.tags c hc
        exact ⟨k, htag, Nat.ne_of_gt hk⟩
      rw [List.countP_append, hlater, Nat.zero_add, List.countP_eq_length]
      simpa using htags
    have hrest : ∀ k ∈ List.range' (pass + 1) left,
        (added' ++ added).countP (fun c => c.pass? = some k) =
          added'.countP fun c => c.pass? = some k := by
      intro k hk
      have hlt : pass < k := (List.mem_range'_1.mp hk).1
      have hnone : added.countP (fun c => c.pass? = some k) = 0 :=
        countP_pass_eq_zero fun c hc => ⟨pass, htags c hc, Nat.ne_of_lt hlt⟩
      rw [List.countP_append, hnone, Nat.add_zero]
    rw [List.range'_succ, List.map_cons, hfirst, List.map_congr_left hrest, ← h.counts]
  total := by rw [List.length_append, List.sum_cons, h.total, Nat.add_comm]
  idle := by
    rw [List.dropWhile_cons_of_pos (by simpa using hsome)]
    exact h.idle

/-- **The report counts the cells that passes add.** -/
theorem run_grownBy {left : Nat} {created : List Nat}
    (h : (run left pass cells).created = .ok created) :
    ∃ added, cells.GrownBy (run left pass cells).cells added ∧ Report pass left added created := by
  induction left generalizing pass cells created with
  | zero =>
    obtain rfl : [] = created := Except.ok.inj h
    exact ⟨[], CellMap.GrownBy.refl cells, Report.nothing pass 0⟩
  | succ left ih =>
    have hshort : Short cells := by
      by_contra hlong
      obtain ⟨f, hf⟩ := run_isError hlong left pass
      rw [hf] at h
      cases h
    obtain ⟨added, hgrown, htags, hcount⟩ := foldl_look_grownBy pass (sites cells) ⟨cells, 0⟩
    rw [run_succ, hshort.sweep_eq] at h ⊢
    generalize (sites cells).foldl (look pass) ⟨cells, 0⟩ = p at h hgrown hcount ⊢
    rw [Nat.zero_add] at hcount
    by_cases hzero : p.created = 0
    · simp only [hzero, ↓reduceIte] at h ⊢
      obtain rfl := Except.ok.inj h
      obtain rfl := List.length_eq_zero_iff.mp (hcount.symm.trans hzero)
      exact ⟨[], hgrown, Report.nothing pass (left + 1)⟩
    · simp only [hzero, ↓reduceIte] at h ⊢
      cases hrest : (run left (pass + 1) p.cells).created with
      | error f => rw [hrest] at h; cases h
      | ok later =>
        rw [hrest] at h
        obtain rfl : p.created :: later = created := Except.ok.inj h
        obtain ⟨added', hgrown', hreport⟩ := ih hrest
        rw [hcount] at hzero ⊢
        exact ⟨added' ++ added, hgrown.trans hgrown', hreport.cons htags hzero⟩

/-- **So does that of a filling.** -/
theorem fill_grownBy {passes : Nat} {created : List Nat}
    (h : (fill cells passes).created = .ok created) :
    ∃ added, cells.GrownBy (fill cells passes).cells added ∧ Report 0 passes added created := by
  rw [fill_cells]
  exact run_grownBy (run_created_of_fill h)

end Filling

/-! ## 4. Histories -/

/-- What can be done to a map. -/
inductive Operation where
  | insertObserved (key : String) (readings : List Reading)
  | insertFilled (key : String) (average : Binary64) (pass : Nat)
  | fill (passes : Nat)

namespace Operation

/-- The map with a cell put into it, if the cell could be built. -/
def insertBuilt (m : CellMap) : Except Failure Cell → CellMap
  | .ok c => m.insert c
  | .error _ => m

/-- The map after an operation.  Filling that fails leaves what it has filled before. -/
def apply (m : CellMap) : Operation → CellMap
  | .insertObserved key readings => insertBuilt m (Cell.readObserved key readings)
  | .insertFilled key average pass => insertBuilt m (Cell.readFilled key average pass)
  | .fill passes => (Filling.fill m passes).cells

theorem insertBuilt_sound {m : CellMap} (h : m.Sound) {r : Except Failure Cell}
    (hr : ∀ c, r = .ok c → c.Sound) : (insertBuilt m r).Sound := by
  cases r with
  | ok c => exact h.insert (hr c rfl)
  | error f => exact h

/-- **No operation makes a map unsound.** -/
theorem apply_sound {m : CellMap} (h : m.Sound) (op : Operation) : (op.apply m).Sound := by
  cases op with
  | insertObserved key readings => exact insertBuilt_sound h fun _ => Cell.readObserved_sound
  | insertFilled key average pass => exact insertBuilt_sound h fun _ => Cell.readFilled_sound
  | fill passes => exact Filling.fill_sound h passes

end Operation

/-- The map that operations make from nothing. -/
def CellMap.after (ops : List Operation) : CellMap := ops.foldl Operation.apply .empty

theorem CellMap.after_sound (ops : List Operation) : (after ops).Sound := by
  suffices hfold : ∀ m : CellMap, m.Sound → (ops.foldl Operation.apply m).Sound from
    hfold empty fun key c hget => by rw [get?_empty] at hget; cases hget
  induction ops with
  | nil => exact fun m hm => hm
  | cons op ops ih => exact fun m hm => ih (op.apply m) (op.apply_sound hm)

/-- What is true of every map that has a history. -/
structure CellMap.Consistent (m : CellMap) : Prop where
  sound : m.Sound
  ascending : (m.keys.map Hash.text).Pairwise (· < ·)
  counts : m.observedCount + m.filledCount = m.size

/-- What is true of every attempt to fill a map: nothing that was there is touched; it fails exactly on
keys that are too long and in more passes than a report can hold, the latter with an overflow once all
else has succeeded; and otherwise the report lists what was added. -/
structure Filling.Accounted (m : CellMap) (passes : Nat) (o : Outcome) : Prop where
  kept : m.KeptBy o.cells
  fails_iff : (∃ f, o.created = .error f) ↔
    (1 ≤ passes ∧ ∃ key, m.contains key = true ∧ 12 < key.length) ∨ longestReport < passes
  overflows : longestReport < passes → (∀ key, m.contains key = true → key.length ≤ 12) →
    o.created = .error (.overflow "report of the passes")
  reported : ∀ created, o.created = .ok created →
    created = (List.range passes).map (fun k =>
      o.cells.cells.countP fun c => m.contains c.key = false ∧ c.pass? = some k) ∧
    o.cells.size = m.size + created.sum ∧ ∀ n ∈ created.dropWhile (· ≠ 0), n = 0

theorem Filling.fill_accounted {m : CellMap} (hm : m.Sound) (passes : Nat) :
    Accounted m passes (fill m passes) where
  kept := fill_keeps m passes
  fails_iff := fill_isError_iff.trans (or_congr_left (and_congr_right fun _ => not_short_iff))
  overflows := fun hlong hshort => fill_overflows hshort hlong
  reported := by
    intro created hok
    obtain ⟨added, hgrown, hreport⟩ := fill_grownBy hok
    refine ⟨?_, hgrown.size.trans (by rw [hreport.total]), hreport.idle⟩
    rw [hreport.counts, List.range_eq_range']
    exact List.map_congr_left fun k _ => (hgrown.countP_new hm fun c => c.pass? = some k).symm

/-- Filling that meets a key that is too long keeps what it has filled before. -/
example :
    let o := Filling.fill (CellMap.after [.insertFilled "0" 1000 0, .insertFilled "4" 1020 0,
      .insertFilled "9999999999999" 1010 0]) 1
    (o.created.toOption, o.cells.keys.map Hash.text) =
      (none, ["0", "1", "4", "9999999999999"]) := by
  decide +kernel

/-- **Maps are consistent, and filling is accounted for, in every history**, also where it fails. -/
theorem history_consistent (ops : List Operation) :
    (CellMap.after ops).Consistent ∧ ∀ passes,
      Filling.Accounted (CellMap.after ops) passes (Filling.fill (CellMap.after ops) passes) := by
  have hsound := CellMap.after_sound ops
  have hmap : (CellMap.after ops).Consistent :=
    ⟨hsound, CellMap.keys_ascending _, CellMap.observedCount_add_filledCount _⟩
  exact ⟨hmap, fun passes => Filling.fill_accounted hsound passes⟩

/-- A map of nothing has no key that is too long, and cannot be filled in 2^64 - 1 passes. -/
theorem nothing_overflows :
    (∀ key, (CellMap.after []).contains key = true → key.length ≤ 12) ∧
      (Filling.fill (CellMap.after []) 0xffffffffffffffff).created =
        .error (.overflow "report of the passes") := by
  have hshort : ∀ key, (CellMap.after []).contains key = true → key.length ≤ 12 := fun key hkey => by
    obtain ⟨c, hc⟩ := CellMap.contains_iff.mp hkey
    rw [show CellMap.after [] = .empty from rfl, CellMap.get?_empty] at hc
    cases hc
  obtain ⟨-, hfilled⟩ := history_consistent []
  exact ⟨hshort, (hfilled 0xffffffffffffffff).overflows (by decide) hshort⟩

end Barogrid
