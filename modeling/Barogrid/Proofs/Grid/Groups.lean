import Mathlib
import Barogrid.Grid.Binning
import Barogrid.Proofs.Grid.Pass
import Barogrid.Proofs.Yields

/-!
# What falls into a cell

Binning takes the readings one by one.  What becomes of the whole list can be said without the steps:
a key has a cell exactly when it is the key of some reading, and then all readings with this key are
in the cell, in the order in which they came.

* `under` -- the readings with a key;
* `group_collects` -- **grouping collects the readings of each key**, from what one step does
  (`Collects.add`);
* `get?_bin` -- **binning puts exactly these readings into the cell of the key**, and `bin_isOk_iff`
  says when it succeeds at all.
-/

namespace Barogrid

open Geohash (Hash)

variable {n : Nat} {key : Hash} {r : Reading} {readings seen : List Reading}

/-! ## 1. Maps of lists of cells -/

namespace CellMap

variable {m : CellMap} {c : Cell} {cells : List Cell}

/-- Putting cells with different keys into a map: each is found under its key, and what was there
before is found where no new cell is. -/
theorem get?_foldl_insert (h : cells.Pairwise fun c c' => c.key ≠ c'.key) :
    (cells.foldl insert m).get? key = some c ↔
      (c ∈ cells ∧ c.key = key) ∨ ((∀ c' ∈ cells, c'.key ≠ key) ∧ m.get? key = some c) := by
  induction cells generalizing m with
  | nil => simp
  | cons c' cells ih =>
    obtain ⟨hfirst, hrest⟩ := List.pairwise_cons.mp h
    rw [List.foldl_cons, ih hrest, get?_insert]
    by_cases hkey : c'.key = key
    · have hothers : ∀ c'' ∈ cells, c''.key ≠ key := by
        intro c'' hc'' heq
        exact hfirst c'' hc'' (hkey.trans heq.symm)
      rw [if_pos hkey]
      constructor
      · rintro (⟨hc, heq⟩ | ⟨-, hc⟩)
        · exact absurd heq (hothers c hc)
        · obtain rfl := Option.some.inj hc
          exact Or.inl ⟨List.mem_cons_self, hkey⟩
      · rintro (⟨hc, heq⟩ | ⟨hnone, -⟩)
        · rcases List.mem_cons.mp hc with rfl | hc
          · exact Or.inr ⟨hothers, rfl⟩
          · exact absurd heq (hothers c hc)
        · exact absurd hkey (hnone c' List.mem_cons_self)
    · rw [if_neg hkey, List.forall_mem_cons, List.mem_cons]
      constructor
      · rintro (⟨hc, heq⟩ | ⟨hnone, hc⟩)
        · exact Or.inl ⟨Or.inr hc, heq⟩
        · exact Or.inr ⟨⟨hkey, hnone⟩, hc⟩
      · rintro (⟨rfl | hc, heq⟩ | ⟨⟨-, hnone⟩, hc⟩)
        · exact absurd heq hkey
        · exact Or.inl ⟨hc, heq⟩
        · exact Or.inr ⟨hnone, hc⟩

theorem get?_ofList (h : cells.Pairwise fun c c' => c.key ≠ c'.key) :
    (ofList cells).get? key = some c ↔ c ∈ cells ∧ c.key = key := by
  rw [ofList, get?_foldl_insert h, get?_empty]
  simp

end CellMap

namespace Binning

/-! ## 2. Grouping -/

/-- The key of a reading, if its place has one of this length. -/
def key? (n : Nat) (r : Reading) : Option Hash := (Geohash.encode r.place n).toOption

/-- **The readings with a key**, in the order in which they came. -/
def under (n : Nat) (readings : List Reading) (key : Hash) : List Reading :=
  readings.filter fun r => key? n r = some key

theorem key?_eq_some_iff : key? n r = some key ↔ Geohash.encode r.place n = .ok key := by
  unfold key?
  cases Geohash.encode r.place n <;> simp [Except.toOption]

theorem keyOf_eq_ok_iff : keyOf n r = .ok key ↔ key? n r = some key := by
  rw [key?_eq_some_iff]
  unfold keyOf Geohash.lift
  cases Geohash.encode r.place n <;> simp [Except.mapError]

/-- Readings on the globe have keys of every length that can be asked for. -/
theorem exists_key? (hr : r.place.onGlobe = true) (hn : 1 ≤ n) (hmax : n ≤ Geohash.maxLength) :
    ∃ key, key? n r = some key := by
  obtain ⟨key, hencode, -⟩ := Geohash.encode_isOk hr hn hmax
  exact ⟨key, key?_eq_some_iff.mpr hencode⟩

/-- A reading lies in the cell of its key. -/
theorem key?_owns (h : key? n r = some key) :
    key.length = n ∧ key.bounds.Owns r.place ∧ n ≤ Geohash.maxLength := by
  have hencode := key?_eq_some_iff.mp h
  obtain ⟨hn, hmax, hr⟩ := Geohash.encode_valid hencode
  obtain ⟨hlen, howns⟩ := (Geohash.encode_eq_ok_iff hr hn hmax).mp hencode
  exact ⟨hlen, howns, hmax⟩

theorem mem_under : r ∈ under n readings key ↔ r ∈ readings ∧ key? n r = some key := by
  simp [under]

theorem under_append (seen : List Reading) (r : Reading) (key : Hash) :
    under n (seen ++ [r]) key = under n seen key ++ if key? n r = some key then [r] else [] := by
  unfold under
  rw [List.filter_append, List.filter_singleton]
  by_cases h : key? n r = some key <;> simp [h]

/-- Each key has the readings with this key, and no key is without any. -/
def Collects (n : Nat) (seen : List Reading) (groups : Groups) : Prop :=
  ∀ (key : Hash) (rs : List Reading), groups[key]? = some rs ↔ rs = under n seen key ∧ rs ≠ []

theorem Collects.getD {groups : Groups} (h : Collects n seen groups) (key : Hash) :
    groups.getD key [] = under n seen key := by
  rw [Std.ExtTreeMap.getD_eq_getD_getElem?]
  cases hget : groups[key]? with
  | some rs => exact ((h key rs).mp hget).1
  | none =>
    by_cases hnil : under n seen key = []
    · exact hnil.symm
    · rw [(h key _).mpr ⟨rfl, hnil⟩] at hget
      cases hget

/-- One reading more. -/
theorem Collects.add {groups : Groups} (h : Collects n seen groups) (hkey : key? n r = some key) :
    Collects n (seen ++ [r]) (add groups key r) := by
  intro key' rs
  unfold Binning.add
  rw [Std.ExtTreeMap.getElem?_insert, h.getD, under_append, hkey]
  by_cases heq : key = key'
  · subst heq
    simp only [Std.LawfulEqOrd.compare_eq_iff_eq, ↓reduceIte, Option.some.injEq]
    constructor
    · rintro rfl
      exact ⟨rfl, by simp⟩
    · rintro ⟨rfl, -⟩
      rfl
  · simp only [Std.LawfulEqOrd.compare_eq_iff_eq, heq, ↓reduceIte, Option.some.injEq,
      List.append_nil]
    exact h key' rs

/-- **Grouping collects the readings of each key**, and succeeds only if every reading has one. -/
theorem group_collects {groups : Groups} (h : group n readings = .ok groups) :
    (∀ r ∈ readings, ∃ key, key? n r = some key) ∧ Collects n readings groups := by
  suffices hfold : ∀ (seen : List Reading) (groups₀ : Groups), Collects n seen groups₀ →
      readings.foldlM (fun groups r => return Binning.add groups (← keyOf n r) r) groups₀ =
        .ok groups →
      (∀ r ∈ readings, ∃ key, key? n r = some key) ∧ Collects n (seen ++ readings) groups from
    hfold [] ∅ (fun key rs => by simp [under]) h
  clear h
  induction readings with
  | nil =>
    intro seen groups₀ hseen h
    rw [List.foldlM_nil] at h
    rw [List.append_nil, ← Except.ok.inj h]
    exact ⟨fun _ hr => absurd hr List.not_mem_nil, hseen⟩
  | cons r readings ih =>
    intro seen groups₀ hseen h
    rw [List.foldlM_cons] at h
    obtain ⟨groups₁, hadd, hrest⟩ := exists_of_bind_eq_ok h
    obtain ⟨key, hkey, hadded⟩ := exists_of_bind_eq_ok hadd
    obtain rfl := Except.ok.inj hadded
    have hkey := keyOf_eq_ok_iff.mp hkey
    obtain ⟨hkeys, hcollects⟩ := ih (seen ++ [r]) _ (hseen.add hkey) hrest
    rw [List.append_assoc, List.singleton_append] at hcollects
    exact ⟨List.forall_mem_cons.mpr ⟨⟨key, hkey⟩, hkeys⟩, hcollects⟩

/-- Readings that have a key can be grouped. -/
theorem group_isOk (h : ∀ r ∈ readings, ∃ key, key? n r = some key) :
    ∃ groups, group n readings = .ok groups := by
  obtain ⟨groups, hgroups, -⟩ : Yields (group n readings) fun _ => True := by
    refine Yields.foldlM trivial fun groups _ r hr => ?_
    obtain ⟨key, hkey⟩ := h r hr
    rw [keyOf_eq_ok_iff.mpr hkey]
    exact Yields.ok trivial
  exact ⟨groups, hgroups⟩

/-! ## 3. Binning -/

/-- The cell of a key with the given readings. -/
def observedCell (key : Hash) (readings : List Reading) : Cell :=
  ⟨key, key.bounds, Statistics.medianOf (readings.map Reading.value), .observed readings⟩

/-- The value of such a cell is the median of its readings. -/
theorem median_observedCell (key : Hash) (h : readings ≠ []) :
    Statistics.median (readings.map Reading.value) = .ok (observedCell key readings).average := by
  have hsome : (readings.map Reading.value).isEmpty = false := by simpa using h
  unfold Statistics.median
  rw [hsome]
  rfl

theorem observed_eq_ok (key : Hash) (h : readings ≠ []) :
    Cell.observed key readings = .ok (observedCell key readings) := by
  unfold Cell.observed
  rw [median_observedCell key h]
  rfl

theorem cellsOf_eq_ok {groups : Groups} (h : Collects n readings groups) :
    cellsOf groups = .ok (groups.toList.map fun p => observedCell p.1 p.2) := by
  refine mapM_eq_ok fun ⟨key, rs⟩ hmem => ?_
  exact observed_eq_ok key
    ((h key rs).mp (Std.ExtTreeMap.mem_toList_iff_getElem?_eq_some.mp hmem)).2

/-- Binning succeeds exactly when every reading has a key. -/
theorem bin_isOk_iff :
    (∃ m, bin readings n = .ok m) ↔ ∀ r ∈ readings, ∃ key, key? n r = some key := by
  constructor
  · rintro ⟨m, hm⟩
    obtain ⟨groups, hgroups, -⟩ := exists_of_bind_eq_ok hm
    exact (group_collects hgroups).1
  · intro h
    obtain ⟨groups, hgroups⟩ := group_isOk h
    refine ⟨CellMap.ofList (groups.toList.map fun p => observedCell p.1 p.2), ?_⟩
    unfold bin
    rw [hgroups]
    show (cellsOf groups >>= fun cells => pure (CellMap.ofList cells)) = _
    rw [cellsOf_eq_ok (group_collects hgroups).2]
    rfl

/-- **Binning puts into the cell of a key exactly the readings with this key.** -/
theorem get?_bin {m : CellMap} {c : Cell} (h : bin readings n = .ok m) :
    m.get? key = some c ↔
      under n readings key ≠ [] ∧ c = observedCell key (under n readings key) := by
  obtain ⟨groups, hgroups, hm⟩ := exists_of_bind_eq_ok h
  have hcollects := (group_collects hgroups).2
  rw [cellsOf_eq_ok hcollects] at hm
  obtain rfl := Except.ok.inj hm
  have hkeys : (groups.toList.map fun p => observedCell p.1 p.2).Pairwise
      fun c c' => c.key ≠ c'.key := by
    rw [List.pairwise_map]
    refine Std.ExtTreeMap.distinct_keys_toList.imp fun hne heq => hne ?_
    exact Std.LawfulEqOrd.compare_eq_iff_eq.mpr heq
  rw [CellMap.get?_ofList hkeys, List.mem_map]
  constructor
  · rintro ⟨⟨⟨key', rs⟩, hmem, rfl⟩, rfl⟩
    obtain ⟨rfl, hne⟩ :=
      (hcollects key' rs).mp (Std.ExtTreeMap.mem_toList_iff_getElem?_eq_some.mp hmem)
    exact ⟨hne, rfl⟩
  · rintro ⟨hne, rfl⟩
    refine ⟨⟨(key, under n readings key), ?_, rfl⟩, rfl⟩
    exact Std.ExtTreeMap.mem_toList_iff_getElem?_eq_some.mpr ((hcollects key _).mpr ⟨rfl, hne⟩)

end Binning

end Barogrid
