import Mathlib
import Barogrid.Grid.Filling
import Barogrid.Proofs.Geohash.Translation

/-!
# What a pass does

A look at a site can fail only because the key is too long.  Otherwise it fills the cell looked at
or leaves everything as it is, and which of the two depends on the map alone:

* `Ready` -- the cell has no value and at least two of its neighbours have one;
* `visit_eq` -- **all that a visit can do**, as the function `look`;
* `sweep_fst`, `sweep_snd` -- a sweep is the fold of `look` over the sites before the first key that
  is too long, and it fails if there is one;
* `exists_look_of_contains` -- a cell that came into the map came by one of the looks;
* `not_ready_of_created_eq` -- looks that have filled nothing found nothing to fill;
* `sweep_induction` -- what each look keeps, a sweep keeps, also when a failure ends it.
-/

namespace Barogrid

open Geohash (Hash Direction maxLength)

/-! ## 1. Maps -/

namespace CellMap

variable {m m' m'' : CellMap} {P : Hash → Prop} {c : Cell} {key : Hash}

/-- Every cell of `m` is a cell of `m'`, unchanged. -/
def KeptBy (m m' : CellMap) : Prop := ∀ key c, m.get? key = some c → m'.get? key = some c

theorem KeptBy.refl (m : CellMap) : m.KeptBy m := fun _ _ h => h

theorem KeptBy.trans (h : m.KeptBy m') (h' : m'.KeptBy m'') : m.KeptBy m'' :=
  fun key c hc => h' key c (h key c hc)

theorem contains_iff : m.contains key = true ↔ ∃ c, m.get? key = some c := by
  rw [contains_eq, Option.isSome_iff_exists]

theorem contains_eq_false_iff : m.contains key = false ↔ m.get? key = none := by
  rw [contains_eq, Option.isSome_eq_false_iff, Option.isNone_iff_eq_none]

theorem KeptBy.contains (h : m.KeptBy m') (hkey : m.contains key = true) :
    m'.contains key = true := by
  obtain ⟨c, hc⟩ := contains_iff.mp hkey
  exact contains_iff.mpr ⟨c, h key c hc⟩

theorem keptBy_insert (h : m.contains c.key = false) : m.KeptBy (m.insert c) := by
  intro key c' hc'
  rw [get?_insert]
  split
  · rename_i heq
    rw [contains_eq_false_iff, heq, hc'] at h
    cases h
  · exact hc'

theorem get?_insert_self (m : CellMap) (c : Cell) : (m.insert c).get? c.key = some c := by
  rw [get?_insert, if_pos rfl]

theorem contains_insert_self (m : CellMap) (c : Cell) : (m.insert c).contains c.key = true :=
  contains_iff.mpr ⟨c, m.get?_insert_self c⟩

theorem contains_insert (m : CellMap) (c : Cell) (key : Hash) :
    (m.insert c).contains key = true ↔ c.key = key ∨ m.contains key = true := by
  rw [contains_eq, contains_eq, get?_insert]
  split
  · rename_i heq
    simp [heq]
  · rename_i hne
    simp [hne]

/-- All keys have the property. -/
def Keys (P : Hash → Prop) (m : CellMap) : Prop := ∀ key, m.contains key = true → P key

theorem Keys.insert (h : m.Keys P) (hc : P c.key) : (m.insert c).Keys P := by
  intro key hkey
  rcases (contains_insert m c key).mp hkey with rfl | hkey
  · exact hc
  · exact h key hkey

theorem mem_keys : key ∈ m.keys ↔ m.contains key = true :=
  Std.ExtTreeMap.mem_keys.trans Std.ExtTreeMap.contains_iff_mem.symm

theorem average?_isSome : (m.average? key).isSome = m.contains key := by
  rw [contains_eq, average?, Option.isSome_map]

end CellMap

namespace Filling

variable {cells : CellMap} {key : Hash} {site : Site} {p : Progress} {pass : Nat}

/-! ## 2. One look -/

/-- Is the key short enough for its neighbours to be named? -/
def Site.Short (site : Site) : Prop := site.key.length ≤ maxLength

instance : DecidablePred Site.Short := fun site => Nat.decLe site.key.length maxLength

/-- The cell that is looked at. -/
def Site.target (site : Site) : Hash := site.key.next site.direction

/-- The values around a cell. -/
def surroundings (cells : CellMap) (key : Hash) : List Binary64 :=
  (Direction.all.map key.next).filterMap cells.average?

/-- **The cell can be filled**: it has no value, and enough of its neighbours have one. -/
def Ready (cells : CellMap) (key : Hash) : Prop :=
  cells.contains key = false ∧ needed ≤ (surroundings cells key).length

instance : Decidable (Ready cells key) :=
  inferInstanceAs (Decidable (cells.contains key = false ∧ needed ≤ (surroundings cells key).length))

theorem mem_all (d : Direction) : d ∈ Direction.all := by cases d <;> decide

/-- Enough neighbours have a value when those in two directions have one. -/
theorem needed_le_surroundings_iff :
    needed ≤ (surroundings cells key).length ↔
      ∃ d₁ d₂, d₁ ≠ d₂ ∧ cells.contains (key.next d₁) = true ∧
        cells.contains (key.next d₂) = true := by
  have hnodup : (Direction.all.filter fun d => cells.contains (key.next d)).Nodup :=
    List.Nodup.filter _ (by decide)
  have hlength : (surroundings cells key).length =
      (Direction.all.filter fun d => cells.contains (key.next d)).toFinset.card := by
    rw [List.toFinset_card_of_nodup hnodup, ← List.countP_eq_length_filter]
    unfold surroundings
    rw [List.length_filterMap_eq_countP, List.countP_map]
    exact congrArg (List.countP · Direction.all) (funext fun d => CellMap.average?_isSome)
  rw [hlength]
  show 1 < _ ↔ _
  rw [Finset.one_lt_card]
  simp only [List.mem_toFinset, List.mem_filter, mem_all, true_and]
  constructor
  · rintro ⟨d₁, h₁, d₂, h₂, hne⟩
    exact ⟨d₁, d₂, hne, h₁, h₂⟩
  · rintro ⟨d₁, d₂, hne, h₁, h₂⟩
    exact ⟨d₁, h₁, d₂, h₂, hne⟩

/-- What is put into a cell that can be filled. -/
def filling (pass : Nat) (cells : CellMap) (key : Hash) : Cell :=
  Cell.filled key (Statistics.meanOf (surroundings cells key)) pass

/-- What a look does. -/
def look (pass : Nat) (p : Progress) (site : Site) : Progress :=
  if Ready p.cells site.target then
    ⟨p.cells.insert (filling pass p.cells site.target), p.created + 1⟩
  else p

theorem mapM_adjacent (hlen : key.length ≤ maxLength) :
    Direction.all.mapM key.adjacent = .ok (Direction.all.map key.next) := by
  have hnext := Hash.adjacent_eq_next hlen
  simp only [Direction.all, List.mapM_cons, List.mapM_nil, hnext]
  rfl

theorem around_eq (hlen : key.length ≤ maxLength) : around cells key = .ok (surroundings cells key) := by
  have hnext : ∀ d, Geohash.lift (key.adjacent d) = .ok (key.next d) := fun d => by
    rw [Hash.adjacent_eq_next hlen d]
    rfl
  unfold around
  simp only [Direction.all, List.mapM_cons, List.mapM_nil, hnext]
  rfl

theorem mean_eq {xs : List Binary64} (h : needed ≤ xs.length) :
    Statistics.mean xs = .ok (Statistics.meanOf xs) := by
  unfold Statistics.mean
  rw [if_neg]
  intro hnil
  rw [List.isEmpty_iff.mp hnil] at h
  exact absurd h (by decide)

/-- **All that a visit can do.** -/
theorem visit_eq (hsite : site.Short) (pass : Nat) (p : Progress) :
    visit pass p site = .ok (look pass p site) := by
  have hlen : site.target.length ≤ maxLength := (Hash.length_next hsite _).le.trans hsite
  have hcandidate : Geohash.lift (site.key.adjacent site.direction) = .ok site.target := by
    rw [Hash.adjacent_eq_next hsite]
    rfl
  unfold visit look
  rw [hcandidate]
  show (if p.cells.contains site.target = true then _ else _) = _
  by_cases hvacant : p.cells.contains site.target = true
  · rw [if_pos hvacant, if_neg fun hready => by rw [hready.1] at hvacant; cases hvacant]
    rfl
  rw [if_neg hvacant, around_eq hlen]
  show (if (surroundings p.cells site.target).length < needed then _ else _) = _
  by_cases hfew : (surroundings p.cells site.target).length < needed
  · rw [if_pos hfew, if_neg fun hready => absurd hready.2 (not_le.mpr hfew)]
    rfl
  · have hready : Ready p.cells site.target := ⟨by simpa using hvacant, not_lt.mp hfew⟩
    rw [if_neg hfew, mean_eq hready.2, if_pos hready]
    rfl

theorem visit_of_long (hsite : ¬ site.Short) (pass : Nat) (p : Progress) :
    visit pass p site = .error (.keyLength site.key.length) := by
  unfold visit
  rw [Hash.adjacent_of_long (not_le.mp hsite)]
  rfl

/-- **A cell that can be filled has two neighbours with a value**, apart from itself and from each
other. -/
theorem Ready.exists_neighbors (h : Ready cells key) (hlen : key.length ≤ maxLength) :
    ∃ d₁ d₂, key.next d₁ ≠ key.next d₂ ∧ key.next d₁ ≠ key ∧ key.next d₂ ≠ key ∧
      cells.contains (key.next d₁) = true ∧ cells.contains (key.next d₂) = true := by
  obtain ⟨d₁, d₂, hne, h₁, h₂⟩ := needed_le_surroundings_iff.mp h.2
  have hself : ∀ k, cells.contains k = true → k ≠ key := by
    rintro k hk rfl
    rw [h.1] at hk
    cases hk
  have hne₁ := hself _ h₁
  exact ⟨d₁, d₂, fun heq => hne (Hash.next_injective hlen heq hne₁), hne₁, hself _ h₂, h₁, h₂⟩

/-! ## 3. Folds of looks -/

/-- **A sweep looks at the sites before the first key that is too long**, -/
theorem sweep_fst (pass : Nat) (sites : List Site) (p : Progress) :
    (sweep pass sites p).1 = (sites.takeWhile Site.Short).foldl (look pass) p := by
  induction sites generalizing p with
  | nil => rfl
  | cons site sites ih =>
    unfold sweep
    by_cases hsite : site.Short
    · rw [visit_eq hsite, List.takeWhile_cons_of_pos (by simpa using hsite)]
      exact ih (look pass p site)
    · rw [visit_of_long hsite, List.takeWhile_cons_of_neg (by simpa using hsite)]
      rfl

/-- and it fails if there is one. -/
theorem sweep_snd (pass : Nat) (sites : List Site) (p : Progress) :
    (sweep pass sites p).2 = none ↔ ∀ site ∈ sites, site.Short := by
  induction sites generalizing p with
  | nil => simp [sweep]
  | cons site sites ih =>
    unfold sweep
    rw [List.forall_mem_cons]
    by_cases hsite : site.Short
    · rw [visit_eq hsite]
      exact (ih _).trans (and_iff_right hsite).symm
    · rw [visit_of_long hsite]
      simp [hsite]

theorem sweep_eq_foldl {sites : List Site} (h : ∀ site ∈ sites, site.Short) (pass : Nat)
    (p : Progress) : sweep pass sites p = (sites.foldl (look pass) p, none) := by
  have hall : sites.takeWhile Site.Short = sites :=
    List.takeWhile_eq_self_iff.mpr fun site hsite => by simpa using h site hsite
  exact Prod.ext ((sweep_fst pass sites p).trans (by rw [hall])) ((sweep_snd pass sites p).mpr h)

theorem look_keeps (pass : Nat) (p : Progress) (site : Site) :
    p.cells.KeptBy (look pass p site).cells := by
  unfold look
  split
  · rename_i hready
    exact CellMap.keptBy_insert hready.1
  · exact CellMap.KeptBy.refl p.cells

/-- **A cell that has a value keeps it.** -/
theorem foldl_look_keeps (pass : Nat) (sites : List Site) (p : Progress) :
    p.cells.KeptBy (sites.foldl (look pass) p).cells := by
  induction sites generalizing p with
  | nil => exact CellMap.KeptBy.refl p.cells
  | cons site sites ih => exact (look_keeps pass p site).trans (ih (look pass p site))

theorem look_keys {P : Hash → Prop} (hsite : P site.target) (hp : p.cells.Keys P) :
    (look pass p site).cells.Keys P := by
  unfold look
  split
  · exact hp.insert hsite
  · exact hp

/-- What holds of the keys and of their neighbours holds of the keys afterwards. -/
theorem foldl_look_keys {P : Hash → Prop} {sites : List Site}
    (hsites : ∀ site ∈ sites, P site.target) (hp : p.cells.Keys P) :
    (sites.foldl (look pass) p).cells.Keys P := by
  induction sites generalizing p with
  | nil => exact hp
  | cons site sites ih =>
    obtain ⟨hsite, hrest⟩ := List.forall_mem_cons.mp hsites
    exact ih hrest (look_keys hsite hp)

/-- **A cell that came into the map came by one of the looks**, when it could be filled. -/
theorem exists_look_of_contains {sites : List Site} (hnew : p.cells.contains key = false)
    (hkey : (sites.foldl (look pass) p).cells.contains key = true) :
    ∃ earlier site later, sites = earlier ++ site :: later ∧ site.target = key ∧
      Ready (earlier.foldl (look pass) p).cells key := by
  induction sites generalizing p with
  | nil =>
    rw [List.foldl_nil, hnew] at hkey
    cases hkey
  | cons site sites ih =>
    by_cases hlater : (look pass p site).cells.contains key = false
    · obtain ⟨earlier, site', later, rfl, htarget, hready⟩ := ih hlater hkey
      exact ⟨site :: earlier, site', later, rfl, htarget, hready⟩
    · have hready : Ready p.cells site.target := by
        by_contra hnot
        exact hlater (by rw [look, if_neg hnot]; exact hnew)
      have htarget : site.target = key := by
        rw [look, if_pos hready, Bool.not_eq_false, CellMap.contains_insert, hnew] at hlater
        exact hlater.resolve_right Bool.false_ne_true
      exact ⟨[], site, sites, rfl, htarget, htarget ▸ hready⟩

theorem created_le_foldl (pass : Nat) (sites : List Site) (p : Progress) :
    p.created ≤ (sites.foldl (look pass) p).created := by
  induction sites generalizing p with
  | nil => exact le_rfl
  | cons site sites ih =>
    refine le_trans ?_ (ih (look pass p site))
    unfold look
    split
    · exact Nat.le_succ p.created
    · exact le_rfl

/-- Looks that fill nothing found nothing to fill. -/
theorem not_ready_of_created_eq {sites : List Site}
    (h : (sites.foldl (look pass) p).created = p.created) :
    ∀ site ∈ sites, ¬ Ready p.cells site.target := by
  induction sites with
  | nil => exact fun _ hmem => absurd hmem List.not_mem_nil
  | cons site sites ih =>
    have hsite : ¬ Ready p.cells site.target := by
      intro hready
      have hle := created_le_foldl pass sites (look pass p site)
      rw [List.foldl_cons] at h
      rw [h, look, if_pos hready] at hle
      exact absurd hle (Nat.not_succ_le_self p.created)
    rw [List.foldl_cons, look, if_neg hsite] at h
    exact List.forall_mem_cons.mpr ⟨hsite, ih h⟩

/-- Where nothing can be filled, looks leave all as it is. -/
theorem foldl_look_of_not_ready {sites : List Site} (pass : Nat)
    (h : ∀ site ∈ sites, ¬ Ready p.cells site.target) : sites.foldl (look pass) p = p := by
  induction sites with
  | nil => rfl
  | cons site sites ih =>
    obtain ⟨hsite, hrest⟩ := List.forall_mem_cons.mp h
    rw [List.foldl_cons, look, if_neg hsite]
    exact ih hrest

/-! ## 4. Short keys -/

/-- No key is too long for its neighbours to be named. -/
def Short (cells : CellMap) : Prop := cells.Keys fun key => key.length ≤ maxLength

theorem not_short_iff :
    ¬ Short cells ↔ ∃ key, cells.contains key = true ∧ maxLength < key.length := by
  unfold Short CellMap.Keys
  push Not
  rfl

theorem mem_sites : site ∈ sites cells ↔ cells.contains site.key = true := by
  unfold sites
  constructor
  · intro hmem
    obtain ⟨key, hkey, hmem⟩ := List.mem_flatMap.mp hmem
    obtain ⟨d, -, rfl⟩ := List.mem_map.mp hmem
    exact CellMap.mem_keys.mp hkey
  · intro hkey
    exact List.mem_flatMap.mpr ⟨site.key, CellMap.mem_keys.mpr hkey,
      List.mem_map.mpr ⟨site.direction, mem_all site.direction, rfl⟩⟩

theorem Short.sites (h : Short cells) : ∀ site ∈ Filling.sites cells, site.Short :=
  fun site hsite => h site.key (mem_sites.mp hsite)

/-- A pass over a map without long keys. -/
theorem Short.sweep_eq (h : Short cells) (pass : Nat) :
    sweep pass (Filling.sites cells) ⟨cells, 0⟩ =
      ((Filling.sites cells).foldl (look pass) ⟨cells, 0⟩, none) :=
  sweep_eq_foldl h.sites pass ⟨cells, 0⟩

theorem Short.foldl_look (h : Short cells) (pass : Nat) :
    Short ((Filling.sites cells).foldl (look pass) ⟨cells, 0⟩).cells :=
  foldl_look_keys (fun site hsite =>
    (Hash.length_next (h.sites site hsite) site.direction).le.trans (h.sites site hsite)) h

theorem sites_short_iff : (∀ site ∈ sites cells, site.Short) ↔ Short cells := by
  constructor
  · intro h key hkey
    exact h ⟨key, .top⟩ (mem_sites.mpr hkey)
  · exact Short.sites

/-- **What every look at a neighbour of a present cell keeps, a sweep keeps.** -/
theorem sweep_induction {Q : CellMap → Prop} {sites : List Site}
    (hlook : ∀ pass p site, site.Short → p.cells.contains site.key = true → Q p.cells →
      Q (look pass p site).cells)
    (hsites : ∀ site ∈ sites, p.cells.contains site.key = true) (hp : Q p.cells) :
    Q (sweep pass sites p).1.cells := by
  induction sites generalizing p with
  | nil => exact hp
  | cons site sites ih =>
    obtain ⟨hsite, hrest⟩ := List.forall_mem_cons.mp hsites
    unfold sweep
    by_cases hshort : site.Short
    · rw [visit_eq hshort]
      refine ih (fun site' hsite' => ?_) (hlook pass p site hshort hsite hp)
      exact (look_keeps pass p site).contains (hrest site' hsite')
    · rw [visit_of_long hshort]
      exact hp

end Filling

end Barogrid
