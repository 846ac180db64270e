import Mathlib
import Barogrid.Proofs.Grid.Uniform

/-!
# What filling covers

Filling works on the map that it reads, so what a pass fills depends on the order of its looks.  What
the passes cover in the end does not.

* `Supported`, `Closed`, `hull` -- the rule of two neighbours, on sets of keys, and the least set
  that the rule adds nothing to (`isLeast_hull`);
* `foldl_look_subset` -- **looks stay within every closed set**: what they fill is supported;
* `mem_foldl_look_of_supported` -- **a pass leaves no gap that it found supported**: neighbours are
  mutual, so each such cell is looked at from one of its neighbours;
* `runBy_covers` -- both together, for passes that look at their sites in any order;
* `coverage_is_hull` -- what this means for the program's passes.
-/

namespace Barogrid

open Geohash (Hash Direction maxLength)

/-- The keys of a map. -/
def CellMap.keySet (m : CellMap) : Set Hash := fun key => m.contains key = true

namespace Filling

variable {n : Nat} {S T : Set Hash} {cells : CellMap} {key : Hash} {site : Site} {p : Progress}
  {pass : Nat} {looks : List Site}

/-! ## 1. The rule of two neighbours -/

/-- Two different neighbours of the key are in the set. -/
def Supported (T : Set Hash) (key : Hash) : Prop :=
  ∃ a b, a ≠ b ∧ key.HasNeighbor a ∧ key.HasNeighbor b ∧ a ∈ T ∧ b ∈ T

/-- Every supported key of `n` digits is in the set. -/
def Closed (n : Nat) (T : Set Hash) : Prop := ∀ key : Hash, key.length = n → Supported T key → key ∈ T

/-- The keys that are in every closed set around `S`. -/
def hull (n : Nat) (S : Set Hash) : Set Hash := fun key => ∀ T, S ⊆ T → Closed n T → key ∈ T

theorem Supported.mono (h : Supported S key) (hST : S ⊆ T) : Supported T key := by
  obtain ⟨a, b, hne, ha, hb, haS, hbS⟩ := h
  exact ⟨a, b, hne, ha, hb, hST haS, hST hbS⟩

theorem hull_subset (hST : S ⊆ T) (hT : Closed n T) : hull n S ⊆ T := fun _ hkey => hkey T hST hT

theorem closed_hull : Closed n (hull n S) := by
  intro key hlen hsupported T hST hT
  exact hT key hlen (hsupported.mono (hull_subset hST hT))

/-- **The hull is the least closed set around `S`.** -/
theorem isLeast_hull : IsLeast {T | S ⊆ T ∧ Closed n T} (hull n S) :=
  ⟨⟨fun _ hkey _ hST _ => hST hkey, closed_hull⟩, fun _ hT => hull_subset hT.1 hT.2⟩

/-! ## 2. One pass -/

theorem Ready.supported (h : Ready cells key) (hlen : key.length ≤ maxLength) :
    Supported cells.keySet key := by
  obtain ⟨d₁, d₂, hne, -, -, h₁, h₂⟩ := h.exists_neighbors hlen
  exact ⟨_, _, hne, Hash.hasNeighbor_next hlen d₁, Hash.hasNeighbor_next hlen d₂, h₁, h₂⟩

/-- Around a supported cell there are enough values. -/
theorem Supported.needed_le (h : Supported cells.keySet key) :
    needed ≤ (surroundings cells key).length := by
  obtain ⟨a, b, hne, ha, hb, haS, hbS⟩ := h
  obtain ⟨d₁, rfl⟩ := ha.exists_next
  obtain ⟨d₂, rfl⟩ := hb.exists_next
  refine needed_le_surroundings_iff.mpr ⟨d₁, d₂, ?_, haS, hbS⟩
  rintro rfl
  exact hne rfl

theorem look_subset (hT : Closed n T) (hmax : n ≤ maxLength) (hsite : site.target.length = n)
    (hp : p.cells.keySet ⊆ T) : (look pass p site).cells.keySet ⊆ T := by
  unfold look
  split
  · rename_i hready
    intro key hkey
    rcases (CellMap.contains_insert _ _ key).mp hkey with rfl | hkey
    · exact hT site.target hsite ((hready.supported (hsite.le.trans hmax)).mono hp)
    · exact hp hkey
  · exact hp

/-- **Looks stay within every closed set.** -/
theorem foldl_look_subset (hT : Closed n T) (hmax : n ≤ maxLength)
    (hsites : ∀ site ∈ looks, site.target.length = n) (hp : p.cells.keySet ⊆ T) :
    (looks.foldl (look pass) p).cells.keySet ⊆ T := by
  induction looks generalizing p with
  | nil => exact hp
  | cons site looks ih =>
    obtain ⟨hsite, hrest⟩ := List.forall_mem_cons.mp hsites
    exact ih hrest (look_subset hT hmax hsite hp)

theorem keySet_subset_of_keptBy {m m' : CellMap} (h : m.KeptBy m') : m.keySet ⊆ m'.keySet :=
  fun _ hkey => h.contains hkey

/-- After a look at a cell around which there are enough values it has one. -/
theorem mem_look_of_needed (h : needed ≤ (surroundings p.cells site.target).length) :
    site.target ∈ (look pass p site).cells.keySet := by
  by_cases hvacant : p.cells.contains site.target = false
  · have hready : Ready p.cells site.target := ⟨hvacant, h⟩
    rw [look, if_pos hready]
    exact CellMap.contains_insert_self p.cells (filling pass p.cells site.target)
  · exact (look_keeps pass p site).contains (by simpa using hvacant)

/-- **A pass leaves no gap that it found supported**, whatever the order of its looks. -/
theorem mem_foldl_look_of_supported (hsites : ∀ site, site ∈ sites cells → site ∈ looks)
    (hlen : key.length ≤ maxLength) (h : Supported cells.keySet key) :
    key ∈ (looks.foldl (look pass) ⟨cells, 0⟩).cells.keySet := by
  have hgrows := foldl_look_keeps pass looks ⟨cells, 0⟩
  by_cases hkey : cells.contains key = true
  · exact hgrows.contains hkey
  obtain ⟨a, -, -, ha, -, haS, -⟩ := id h
  obtain ⟨d, rfl⟩ := ha.exists_next
  have hother : key.next d ≠ key := fun heq => hkey (heq ▸ haS)
  -- neighbours are mutual, so the gap is looked at from this neighbour
  have htarget : Site.target ⟨key.next d, d.opposite⟩ = key := Hash.next_opposite hlen hother
  obtain ⟨earlier, later, rfl⟩ :=
    List.append_of_mem (hsites ⟨key.next d, d.opposite⟩ (mem_sites.mpr haS))
  rw [List.foldl_append, List.foldl_cons]
  generalize hq : earlier.foldl (look pass) ⟨cells, 0⟩ = q
  have hmeanwhile : cells.KeptBy q.cells := hq ▸ foldl_look_keeps pass earlier ⟨cells, 0⟩
  have hlook : key ∈ (look pass q ⟨key.next d, d.opposite⟩).cells.keySet := by
    have hsupported : Supported q.cells.keySet (Site.target ⟨key.next d, d.opposite⟩) := by
      rw [htarget]
      exact h.mono (keySet_subset_of_keptBy hmeanwhile)
    have hmem : Site.target ⟨key.next d, d.opposite⟩ ∈
        (look pass q ⟨key.next d, d.opposite⟩).cells.keySet :=
          mem_look_of_needed hsupported.needed_le
    rw [htarget] at hmem
    exact hmem
  exact keySet_subset_of_keptBy (foldl_look_keeps pass later _) hlook

/-! ## 3. All passes, in any order -/

/-- The passes of a run, each looking at what `order` lists for it, up to one that fills nothing. -/
def runBy (order : Nat → CellMap → List Site) : Nat → Nat → CellMap → Outcome
  | 0, _, cells => ⟨cells, .ok []⟩
  | left + 1, pass, cells =>
    match sweep pass (order pass cells) ⟨cells, 0⟩ with
    | (p, some f) => ⟨p.cells, .error f⟩
    | (p, none) =>
      if p.created = 0 then ⟨p.cells, .ok (List.replicate (left + 1) 0)⟩
      else
        let rest := runBy order left (pass + 1) p.cells
        ⟨rest.cells, rest.created.map (p.created :: ·)⟩

theorem run_eq_runBy (left pass : Nat) (cells : CellMap) :
    run left pass cells = runBy (fun _ => sites) left pass cells := by
  induction left generalizing pass cells with
  | zero => rfl
  | succ left ih =>
    rw [run_succ, runBy]
    rcases sweep pass (sites cells) ⟨cells, 0⟩ with ⟨p, _ | f⟩
    · simp only [ih]
    · rfl

/-- Each pass looks at the same sites as the program's, in whatever order. -/
def Exhaustive (order : Nat → CellMap → List Site) : Prop :=
  ∀ pass cells, (order pass cells).Perm (sites cells)

/-- Passes that succeed, keep the keys of a map and stay within their hull; it is reached once the
last pass fills nothing. -/
structure Outcome.Covers (o : Outcome) (n passes : Nat) (cells : CellMap) : Prop where
  above : cells.keySet ⊆ o.cells.keySet
  below : o.cells.keySet ⊆ hull n cells.keySet
  converged : ∃ created, o.created = .ok created ∧ created.length = passes ∧
    (created.getLast? = some 0 → o.cells.keySet = hull n cells.keySet)

/-- The hull of keys within the hull is no larger. -/
theorem hull_eq_of_between (hST : S ⊆ T) (hT : T ⊆ hull n S) : hull n T = hull n S := by
  apply Set.Subset.antisymm
  · exact hull_subset hT closed_hull
  · exact hull_subset (hST.trans isLeast_hull.1.1) closed_hull

/-- What a pass covers of a map whose keys have one length. -/
structure Progress.Covers (p : Progress) (n : Nat) (cells : CellMap) : Prop where
  uniform : p.cells.Uniform n
  above : cells.keySet ⊆ p.cells.keySet
  below : p.cells.keySet ⊆ hull n cells.keySet
  idle : p.created = 0 → p.cells.keySet = hull n cells.keySet

theorem foldl_look_covers (horder : looks.Perm (sites cells)) (hmax : n ≤ maxLength)
    (h : cells.Uniform n) : (looks.foldl (look pass) ⟨cells, 0⟩).Covers n cells := by
  have hshort := uniform_short h hmax
  have hlength : ∀ site ∈ looks, site.target.length = n := fun site hsite => by
    have hkey := mem_sites.mp (horder.mem_iff.mp hsite)
    rw [Site.target, Hash.length_next (hshort site.key hkey), h site.key hkey]
  have habove := keySet_subset_of_keptBy (foldl_look_keeps pass looks ⟨cells, 0⟩)
  have hbelow : (looks.foldl (look pass) ⟨cells, 0⟩).cells.keySet ⊆ hull n cells.keySet := by
    apply foldl_look_subset closed_hull hmax hlength
    exact isLeast_hull.1.1
  refine ⟨foldl_look_keys hlength h, habove, hbelow, fun hzero => hbelow.antisymm ?_⟩
  -- nothing was filled, so that what the pass covers is what it began with
  have hsame : looks.foldl (look pass) ⟨cells, 0⟩ = ⟨cells, 0⟩ :=
    foldl_look_of_not_ready pass (not_ready_of_created_eq hzero)
  refine hull_subset habove fun key hlen hsupported => ?_
  rw [hsame] at hsupported
  exact mem_foldl_look_of_supported (fun site hsite => horder.mem_iff.mpr hsite)
    (hlen.le.trans hmax) hsupported

/-- **Passes cover no more than the hull, and all of it when they come to rest.** -/
theorem runBy_covers {order : Nat → CellMap → List Site} (horder : Exhaustive order)
    (hmax : n ≤ maxLength) (h : cells.Uniform n) (left pass : Nat) :
    (runBy order left pass cells).Covers n left cells := by
  induction left generalizing pass cells with
  | zero =>
    exact ⟨Set.Subset.rfl, isLeast_hull.1.1, [], rfl, rfl, fun hlast => by cases hlast⟩
  | succ left ih =>
    have hpass : ((order pass cells).foldl (look pass) ⟨cells, 0⟩).Covers n cells :=
      foldl_look_covers (horder pass cells) hmax h
    rw [runBy, sweep_eq_foldl fun site hsite =>
      (uniform_short h hmax).sites site ((horder pass cells).mem_iff.mp hsite)]
    generalize (order pass cells).foldl (look pass) ⟨cells, 0⟩ = p at hpass
    show Outcome.Covers (if p.created = 0 then _ else _) n (left + 1) cells
    by_cases hzero : p.created = 0
    · rw [if_pos hzero]
      exact ⟨hpass.above, hpass.below, List.replicate (left + 1) 0, rfl, List.length_replicate,
        fun _ => hpass.idle hzero⟩
    · rw [if_neg hzero]
      obtain ⟨habove, hbelow, created, hok, hcount, hlast⟩ := ih hpass.uniform (pass + 1)
      rw [hull_eq_of_between hpass.above hpass.below] at hbelow hlast
      refine ⟨hpass.above.trans habove, hbelow, p.created :: created, ?_,
        by rw [List.length_cons, hcount], fun hzeros => hlast ?_⟩
      · show Except.map _ (runBy order left (pass + 1) p.cells).created = _
        rw [hok]
        rfl
      · cases created with
        | nil => exact absurd (Option.some.inj hzeros) hzero
        | cons count counts => rwa [List.getLast?_cons_cons] at hzeros

/-- **What filling covers** in a map whose keys have one length.  Each pass takes the map that the
passes before have left and leaves no gap there that is supported.  All passes together stay within
the hull of the keys and cover it once a pass fills nothing, and the same holds of passes that look
at their sites in any other order.  Only the report is missing where the passes are too many for it. -/
theorem coverage_is_hull (hmax : n ≤ 12) (h : cells.Uniform n) (passes : Nat) :
    (∀ k, (fill cells (k + 1)).cells =
        (sweep k (sites (fill cells k).cells) ⟨(fill cells k).cells, 0⟩).1.cells ∧
      ∀ key : Hash, key.length = n → Supported (fill cells k).cells.keySet key →
        key ∈ (fill cells (k + 1)).cells.keySet) ∧
    IsLeast {T | cells.keySet ⊆ T ∧ Closed n T} (hull n cells.keySet) ∧
    (fill cells passes).cells = (run passes 0 cells).cells ∧
    (run passes 0 cells).Covers n passes cells ∧
    (passes ≤ longestReport → (fill cells passes).Covers n passes cells) ∧
    ∀ order, Exhaustive order → (runBy order passes 0 cells).Covers n passes cells := by
  have hshort := uniform_short h hmax
  have hcovers : ∀ order, Exhaustive order → (runBy order passes 0 cells).Covers n passes cells :=
    fun order horder => runBy_covers horder hmax h passes 0
  have hpass : ∀ k, (fill cells (k + 1)).cells =
      ((sites (fill cells k).cells).foldl (look k) ⟨(fill cells k).cells, 0⟩).cells :=
    fill_cells_succ hshort
  have hrun : (run passes 0 cells).Covers n passes cells := by
    rw [run_eq_runBy]
    exact hcovers _ fun _ _ => List.Perm.refl _
  refine ⟨fun k => ⟨?_, fun key hlen hsupported => ?_⟩, isLeast_hull, fill_cells cells passes, hrun,
    fun hfits => ?_, hcovers⟩
  · rw [hpass, (fill_short hshort k).sweep_eq k]
  · rw [hpass]
    exact mem_foldl_look_of_supported (fun _ hsite => hsite) (hlen.le.trans hmax) hsupported
  · rw [fill_eq_run hfits]
    exact hrun

theorem southwest_covered :
    southwest.keys.map Hash.text = ["0", "4"] ∧
    (fill southwest 2).created.toOption = some [1, 0] ∧
    (fill southwest 2).cells.keySet = hull 1 southwest.keySet := by
  obtain ⟨-, -, -, -, hcovers, -⟩ := coverage_is_hull (by decide) southwest_uniform 2
  obtain ⟨created, hok, -, hhull⟩ := (hcovers (by decide)).converged
  have hcreated : (fill southwest 2).created.toOption = some [1, 0] := by decide +kernel
  rw [hok] at hcreated
  obtain rfl := Option.some.inj hcreated
  exact ⟨by decide +kernel, by rw [hok]; rfl, hhull rfl⟩

end Filling

end Barogrid
