import Mathlib
import Barogrid.Proofs.Grid.History
import Barogrid.Proofs.Grid.Uniform

/-!
# How much filling fills

A cell that is filled has two neighbours in the map, so it covers at least as many open sides of other
cells as it has open sides itself.  The number of open sides -- the perimeter of the map -- never grows,
and with a perimeter of at most four sides for each cell of the beginning there is no room for more
cells than the square of their number.

* `Hash.position`, `Hash.progress` -- the rows and columns of the raster, and the way along them;
* `bare`, `perimeter` -- the open sides of a set of keys;
* `perimeter_insert_le` -- **a cell with two neighbours in the set does not add to the perimeter**;
* `card_positions_le_bare` -- each line of the set has an open side at its end;
* `card_le_of_perimeter_le` -- **the perimeter bounds the number of cells**;
* `filled_at_most_square` -- what this means for a map of `n` cells, and for the report on it.
-/

namespace Barogrid

open Geohash (Hash Direction maxLength)

/-! ## 1. Rows and columns -/

namespace Geohash

namespace Direction

theorem opposite_opposite (d : Direction) : d.opposite.opposite = d := by cases d <;> rfl

instance : Fintype Direction := ⟨all.toFinset, fun d => by cases d <;> decide⟩

theorem card_eq : Fintype.card Direction = 4 := rfl

end Direction

namespace Hash

variable {h k : Hash} {d : Direction} {x : Axis}

/-- Where the cell begins on an axis. -/
def position (x : Axis) (h : Hash) : Int := (h.bounds.along x).lo.units

/-- Keys of one length that are in one row and in one column are one key. -/
theorem eq_of_position (hlen : h.length ≤ maxLength) (hsame : k.length = h.length)
    (hposition : ∀ x, k.position x = h.position x) : k = h := by
  refine eq_of_at hlen hsame fun x => ?_
  obtain ⟨i, hi⟩ := h.exists_at hlen x
  obtain ⟨j, hj⟩ := k.exists_at (hsame.le.trans hlen) x
  have hline : x.line (level k.length x) j = x.line (level h.length x) i :=
    hj.lo_units.symm.trans ((hposition x).trans hi.lo_units)
  rw [hsame] at hline
  obtain rfl : j = i := (x.line_strictMono _).injective hline
  exact ⟨j, hi, hj⟩

theorem position_next_other (hlen : h.length ≤ maxLength) (hx : x ≠ d.axis) :
    (h.next d).position x = h.position x := by
  obtain ⟨i, hi⟩ := h.exists_at hlen x
  have hnext := adjacent_at hlen (adjacent_eq_next hlen d) hi
  rw [Direction.moved_other hx] at hnext
  have hlo := hnext.lo_units
  rw [length_next hlen] at hlo
  exact hlo.trans hi.lo_units.symm

/-- How far on a cell is in a direction. -/
def progress (d : Direction) (h : Hash) : Int :=
  if d.upward then h.position d.axis else -h.position d.axis

/-- **A step that moves goes on in its direction.** -/
theorem progress_lt_next (hlen : h.length ≤ maxLength) (hne : h.next d ≠ h) :
    h.progress d < (h.next d).progress d := by
  obtain ⟨i, hi⟩ := h.exists_at hlen d.axis
  have hadj := adjacent_eq_next hlen d
  have hmoves := mt (adjacent_eq_self_iff hlen hadj hi).mpr hne
  have hlo := (adjacent_at hlen hadj hi).lo_units
  have hmono := d.axis.line_strictMono (level h.length d.axis)
  have hindex := hi.index_lt
  rw [length_next hlen] at hlo
  rw [Direction.moved_axis] at hmoves hlo
  unfold progress position
  rw [hlo, hi.lo_units]
  cases hup : d.upward with
  | true =>
    simp only [hup, ↓reduceIte] at hmoves ⊢
    exact hmono (by omega)
  | false =>
    simp only [hup, Bool.false_eq_true, ↓reduceIte] at hmoves ⊢
    exact neg_lt_neg (hmono (by omega))

end Hash

end Geohash

namespace Filling

variable {n : Nat} {S : Finset Hash} {key : Hash} {d : Direction}

/-! ## 2. Open sides -/

/-- The keys of a set behind whose side in a direction there is no other key of the set. -/
def bare (d : Direction) (S : Finset Hash) : Finset Hash :=
  S.filter fun key => key.next d ∉ S ∨ key.next d = key

/-- The number of open sides. -/
def perimeter (S : Finset Hash) : Nat := ∑ d, (bare d S).card

theorem mem_bare : key ∈ bare d S ↔ key ∈ S ∧ (key.next d ∉ S ∨ key.next d = key) :=
  Finset.mem_filter

theorem perimeter_le (S : Finset Hash) : perimeter S ≤ 4 * S.card := by
  have hside : ∀ d ∈ Finset.univ, (bare d S).card ≤ S.card :=
    fun d _ => Finset.card_le_card (Finset.filter_subset _ S)
  have hsum := Finset.sum_le_card_nsmul Finset.univ _ S.card hside
  rwa [Finset.card_univ, Direction.card_eq, smul_eq_mul] at hsum

/-- The key whose side in a direction a new key covers. -/
def covered (d : Direction) (key : Hash) (S : Finset Hash) : Finset Hash :=
  S.filter (· = key.next d.opposite)

/-- The new key, if it has an open side in a direction. -/
def opened (d : Direction) (key : Hash) (S : Finset Hash) : Finset Hash :=
  ({key} : Finset Hash).filter fun key => key.next d ∉ S

theorem next_of_mem_covered (hlen : key.length ≤ maxLength) (hkey : key ∉ S) {before : Hash}
    (h : before ∈ covered d key S) : before ∈ S ∧ before.next d = key := by
  obtain ⟨hbefore, rfl⟩ := Finset.mem_filter.mp h
  have hback := Hash.next_opposite hlen fun heq => hkey (heq ▸ hbefore)
  rw [d.opposite_opposite] at hback
  exact ⟨hbefore, hback⟩

theorem covered_subset (hlen : key.length ≤ maxLength) (hkey : key ∉ S) :
    covered d key S ⊆ bare d S := by
  intro before hbefore
  obtain ⟨hbefore, hnext⟩ := next_of_mem_covered hlen hkey hbefore
  exact mem_bare.mpr ⟨hbefore, .inl (by rwa [hnext])⟩

theorem bare_insert_subset (hlen : key.length ≤ maxLength) (hkey : key ∉ S) :
    bare d (insert key S) ⊆ (bare d S \ covered d key S) ∪ opened d key S := by
  intro k hk
  obtain ⟨hk, hbare⟩ := mem_bare.mp hk
  rw [Finset.mem_union]
  rcases Finset.mem_insert.mp hk with rfl | hkS
  · have hnext : k.next d ∉ S := by
      rcases hbare with hnot | hself
      · exact fun hmem => hnot (Finset.mem_insert_of_mem hmem)
      · rwa [hself]
    exact .inr (Finset.mem_filter.mpr ⟨Finset.mem_singleton_self k, hnext⟩)
  · refine .inl (Finset.mem_sdiff.mpr ⟨mem_bare.mpr ⟨hkS, ?_⟩, fun hcovered => ?_⟩)
    · exact hbare.imp_left fun hnot hmem => hnot (Finset.mem_insert_of_mem hmem)
    · obtain ⟨-, rfl⟩ := next_of_mem_covered hlen hkey hcovered
      rcases hbare with hnot | hself
      · exact hnot (Finset.mem_insert_self _ S)
      · rw [hself] at hkey
        exact hkey hkS

/-- The directions in which a key has a neighbour in the set. -/
def sides (key : Hash) (S : Finset Hash) : Finset Direction :=
  Finset.univ.filter fun d => key.next d ∈ S

theorem sum_card_covered (key : Hash) (S : Finset Hash) :
    ∑ d, (covered d key S).card = (sides key S).card := by
  have hside : ∀ d : Direction, (covered d key S).card =
      if key.next d.opposite ∈ S then 1 else 0 := fun d => by
    rw [covered, Finset.filter_eq']
    split <;> rfl
  have hopposite := Equiv.sum_comp (Function.Involutive.toPerm _ Direction.opposite_opposite)
    fun d => if key.next d ∈ S then 1 else 0
  rw [sides, Finset.card_filter, ← hopposite]
  exact Finset.sum_congr rfl fun d _ => hside d

theorem sum_card_opened (key : Hash) (S : Finset Hash) :
    (∑ d, (opened d key S).card) + (sides key S).card = 4 := by
  have hside : ∀ d : Direction, (opened d key S).card = if key.next d ∉ S then 1 else 0 := fun d => by
    rw [opened, Finset.filter_singleton]
    split <;> rfl
  have hall := Finset.card_filter_add_card_filter_not (s := Finset.univ) fun d => key.next d ∈ S
  rw [Finset.card_univ, Direction.card_eq, add_comm] at hall
  rw [Finset.sum_congr rfl fun d _ => hside d, ← Finset.card_filter]
  exact hall

/-- **A new key with two neighbours in the set does not add to the perimeter.** -/
theorem perimeter_insert_le (hlen : key.length ≤ maxLength) (hkey : key ∉ S) {d₁ d₂ : Direction}
    (hne : d₁ ≠ d₂) (h₁ : key.next d₁ ∈ S) (h₂ : key.next d₂ ∈ S) :
    perimeter (insert key S) ≤ perimeter S := by
  have hside : ∀ d : Direction, (bare d (insert key S)).card + (covered d key S).card ≤
      (bare d S).card + (opened d key S).card := fun d => by
    have hbare := Finset.card_le_card (bare_insert_subset (d := d) hlen hkey)
    have hunion := Finset.card_union_le (bare d S \ covered d key S) (opened d key S)
    have hsdiff := Finset.card_sdiff_add_card_eq_card (covered_subset (d := d) hlen hkey)
    omega
  have hsum := Finset.sum_le_sum fun d (_ : d ∈ Finset.univ) => hside d
  rw [Finset.sum_add_distrib, Finset.sum_add_distrib, sum_card_covered] at hsum
  have hopened := sum_card_opened key S
  have htwo : 1 < (sides key S).card := Finset.one_lt_card.mpr
    ⟨d₁, Finset.mem_filter.mpr ⟨Finset.mem_univ d₁, h₁⟩,
      d₂, Finset.mem_filter.mpr ⟨Finset.mem_univ d₂, h₂⟩, hne⟩
  unfold perimeter
  omega

/-! ## 3. The room within a perimeter -/

/-- Keys of `n` digits. -/
def AllOfLength (n : Nat) (S : Finset Hash) : Prop := ∀ key ∈ S, key.length = n

/-- **Each line of the set has an open side at its end.** -/
theorem card_positions_le_bare (hmax : n ≤ maxLength) (hS : AllOfLength n S) {x : Axis}
    (hx : x ≠ d.axis) : (S.image (Hash.position x)).card ≤ (bare d S).card := by
  suffices hends : S.image (Hash.position x) ⊆ (bare d S).image (Hash.position x) from
    (Finset.card_le_card hends).trans Finset.card_image_le
  intro line hline
  obtain ⟨key, hkey, rfl⟩ := Finset.mem_image.mp hline
  -- the last key of the line of this one
  obtain ⟨last, hlast, hfurthest⟩ := Finset.exists_max_image
    (S.filter fun k => k.position x = key.position x) (Hash.progress d)
    ⟨key, Finset.mem_filter.mpr ⟨hkey, rfl⟩⟩
  obtain ⟨hlastS, hlastLine⟩ := Finset.mem_filter.mp hlast
  have hlen : last.length ≤ maxLength := (hS last hlastS).le.trans hmax
  refine Finset.mem_image.mpr ⟨last, mem_bare.mpr ⟨hlastS, ?_⟩, hlastLine⟩
  by_contra hinner
  obtain ⟨hnext, hmoves⟩ := not_or.mp hinner
  have hnextLine := (Hash.position_next_other hlen hx).trans hlastLine
  exact absurd (Hash.progress_lt_next hlen hmoves)
    (hfurthest _ (Finset.mem_filter.mpr ⟨not_not.mp hnext, hnextLine⟩)).not_gt

/-- There are no more keys than crossings of their rows and columns. -/
theorem card_le_mul_positions (hmax : n ≤ maxLength) (hS : AllOfLength n S) :
    S.card ≤ (S.image (Hash.position .latitude)).card * (S.image (Hash.position .longitude)).card := by
  rw [← Finset.card_product]
  refine Finset.card_le_card_of_injOn (fun key => (key.position .latitude, key.position .longitude))
    (fun key hkey => Finset.mem_product.mpr
      ⟨Finset.mem_image_of_mem _ hkey, Finset.mem_image_of_mem _ hkey⟩) ?_
  intro key hkey key' hkey' heq
  obtain ⟨hlatitude, hlongitude⟩ := Prod.mk.inj heq
  refine Hash.eq_of_position ((hS key' hkey').le.trans hmax)
    ((hS key hkey).trans (hS key' hkey').symm) fun x => ?_
  cases x with
  | latitude => exact hlatitude
  | longitude => exact hlongitude

/-- **The perimeter bounds the number of keys.** -/
theorem card_le_of_perimeter_le (hmax : n ≤ maxLength) (hS : AllOfLength n S) {r : Nat}
    (h : perimeter S ≤ 4 * r) : S.card ≤ r * r := by
  have hroom := card_le_mul_positions hmax hS
  have htop := card_positions_le_bare (d := .top) hmax hS (x := .longitude) (by decide)
  have hbottom := card_positions_le_bare (d := .bottom) hmax hS (x := .longitude) (by decide)
  have hleft := card_positions_le_bare (d := .left) hmax hS (x := .latitude) (by decide)
  have hright := card_positions_le_bare (d := .right) hmax hS (x := .latitude) (by decide)
  have hsides : perimeter S = (bare .top S).card + ((bare .bottom S).card +
      ((bare .left S).card + (bare .right S).card)) := rfl
  generalize (S.image (Hash.position .latitude)).card = rows at hroom hleft hright
  generalize (S.image (Hash.position .longitude)).card = columns at hroom htop hbottom
  have hhalf : rows + columns ≤ 2 * r := by omega
  have hsquare : 4 * (rows * columns) ≤ 4 * (r * r) := calc
    4 * (rows * columns) = 4 * rows * columns := (Nat.mul_assoc 4 rows columns).symm
    _ ≤ (rows + columns) ^ 2 := four_mul_le_sq_add rows columns
    _ ≤ (2 * r) ^ 2 := Nat.pow_le_pow_left hhalf 2
    _ = 4 * (r * r) := by ring
  exact hroom.trans (Nat.le_of_mul_le_mul_left hsquare (by decide))

end Filling

/-! ## 4. The run -/

namespace CellMap

variable {m : CellMap} {key : Hash}

/-- The keys as a finite set. -/
def keyFinset (m : CellMap) : Finset Hash := m.keys.toFinset

theorem mem_keyFinset : key ∈ m.keyFinset ↔ m.contains key = true :=
  List.mem_toFinset.trans mem_keys

theorem card_keyFinset (m : CellMap) : m.keyFinset.card = m.size :=
  (List.toFinset_card_of_nodup Std.ExtTreeMap.nodup_keys).trans Std.ExtTreeMap.length_keys

end CellMap

namespace Filling

variable {n : Nat} {cells : CellMap}

theorem keyFinset_insert (m : CellMap) (c : Cell) :
    (m.insert c).keyFinset = insert c.key m.keyFinset := by
  ext key
  rw [CellMap.mem_keyFinset, Finset.mem_insert, CellMap.mem_keyFinset, CellMap.contains_insert,
    eq_comm]

/-- **A look does not add to the perimeter.** -/
theorem perimeter_look_le {site : Site} (hsite : site.Short) (pass : Nat) (p : Progress) :
    perimeter (look pass p site).cells.keyFinset ≤ perimeter p.cells.keyFinset := by
  by_cases hready : Ready p.cells site.target
  · have hlen : site.target.length ≤ maxLength := (Hash.length_next hsite _).le.trans hsite
    have hnew : site.target ∉ p.cells.keyFinset := fun hmem => by
      rw [CellMap.mem_keyFinset, hready.1] at hmem
      cases hmem
    obtain ⟨d₁, d₂, hne, h₁, h₂⟩ := needed_le_surroundings_iff.mp hready.2
    rw [look, if_pos hready, keyFinset_insert]
    exact perimeter_insert_le hlen hnew hne (CellMap.mem_keyFinset.mpr h₁)
      (CellMap.mem_keyFinset.mpr h₂)
  · rw [look, if_neg hready]

/-- **Nor does all of filling.** -/
theorem perimeter_fill_le (cells : CellMap) (passes : Nat) :
    perimeter (fill cells passes).cells.keyFinset ≤ perimeter cells.keyFinset :=
  fill_induction (Q := fun m => perimeter m.keyFinset ≤ perimeter cells.keyFinset)
    (fun pass p _ hsite _ hp => (perimeter_look_le hsite pass p).trans hp) le_rfl passes

theorem size_fill_le (hmax : n ≤ maxLength) (h : cells.Uniform n) (passes : Nat) :
    (fill cells passes).cells.size ≤ cells.size * cells.size := by
  have huniform : (fill cells passes).cells.Uniform n := fill_uniform h passes
  have hlengths : AllOfLength n (fill cells passes).cells.keyFinset :=
    fun key hkey => huniform key (CellMap.mem_keyFinset.mp hkey)
  have hperimeter : perimeter (fill cells passes).cells.keyFinset ≤ 4 * cells.size := by
    rw [← cells.card_keyFinset]
    exact (perimeter_fill_le cells passes).trans (perimeter_le cells.keyFinset)
  rw [← CellMap.card_keyFinset]
  exact card_le_of_perimeter_le hmax hlengths hperimeter

/-- The passes that fill anything fill a cell each. -/
theorem countP_ne_zero_le_sum (created : List Nat) : created.countP (· ≠ 0) ≤ created.sum := by
  induction created with
  | nil => exact le_rfl
  | cons n created ih =>
    by_cases hzero : n = 0
    · rw [List.countP_cons_of_neg (by simpa using hzero), List.sum_cons]
      exact ih.trans (Nat.le_add_left _ n)
    · rw [List.countP_cons_of_pos (by simpa using hzero), List.sum_cons]
      omega

/-- Where passes are idle from the first idle one on, and there is one, the last is idle. -/
theorem getLast?_of_idle {created : List Nat} (h : ∀ n ∈ created.dropWhile (· ≠ 0), n = 0)
    (hidle : created.countP (· ≠ 0) < created.length) : created.getLast? = some 0 := by
  obtain ⟨busy, hsplit⟩ := created.dropWhile_suffix (· ≠ 0)
  have hsome : created.dropWhile (· ≠ 0) ≠ [] := fun hnil => by
    have hbusy := List.countP_eq_length.mpr (List.dropWhile_eq_nil_iff.mp hnil)
    exact absurd hidle hbusy.ge.not_gt
  rw [← hsplit, List.getLast?_append_of_ne_nil _ hsome, List.getLast?_eq_some_getLast hsome]
  exact congrArg some (h _ (List.getLast_mem hsome))

/-- **Filling is bounded by the square of the cells there are**, in whatever number of passes: `n` cells
with keys of one length become at most `n * n`, at most `n * n - n` passes fill any cell, and when there
are more passes the last one has filled none.  The counts of the run are what is reported, unless the
passes are too many for a report. -/
theorem filled_at_most_square (hmax : n ≤ maxLength) (h : cells.Uniform n) (passes : Nat) :
    (fill cells passes).cells.size ≤ cells.size * cells.size ∧
      (fill cells passes).cells = (run passes 0 cells).cells ∧
      ∃ created, (run passes 0 cells).created = .ok created ∧ created.length = passes ∧
        created.countP (· ≠ 0) ≤ cells.size * cells.size - cells.size ∧
        (cells.size * cells.size - cells.size < passes → created.getLast? = some 0) ∧
        (fill cells passes).created =
          if longestReport < passes then .error (.overflow "report of the passes")
          else .ok created := by
  have hsize := size_fill_le hmax h passes
  obtain ⟨created, hcreated, hlength⟩ := run_isOk (uniform_short h hmax) passes 0
  obtain ⟨added, hgrown, hreport⟩ := run_grownBy hcreated
  have hbusy : created.countP (· ≠ 0) ≤ cells.size * cells.size - cells.size := by
    have hadded := hgrown.size
    rw [← fill_cells] at hadded
    have htotal := hreport.total
    have hpositive := countP_ne_zero_le_sum created
    omega
  refine ⟨hsize, fill_cells cells passes, created, hcreated, hlength, hbusy, fun hmore => ?_,
    fill_created_of_run hcreated⟩
  exact getLast?_of_idle hreport.idle (by omega)

/-- The bound is attained: three cells on a diagonal become nine.  Of seven passes two fill cells, and
the last is idle.  Of 2^64 - 1 passes the last is idle as well, but there is no report. -/
theorem filled_square_diagonal :
    1 ≤ maxLength ∧ diagonal.Uniform 1 ∧ diagonal.size = 3 ∧ (fill diagonal 7).cells.size = 3 * 3 ∧
      (fill diagonal 7).created = .ok [4, 2, 0, 0, 0, 0, 0] ∧ 3 * 3 - 3 < 7 ∧
      [4, 2, 0, 0, 0, 0, 0].getLast? = some 0 ∧
      (∃ created, (run 0xffffffffffffffff 0 diagonal).created = .ok created ∧
        created.getLast? = some 0) ∧
      (fill diagonal 0xffffffffffffffff).created = .error (.overflow "report of the passes") := by
  have hthree : diagonal.size = 3 := by decide +kernel
  have hruns : (fill diagonal 7).cells.size = 3 * 3 ∧
      (fill diagonal 7).created = .ok [4, 2, 0, 0, 0, 0, 0] := by decide +kernel
  obtain ⟨-, -, created, -, -, -, hlast, hcreated⟩ :=
    filled_at_most_square (by decide) diagonal_uniform 7
  obtain ⟨-, -, counts, hcounts, -, -, hidle, hover⟩ :=
    filled_at_most_square (by decide) diagonal_uniform 0xffffffffffffffff
  rw [hruns.2] at hcreated
  cases hcreated
  rw [hthree] at hlast hidle
  exact ⟨by decide, diagonal_uniform, hthree, hruns.1, hruns.2, by decide, hlast (by decide),
    ⟨counts, hcounts, hidle (by decide)⟩, hover⟩

end Filling

end Barogrid
