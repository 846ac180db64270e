import Mathlib
import Barogrid.Proofs.Geohash.Translation
import Barogrid.Proofs.Yields

/-!
# Walks

A walk goes from neighbour to neighbour.  Along each axis it moves the index of the cell, and only by
the steps along this axis, so it does not matter how the steps along the two axes alternate -- not even
where some of them are lost at the edges of the globe.

* `Direction.carried_filter` -- only the steps along an axis count for the index there;
* `Hash.at_after` -- **a walk is a row of clamped translations**, by induction on its steps;
* `Hash.after_congr` -- so its end depends on the steps along the one axis and on those along the other;
* `Hash.next_next_opposite_iff` -- **the way back leads back exactly if there was a step**;
* `walks_commute` -- what this means for texts.
-/

namespace Barogrid.Geohash

/-! ## 1. The index along an axis -/

namespace Direction

/-- The cell that a row of steps from the cell with index `i` leads to, on an axis of `n` cells. -/
def carried (ds : List Direction) (x : Axis) (n i : Nat) : Nat :=
  ds.foldl (fun i d => d.moved x n i) i

/-- Only the steps along the axis count. -/
theorem carried_filter (ds : List Direction) (x : Axis) (n i : Nat) :
    carried (ds.filter fun d => d.axis = x) x n i = carried ds x n i := by
  induction ds generalizing i with
  | nil => rfl
  | cons d ds ih =>
    by_cases haxis : d.axis = x
    · rw [List.filter_cons_of_pos (by simpa using haxis)]
      exact ih (d.moved x n i)
    · -- a step along the other axis leaves the index as it is
      rw [List.filter_cons_of_neg (by simpa using haxis), ih]
      show carried ds x n i = carried ds x n (d.moved x n i)
      rw [moved_other (Ne.symm haxis)]

end Direction

/-! ## 2. The end of a walk -/

namespace Hash

variable {h : Hash} {ds ds' : List Direction} {d : Direction} {x : Axis} {i : Nat}

/-- The cell where a walk ends. -/
def after (h : Hash) (ds : List Direction) : Hash := ds.foldl next h

theorem length_after (hlen : h.length ≤ maxLength) (ds : List Direction) :
    (h.after ds).length = h.length := by
  induction ds generalizing h with
  | nil => rfl
  | cons d ds ih =>
    have hsame := length_next hlen d
    exact (ih (hsame.le.trans hlen)).trans hsame

/-- **A walk is a row of clamped translations.** -/
theorem at_after (hlen : h.length ≤ maxLength) (hi : h.At x i) (ds : List Direction) :
    (h.after ds).At x (Direction.carried ds x (2 ^ level h.length x) i) := by
  induction ds generalizing h i with
  | nil => exact hi
  | cons d ds ih =>
    have hsame := length_next hlen d
    have hnext := adjacent_at hlen (adjacent_eq_next hlen d) hi
    have hend := ih (hsame.le.trans hlen) hnext
    rw [hsame] at hend
    exact hend

/-- **Where a walk ends depends only on its steps along each axis.** -/
theorem after_congr (hlen : h.length ≤ maxLength)
    (hsteps : ∀ x, (ds.filter fun d => d.axis = x) = ds'.filter fun d => d.axis = x) :
    h.after ds = h.after ds' := by
  have hend := length_after hlen ds
  have hend' := length_after hlen ds'
  refine eq_of_at (hend'.le.trans hlen) (hend.trans hend'.symm) fun x => ?_
  obtain ⟨i, hi⟩ := h.exists_at hlen x
  have hat := at_after hlen hi ds
  rw [← Direction.carried_filter, hsteps x, Direction.carried_filter] at hat
  exact ⟨_, at_after hlen hi ds', hat⟩

theorem adjacent_text (hlen : h.length ≤ maxLength) (d : Direction) :
    Geohash.adjacent h.text d = .ok (h.next d) :=
  (adjacent_of_parse h.parse_text d).trans (adjacent_eq_next hlen d)

/-- **Every walk from a key succeeds.** -/
theorem walk_isOk (hlen : h.length ≤ maxLength) (ds : List Direction) :
    ∃ met, walk h.text ds = .ok met ∧ (met.map text).getLastD h.text = (h.after ds).text := by
  induction ds generalizing h with
  | nil => exact ⟨[], rfl, rfl⟩
  | cons d ds ih =>
    obtain ⟨met, hmet, hlast⟩ := ih ((length_next hlen d).le.trans hlen)
    refine ⟨h.next d :: met, ?_, ?_⟩
    · unfold walk
      rw [adjacent_text hlen]
      show (walk (h.next d).text ds >>= fun met => pure (h.next d :: met)) = _
      rw [hmet]
      rfl
    · rw [List.map_cons, List.getLastD_cons]
      exact hlast

/-! ## 3. There and back -/

/-- On an axis there are at least four cells. -/
theorem two_le_level (h : Hash) (x : Axis) : 2 ≤ level h.length x := by
  have hpos := h.length_pos
  cases x with
  | latitude =>
    show 2 ≤ 5 * h.length / 2
    omega
  | longitude =>
    show 2 ≤ (5 * h.length + 1) / 2
    omega

theorem next_eq_self_iff (hlen : h.length ≤ maxLength) : h.next d = h ↔ d.AtEdge h.bounds := by
  obtain ⟨i, hi⟩ := h.exists_at hlen d.axis
  exact (adjacent_eq_self_iff hlen (adjacent_eq_next hlen d) hi).trans (atEdge_iff_moved hlen hi).symm

/-- No cell reaches from one edge of the globe to the other. -/
theorem not_atEdge_opposite (hlen : h.length ≤ maxLength) (hedge : d.AtEdge h.bounds) :
    ¬ d.opposite.AtEdge h.bounds := by
  obtain ⟨i, hi⟩ := h.exists_at hlen d.axis
  have hi' : h.At d.opposite.axis i := d.axis_opposite.symm ▸ hi
  have hcells : 2 ^ 2 ≤ 2 ^ level h.length d.axis :=
    Nat.pow_le_pow_right (by decide) (h.two_le_level d.axis)
  rw [atEdge_iff_moved hlen hi, d.moved_axis] at hedge
  rw [atEdge_iff_moved hlen hi', Direction.moved_axis, d.axis_opposite, d.upward_opposite]
  cases hup : d.upward <;> simp only [hup, Bool.not_true, Bool.not_false, Bool.false_eq_true,
    ↓reduceIte] at hedge ⊢ <;> omega

/-- **The way back leads back exactly if there was a step.** -/
theorem next_next_opposite_iff (hlen : h.length ≤ maxLength) :
    (h.next d).next d.opposite = h ↔ ¬ d.AtEdge h.bounds := by
  constructor
  · intro hback hedge
    rw [(next_eq_self_iff hlen).mpr hedge] at hback
    exact not_atEdge_opposite hlen hedge ((next_eq_self_iff hlen).mp hback)
  · intro hedge
    exact next_opposite hlen (mt (next_eq_self_iff hlen).mp hedge)

end Hash

/-! ## 4. Texts -/

/-- **Walks are independent of the order of the axes, and steps that are not lost can be taken back.**
From a key of one to twelve digits, walks with the same steps north and south and the same steps east
and west succeed and end in one cell.  A step leads back in the opposite direction exactly if the cell
is not at the edge there, and the neighbours differ, but for those that are the cell itself. -/
theorem walks_commute {n : Nat} {s : String} (hs : IsKey n s) (hn : 1 ≤ n) (hmax : n ≤ 12) :
    (∀ ds ds' : List Direction,
      (ds.filter fun d => d.axis = .latitude) = (ds'.filter fun d => d.axis = .latitude) →
      (ds.filter fun d => d.axis = .longitude) = (ds'.filter fun d => d.axis = .longitude) →
      ∃ met met', walk s ds = .ok met ∧ walk s ds' = .ok met' ∧
        (met.map Hash.text).getLastD s = (met'.map Hash.text).getLastD s) ∧
    ∃ b next, decode s = .ok b ∧ neighbors s = .ok (Direction.all.map next) ∧
      ∀ d, adjacent s d = .ok (next d) ∧ ((next d).text = s ↔ d.AtEdge b) ∧
        (∃ back, adjacent (next d).text d.opposite = .ok back ∧ (back.text = s ↔ ¬ d.AtEdge b)) ∧
        ∀ d', d ≠ d' → next d = next d' → d.AtEdge b ∧ d'.AtEdge b := by
  obtain ⟨h, rfl, rfl⟩ := hs.exists_hash hn
  refine ⟨fun ds ds' hlatitude hlongitude => ?_, h.bounds, h.next, decode_text h, ?_, fun d => ?_⟩
  · obtain ⟨met, hmet, hlast⟩ := Hash.walk_isOk hmax ds
    obtain ⟨met', hmet', hlast'⟩ := Hash.walk_isOk hmax ds'
    refine ⟨met, met', hmet, hmet', ?_⟩
    rw [hlast, hlast', Hash.after_congr hmax (Axis.forall_iff.mpr ⟨hlatitude, hlongitude⟩)]
  · exact mapM_eq_ok fun d _ => Hash.adjacent_text hmax d
  · have htext : ∀ {k : Hash}, k.text = h.text ↔ k = h :=
      ⟨Hash.text_injective, congrArg Hash.text⟩
    refine ⟨Hash.adjacent_text hmax d, htext.trans (Hash.next_eq_self_iff hmax),
      ⟨(h.next d).next d.opposite, ?_, htext.trans (Hash.next_next_opposite_iff hmax)⟩, ?_⟩
    · exact Hash.adjacent_text ((Hash.length_next hmax d).le.trans hmax) d.opposite
    · intro d' hne heq
      have hself : h.next d = h := by
        by_contra hmoves
        exact hne (Hash.next_injective hmax heq hmoves)
      exact ⟨(Hash.next_eq_self_iff hmax).mp hself, (Hash.next_eq_self_iff hmax).mp (heq ▸ hself)⟩

/-- In the northeastern corner of the globe, where the step north is lost. -/
theorem corner_walks : ∃ met met', walk "zzz" [.top, .left, .bottom] = .ok met ∧
    walk "zzz" [.left, .top, .bottom] = .ok met' ∧
    met.map Hash.text = ["zzz", "zzy", "zzw"] ∧ met'.map Hash.text = ["zzy", "zzy", "zzw"] ∧
    (met.map Hash.text).getLastD "zzz" = (met'.map Hash.text).getLastD "zzz" := by
  have hdigits : ∀ c ∈ "zzz".toList, c ∈ alphabet := by
    rw [← List.all_iff_forall_prop]
    decide
  obtain ⟨hwalks, -⟩ := walks_commute (n := 3) ⟨rfl, hdigits⟩ (by decide) (by decide)
  obtain ⟨met, met', hmet, hmet', hlast⟩ := hwalks [.top, .left, .bottom] [.left, .top, .bottom]
    (by decide) (by decide)
  have hnorth : (walk "zzz" [.top, .left, .bottom]).toOption.map (List.map Hash.text) =
      some ["zzz", "zzy", "zzw"] := by decide +kernel
  have hwest : (walk "zzz" [.left, .top, .bottom]).toOption.map (List.map Hash.text) =
      some ["zzy", "zzy", "zzw"] := by decide +kernel
  rw [hmet] at hnorth
  rw [hmet'] at hwest
  exact ⟨met, met', hmet, hmet', Option.some.inj hnorth, Option.some.inj hwest, hlast⟩

end Barogrid.Geohash
