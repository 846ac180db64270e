import Mathlib
import Barogrid.Proofs.Grid.Corroboration
import Barogrid.Proofs.Grid.History
import Barogrid.Proofs.Rendering

/-!
# The picture shows the visible readings

Between the readings and the picture stand the cells into which the readings fall and the cells
filled in between.  Nothing is lost or counted twice on the way:

* `bin_sound`, `fill_of_observed` -- each observed cell of the filled map is one that binning has
  made, and has all the readings with its key;
* `Picture.Faithful` -- what a picture has to be for readings that are visible: cells that lie apart,
  listed by key, each reading in exactly one of them, and no observed cell without a reading;
* `Rendering.picture_faithful` -- **the picture of every rendering with valid settings is faithful.**
-/

namespace Barogrid

open Geohash (Hash)

variable {n : Nat} {seen : List Reading} {m : CellMap} {key : Hash} {c : Cell}

/-! ## 1. Observed cells -/

theorem CellMap.map_key_cells (h : m.Sound) : m.cells.map Cell.key = m.keys := by
  have hkeys : m.keys = m.byKey.toList.map Prod.fst := Std.ExtTreeMap.map_fst_toList_eq_keys.symm
  rw [hkeys, cells_eq, List.map_map]
  refine List.map_congr_left fun ⟨key, c⟩ hmem => ?_
  exact (h key c (mem_toList.mp hmem)).1

theorem Binning.bin_sound (h : bin seen n = .ok m) : m.Sound := by
  intro key c hc
  obtain ⟨hne, rfl⟩ := (get?_bin h).mp hc
  exact ⟨rfl, Cell.observed_sound (observed_eq_ok key hne)⟩

namespace Filling

variable {passes : Nat}

/-- Filling makes no observed cell. -/
theorem fill_of_observed (hshort : Short m) (hc : (fill m passes).cells.get? key = some c)
    (hobserved : c.isFilled = false) : m.get? key = some c := by
  obtain hold | ⟨k, -, htag, -⟩ := fill_get?_cases hshort hc
  · exact hold
  · obtain ⟨key', bounds, average, origin⟩ := c
    cases origin with
    | observed readings => cases htag
    | filled pass => cases hobserved

/-- The cells that filling reports are the filled ones, where there were none before. -/
theorem countP_isFilled {counts : List Nat} (hok : (fill m passes).created = .ok counts)
    (hm : ∀ c ∈ m.cells, c.isFilled = false) :
    (fill m passes).cells.cells.countP Cell.isFilled = counts.sum := by
  obtain ⟨added, hgrown, hreport⟩ := fill_grownBy hok
  have hold : m.cells.countP Cell.isFilled = 0 := by
    rw [List.countP_eq_zero]
    intro c hc
    simp [hm c hc]
  have hnew : added.countP Cell.isFilled = added.length := by
    rw [List.countP_eq_length]
    intro c hc
    obtain ⟨k, -, htag⟩ := hreport.tags c hc
    obtain ⟨key', bounds, average, origin⟩ := c
    cases origin with
    | observed readings => cases htag
    | filled pass => rfl
  rw [hgrown.cells.countP_eq, List.countP_append, hold, hnew, Nat.add_zero, hreport.total]

end Filling

/-! ## 2. Faithful pictures -/

/-- **The picture shows the readings `seen` in cells with keys of `n` digits.** -/
structure Picture.Faithful (p : Picture) (n : Nat) (seen : List Reading) : Prop where
  blank : p.cells = [] ↔ seen = []
  summary : p.summary =
    if seen = [] then none else some (Statistics.summaryOf (seen.map Reading.value))
  ascending : (p.cells.map fun d => d.key.text).Pairwise (· < ·)
  length : ∀ d ∈ p.cells, d.key.length = n
  bounds : ∀ d ∈ p.cells, Geohash.decode d.key.text = .ok d.bounds
  apart : p.cells.Pairwise fun d d' => d.bounds.Apart d'.bounds
  shown : ∀ r ∈ seen, ∃ d ∈ p.cells, Geohash.encode r.place n = .ok d.key ∧ d.isFilled = false ∧
    d.bounds.contains r.place = true ∧
    ∀ d' ∈ p.cells, Geohash.encode r.place n = .ok d'.key → d' = d
  observed : ∀ d ∈ p.cells, d.isFilled = false →
    (∃ r ∈ seen, Geohash.encode r.place n = .ok d.key) ∧
    Statistics.median ((Binning.under n seen d.key).map Reading.value) = .ok d.average

/-- Where no reading is visible, nothing is what is to be drawn. -/
theorem Picture.blank_faithful (n : Nat) : ({} : Picture).Faithful n [] where
  blank := by simp
  summary := by simp
  ascending := List.Pairwise.nil
  length := by simp
  bounds := by simp
  apart := List.Pairwise.nil
  shown := by simp
  observed := by simp

/-- Every cell has the color and the opacity that its value, the summary and the settings ask for. -/
def Picture.Colored [Exponential] (p : Picture) (s : Settings) (gradient : Gradient) : Prop :=
  ∀ d ∈ p.cells, ∃ summary, p.summary = some summary ∧
    d.normalized = Choropleth.normalize d.average summary.median summary.stdev ∧
    d.color = gradient.colorAt (Binary64.ofNat d.normalized) ∧ d.opacity = s.opacity

namespace Rendering

section

variable [Exponential] {s : Settings} {gradient : Gradient} {r : Rendering} {counts : List Nat}

namespace Stages

variable (h : r.Stages seen s gradient m counts)

include h

theorem sound : (Filling.fill m s.passes).cells.Sound :=
  Filling.fill_sound (Binning.bin_sound h.binned) s.passes

/-- A cell is drawn exactly when it is a cell of the filled map. -/
theorem mem_cells {d : DrawnCell} : d ∈ r.picture.cells ↔
    ∃ c, (Filling.fill m s.passes).cells.get? c.key = some c ∧
      Choropleth.draw (Statistics.summaryOf (seen.map Reading.value)) gradient s.opacity c = d := by
  rw [h.picture, List.mem_map]
  refine exists_congr fun c => and_congr_left fun _ => ?_
  rw [CellMap.mem_cells]
  constructor
  · rintro ⟨key, hc⟩
    rw [(h.sound key c hc).1]
    exact hc
  · intro hc
    exact ⟨c.key, hc⟩

theorem short (hlen : r.keyLength ≤ Geohash.maxLength) : Filling.Short m :=
  Filling.uniform_short (Binning.bin_uniform h.binned) hlen

/-- Every key drawn is as long as the keys of the rendering. -/
theorem key_length {d : DrawnCell} (hd : d ∈ r.picture.cells) : d.key.length = r.keyLength := by
  obtain ⟨c, hc, rfl⟩ := h.mem_cells.mp hd
  exact Filling.fill_uniform (Binning.bin_uniform h.binned) s.passes c.key
    (CellMap.contains_iff.mpr ⟨c, hc⟩)

theorem bounds {d : DrawnCell} (hd : d ∈ r.picture.cells) : d.bounds = d.key.bounds := by
  obtain ⟨c, hc, rfl⟩ := h.mem_cells.mp hd
  have hdecode := (h.sound c.key c hc).2.bounds
  rw [Geohash.decode_text] at hdecode
  exact (Except.ok.inj hdecode).symm

theorem ascending : (r.picture.cells.map fun d => d.key.text).Pairwise (· < ·) := by
  have hkeys : r.picture.cells.map (fun d => d.key.text) =
      (Filling.fill m s.passes).cells.keys.map Hash.text := by
    rw [← CellMap.map_key_cells h.sound, h.picture, List.map_map, List.map_map]
    rfl
  rw [hkeys]
  exact CellMap.keys_ascending _

theorem apart (hlen : r.keyLength ≤ Geohash.maxLength) :
    r.picture.cells.Pairwise fun d d' => d.bounds.Apart d'.bounds := by
  have hascending := List.pairwise_map.mp h.ascending
  refine hascending.imp_of_mem fun {d d'} hd hd' hlt => ?_
  have hd₁ := h.key_length hd
  have hd₂ := h.key_length hd'
  rw [h.bounds hd, h.bounds hd']
  refine Hash.apart (hd₁.le.trans hlen) (hd₂.trans hd₁.symm) ?_
  intro heq
  rw [heq] at hlt
  exact absurd hlt (lt_irrefl _)

/-- **The observed cells that are drawn are the cells of the readings.** -/
theorem mem_observed (hlen : r.keyLength ≤ Geohash.maxLength) {d : DrawnCell} :
    d ∈ r.picture.cells ∧ d.isFilled = false ↔
      Binning.under r.keyLength seen d.key ≠ [] ∧
        Choropleth.draw (Statistics.summaryOf (seen.map Reading.value)) gradient s.opacity
          (Binning.observedCell d.key (Binning.under r.keyLength seen d.key)) = d := by
  constructor
  · rintro ⟨hd, hobserved⟩
    obtain ⟨c, hc, rfl⟩ := h.mem_cells.mp hd
    have hbinned := Filling.fill_of_observed (h.short hlen) hc hobserved
    obtain ⟨hne, heq⟩ := (Binning.get?_bin h.binned).mp hbinned
    exact ⟨hne, congrArg _ heq.symm⟩
  · rintro ⟨hne, heq⟩
    rw [← heq]
    refine ⟨h.mem_cells.mpr ⟨_, ?_, rfl⟩, rfl⟩
    exact Filling.fill_keeps m s.passes _ _ ((Binning.get?_bin h.binned).mpr ⟨hne, rfl⟩)

/-- One key is drawn once. -/
theorem eq_of_key {d d' : DrawnCell} (hd : d ∈ r.picture.cells) (hd' : d' ∈ r.picture.cells)
    (hkey : d.key = d'.key) : d = d' := by
  obtain ⟨c, hc, rfl⟩ := h.mem_cells.mp hd
  obtain ⟨c', hc', rfl⟩ := h.mem_cells.mp hd'
  have hkey : c.key = c'.key := hkey
  rw [hkey, hc'] at hc
  rw [Option.some.inj hc]

/-- **Each reading is shown**, in the cell of its key. -/
theorem shown (hlen : r.keyLength ≤ Geohash.maxLength) {reading : Reading} (hseen : reading ∈ seen) :
    ∃ d ∈ r.picture.cells, Geohash.encode reading.place r.keyLength = .ok d.key ∧
      d.isFilled = false ∧ d.bounds.contains reading.place = true ∧
      ∀ d' ∈ r.picture.cells, Geohash.encode reading.place r.keyLength = .ok d'.key → d' = d := by
  obtain ⟨key, hkey⟩ := Binning.bin_isOk_iff.mp ⟨m, h.binned⟩ reading hseen
  have hencode := Binning.key?_eq_some_iff.mp hkey
  have hne : Binning.under r.keyLength seen key ≠ [] :=
    List.ne_nil_of_mem (Binning.mem_under.mpr ⟨hseen, hkey⟩)
  obtain ⟨hd, hobserved⟩ := (h.mem_observed hlen (d := Choropleth.draw _ gradient s.opacity
    (Binning.observedCell key (Binning.under r.keyLength seen key)))).mpr ⟨hne, rfl⟩
  obtain ⟨hlength, howns, -⟩ := Binning.key?_owns hkey
  refine ⟨_, hd, hencode, hobserved, ?_, fun d' hd' hkey' => ?_⟩
  · exact key.contains_of_owns (hlength.le.trans hlen) howns
  · rw [hencode] at hkey'
    exact h.eq_of_key hd' hd (Except.ok.inj hkey').symm

/-- Each observed cell has the median of its readings, and there are some. -/
theorem median (hlen : r.keyLength ≤ Geohash.maxLength) {d : DrawnCell}
    (hd : d ∈ r.picture.cells) (hobserved : d.isFilled = false) :
    (∃ reading ∈ seen, Geohash.encode reading.place r.keyLength = .ok d.key) ∧
      Statistics.median ((Binning.under r.keyLength seen d.key).map Reading.value) =
        .ok d.average := by
  obtain ⟨hne, heq⟩ := (h.mem_observed hlen).mp ⟨hd, hobserved⟩
  obtain ⟨reading, hreading⟩ := List.exists_mem_of_ne_nil _ hne
  obtain ⟨hseen, hkey⟩ := Binning.mem_under.mp hreading
  refine ⟨⟨reading, hseen, Binning.key?_eq_some_iff.mp hkey⟩, ?_⟩
  have haverage : d.average =
      (Binning.observedCell d.key (Binning.under r.keyLength seen d.key)).average := by
    rw [← heq]
    rfl
  rw [haverage]
  exact Binning.median_observedCell d.key hne

theorem faithful (hlen : r.keyLength ≤ Geohash.maxLength) (hseen : seen ≠ []) :
    r.picture.Faithful r.keyLength seen where
  blank := by
    refine iff_of_false ?_ hseen
    obtain ⟨reading, hreading⟩ := List.exists_mem_of_ne_nil _ hseen
    obtain ⟨d, hd, -⟩ := h.shown hlen hreading
    exact List.ne_nil_of_mem hd
  summary := by rw [h.picture, if_neg hseen]
  ascending := h.ascending
  length := fun d hd => h.key_length hd
  bounds := fun d hd => by rw [h.bounds hd, Geohash.decode_text]
  apart := h.apart hlen
  shown := fun reading hreading => h.shown hlen hreading
  observed := fun d hd hobserved => h.median hlen hd hobserved

theorem colored : r.picture.Colored s gradient := by
  intro d hd
  obtain ⟨c, -, rfl⟩ := h.mem_cells.mp hd
  exact ⟨_, by rw [h.picture], rfl, rfl, rfl⟩

/-- The count of filled cells is that of the cells drawn as filled. -/
theorem filled_eq : r.filled = r.picture.cells.countP DrawnCell.isFilled := by
  have hobserved : ∀ c ∈ m.cells, c.isFilled = false := by
    intro c hc
    obtain ⟨key, hkey⟩ := CellMap.mem_cells.mp hc
    obtain ⟨-, rfl⟩ := (Binning.get?_bin h.binned).mp hkey
    rfl
  rw [h.filled, ← Filling.countP_isFilled h.created hobserved, h.picture, List.countP_map]
  rfl

end Stages

/-- **Every rendering with valid settings is a faithful picture of the visible readings**, which are
the well-formed ones whose value lies in the range of the settings and whose place lies in the box;
its counts are those of the readings and of the cells in it.  There is one, unless the zoom levels lie too
far apart or the passes are too many. -/
theorem picture_faithful (hvalid : s.validate = .ok ()) (readings : List Reading) (v : Viewport)
    (gradient : Gradient) :
    (s.ZoomFits → ¬ Overlong readings v s → ∃ r, of readings v s gradient = .ok r) ∧
    ∀ r, of readings v s gradient = .ok r → s.minLength ≤ r.keyLength ∧
      r.keyLength ≤ s.maxLength ∧
      r.picture.Faithful r.keyLength (readings.filter (Selection.Shows s v.box)) ∧
      r.picture.Colored s gradient ∧
      r.visible = (readings.filter (Selection.Shows s v.box)).length ∧
      r.filled = r.picture.cells.countP DrawnCell.isFilled := by
  have hs := Settings.validate_eq_ok_iff.mp hvalid
  refine ⟨fun hfits hshort => ?_, fun r hr => ?_⟩
  · obtain ⟨r, hr, -⟩ := of_yields hs hfits hshort gradient
    exact ⟨r, hr⟩
  obtain ⟨hkey, hstages⟩ := of_cases hr
  obtain ⟨hmin, hmax⟩ := Resolution.keyLength_within hs hkey
  refine ⟨hmin, hmax, ?_⟩
  have hlen := hmax.trans hs.maxLength_le
  rw [Selection.visible_eq_filter] at hstages
  generalize readings.filter (Selection.Shows s v.box) = seen at hstages ⊢
  rcases hstages with ⟨rfl, hblank⟩ | ⟨hseen, m, counts, h⟩
  · rw [hblank]
    exact ⟨Picture.blank_faithful _, fun d hd => absurd hd List.not_mem_nil, rfl, rfl⟩
  · exact ⟨h.faithful hlen hseen, h.colored, h.visible, h.filled_eq⟩

end

/-- Two readings on both sides of the antimeridian, in a box that goes over it, and one that lies
outside. -/
theorem antimeridian_faithful :
    ({} : Settings).validate = .ok () ∧
    ∃ r, @of Exponential.hardware
        [⟨⟨0.5, 179.5⟩, 1010, 0⟩, ⟨⟨0.5, -179.5⟩, 1020, 0⟩, ⟨⟨0.5, 0⟩, 1030, 0⟩]
        ⟨⟨170, -20, -170, 20⟩, 3⟩ {} .standard = .ok r ∧
      r.picture.Faithful r.keyLength [⟨⟨0.5, 179.5⟩, 1010, 0⟩, ⟨⟨0.5, -179.5⟩, 1020, 0⟩] ∧
      r.visible = 2 := by
  have hvalid : ({} : Settings).validate = .ok () := by rfl
  have hvisible : [(⟨⟨0.5, 179.5⟩, 1010, 0⟩ : Reading), ⟨⟨0.5, -179.5⟩, 1020, 0⟩,
      ⟨⟨0.5, 0⟩, 1030, 0⟩].filter (Selection.Shows {} ⟨170, -20, -170, 20⟩) =
      [⟨⟨0.5, 179.5⟩, 1010, 0⟩, ⟨⟨0.5, -179.5⟩, 1020, 0⟩] := by decide +kernel
  refine ⟨hvalid, ?_⟩
  obtain ⟨hexists, hfaithful⟩ := @picture_faithful Exponential.hardware {} hvalid
    [⟨⟨0.5, 179.5⟩, 1010, 0⟩, ⟨⟨0.5, -179.5⟩, 1020, 0⟩, ⟨⟨0.5, 0⟩, 1030, 0⟩]
    ⟨⟨170, -20, -170, 20⟩, 3⟩ .standard
  obtain ⟨r, hr⟩ := hexists (by rfl) (not_overlong_of_fits (by decide))
  obtain ⟨-, -, hfaithful, -, hcount, -⟩ := hfaithful r hr
  rw [hvisible] at hfaithful hcount
  exact ⟨r, hr, hfaithful, hcount⟩

end Rendering

end Barogrid
