import Mathlib
import Barogrid.Rendering
import Barogrid.Proofs.Grid.Uniform
import Barogrid.Proofs.Resolution

/-!
# Rendering with valid settings

Valid settings ask for key lengths that exist, and the readings that are visible lie on the globe.
So neither binning nor filling nor drawing can fail, whatever the readings and the viewport are, except
that there is no report on more passes than it can hold.

* `Selection.visible_eq_filter`, `Selection.onGlobe_of_visible` -- which readings are visible, and
  that these lie on the globe;
* `Rendering.of_cases` -- **all that a rendering can be**, by its stages;
* `Rendering.Overlong` -- gaps are to be filled in too many passes;
* `Rendering.of_yields_of_keyLength` -- **rendering succeeds** for every zoom level that has a key
  length, if it is not overlong;
* `Rendering.of_eq_error_iff` -- **and only these two can stop it**;
* `Rendering.of_yields` -- every zoom level has a key length, if the zoom levels of the settings are not
  farther apart than the field for their distance allows.
-/

namespace Barogrid

namespace Selection

variable {readings : List Reading} {box : Box} {s : Settings} {r : Reading}

/-- The reading is well formed, its value in the range of the settings and its place in the box. -/
def Shows (s : Settings) (box : Box) (r : Reading) : Prop :=
  r.isWellFormed = true ∧ s.minPressure ≤ r.value ∧ r.value ≤ s.maxPressure ∧
    box.contains r.place.longitude r.place.latitude = true

instance : DecidablePred (Shows s box) := fun r =>
  inferInstanceAs (Decidable (r.isWellFormed = true ∧ s.minPressure ≤ r.value ∧
    r.value ≤ s.maxPressure ∧ box.contains r.place.longitude r.place.latitude = true))

/-- The three filters are one. -/
theorem visible_eq_filter (readings : List Reading) (box : Box) (s : Settings) :
    visible readings box s = readings.filter (Shows s box) := by
  unfold visible inBox inRange
  rw [List.filter_filter, List.filter_filter]
  refine List.filter_congr fun r _ => ?_
  rw [Bool.eq_iff_iff, decide_eq_true_iff]
  simp only [Bool.and_eq_true, Binary64.within, decide_eq_true_eq]
  constructor
  · rintro ⟨⟨hbox, hlo, hhi⟩, hr⟩
    exact ⟨hr, hlo, hhi, hbox⟩
  · rintro ⟨hr, hlo, hhi, hbox⟩
    exact ⟨⟨hbox, hlo, hhi⟩, hr⟩

theorem isWellFormed_of_visible (h : r ∈ visible readings box s) : r.isWellFormed = true := by
  rw [visible_eq_filter, List.mem_filter, decide_eq_true_eq] at h
  exact h.2.1

/-- What is visible lies on the globe. -/
theorem onGlobe_of_visible (h : r ∈ visible readings box s) : r.place.onGlobe = true := by
  have hr := isWellFormed_of_visible h
  rw [Reading.isWellFormed, Bool.and_eq_true] at hr
  exact hr.1

theorem visible_perm {readings' : List Reading} (h : readings.Perm readings') (box : Box)
    (s : Settings) : (visible readings box s).Perm (visible readings' box s) := by
  rw [visible_eq_filter, visible_eq_filter]
  exact h.filter _

end Selection

/-- Are the passes of the settings few enough for a report? -/
def Settings.PassesFit (s : Settings) : Prop := s.passes ≤ Filling.longestReport

instance (s : Settings) : Decidable s.PassesFit := Nat.decLe s.passes Filling.longestReport

namespace Rendering

variable {readings : List Reading} {v : Viewport} {s : Settings} {n : Nat}

/-- Something is visible, so that gaps are to be filled, and in more passes than a report can hold. -/
def Overlong (readings : List Reading) (v : Viewport) (s : Settings) : Prop :=
  Filling.longestReport < s.passes ∧ Selection.visible readings v.box s ≠ []

instance : Decidable (Overlong readings v s) :=
  inferInstanceAs (Decidable (Filling.longestReport < s.passes ∧
    Selection.visible readings v.box s ≠ []))

theorem not_overlong_of_fits (h : s.PassesFit) : ¬ Overlong readings v s :=
  fun hlong => absurd hlong.1 (not_lt.mpr h)

theorem overlong_iff_of_perm {readings' : List Reading} (h : readings.Perm readings') :
    Overlong readings v s ↔ Overlong readings' v s := by
  have hvisible := Selection.visible_perm h v.box s
  refine and_congr_right fun _ => not_congr ⟨fun hnil => ?_, fun hnil => ?_⟩
  · exact List.perm_nil.mp (hnil ▸ hvisible.symm)
  · exact List.perm_nil.mp (hnil ▸ hvisible)

/-- What is visible can be binned. -/
theorem bin_visible_yields (h : s.Valid) (hkey : Resolution.keyLength v.zoom s = .ok n)
    (readings : List Reading) :
    Yields (Binning.bin (Selection.visible readings v.box s) n) (CellMap.Uniform n) := by
  obtain ⟨hmin, hmax⟩ := Resolution.keyLength_within h hkey
  exact Binning.bin_yields (fun r hr => Selection.onGlobe_of_visible hr)
    (h.minLength_pos.trans hmin) (hmax.trans h.maxLength_le)

end Rendering

section

variable [Exponential]

theorem Choropleth.project_yields (cells : CellMap) (visible : List Reading) (gradient : Gradient)
    (opacity : Binary64) : Yields (project cells visible gradient opacity) fun _ => True := by
  unfold project
  cases hvisible : visible.isEmpty with
  | true => exact Yields.ok trivial
  | false =>
    have hsummary : Statistics.summary (visible.map Reading.value) =
        .ok (Statistics.summaryOf (visible.map Reading.value)) := by
      simp [Statistics.summary, hvisible]
    rw [hsummary]
    exact Yields.ok trivial

namespace Rendering

variable {readings : List Reading} {v : Viewport} {s : Settings} {n : Nat}

/-- **Rendering succeeds as soon as there is a key length for the zoom level**, and this is the one
that it reports, unless the passes are too many. -/
theorem of_yields_of_keyLength (h : s.Valid) (hkey : Resolution.keyLength v.zoom s = .ok n)
    (hshort : ¬ Overlong readings v s) (gradient : Gradient) :
    Yields (of readings v s gradient) fun r => r.keyLength = n := by
  have hlen : n ≤ Geohash.maxLength := (Resolution.keyLength_within h hkey).2.trans h.maxLength_le
  unfold of
  rw [hkey]
  show Yields (if (Selection.visible readings v.box s).isEmpty then _ else _) _
  split
  · exact Yields.ok rfl
  rename_i hsome
  have hfits : s.passes ≤ Filling.longestReport := not_lt.mp fun hlong =>
    hshort ⟨hlong, fun hnil => hsome (List.isEmpty_iff.mpr hnil)⟩
  refine (bin_visible_yields h hkey readings).bind fun binned hbinned => ?_
  refine (Filling.fill_yields hlen hfits hbinned).bind fun created _ => ?_
  exact (Choropleth.project_yields _ _ gradient s.opacity).bind fun picture _ => Yields.ok rfl

/-- **With too many passes there is no rendering.** -/
theorem of_overlong (h : s.Valid) (hkey : Resolution.keyLength v.zoom s = .ok n)
    (hlong : Overlong readings v s) (gradient : Gradient) :
    of readings v s gradient = .error (.overflow "report of the passes") := by
  have hlen : n ≤ Geohash.maxLength := (Resolution.keyLength_within h hkey).2.trans h.maxLength_le
  obtain ⟨binned, hbin, hbinned⟩ := bin_visible_yields h hkey readings
  have hcreated := Filling.fill_overflows (Filling.uniform_short hbinned hlen) hlong.1
  unfold of
  rw [hkey]
  show (if (Selection.visible readings v.box s).isEmpty then _ else _) = _
  rw [if_neg fun hnil => hlong.2 (List.isEmpty_iff.mp hnil), hbin]
  show (Filling.fill binned s.passes).created >>= _ = _
  rw [hcreated]
  rfl

/-- Nor is there without a key length. -/
theorem of_eq_error {f : Failure} (hkey : Resolution.keyLength v.zoom s = .error f)
    (readings : List Reading) (gradient : Gradient) : of readings v s gradient = .error f := by
  unfold of
  rw [hkey]
  rfl

/-- **Which renderings fail**: those without a key length, and those of which the passes are too many.
Both stop the program. -/
theorem of_eq_error_iff (h : s.Valid) {gradient : Gradient} {f : Failure} :
    of readings v s gradient = .error f ↔
      (Resolution.keyLength v.zoom s = .error f ∧ f = .overflow "zoom offset") ∨
      ((∃ n, Resolution.keyLength v.zoom s = .ok n) ∧ Overlong readings v s ∧
        f = .overflow "report of the passes") := by
  rcases Resolution.keyLength_spec h v.zoom with ⟨n, hkey, -⟩ | ⟨hkey, -⟩
  · by_cases hlong : Overlong readings v s
    · simp [of_overlong h hkey hlong, hkey, hlong, eq_comm]
    · obtain ⟨r, hr, -⟩ := of_yields_of_keyLength h hkey hlong gradient
      simp [hr, hkey, hlong]
  · simp [of_eq_error hkey, hkey, eq_comm]

/-- **What a rendering of readings that are visible is made of**: the cells into which they fall, the
report on the gaps filled between these, and the picture of them all. -/
structure Stages (r : Rendering) (seen : List Reading) (s : Settings) (gradient : Gradient)
    (m : CellMap) (counts : List Nat) : Prop where
  binned : Binning.bin seen r.keyLength = .ok m
  created : (Filling.fill m s.passes).created = .ok counts
  picture : r.picture =
    { cells := (Filling.fill m s.passes).cells.cells.map
        (Choropleth.draw (Statistics.summaryOf (seen.map Reading.value)) gradient s.opacity)
      summary := some (Statistics.summaryOf (seen.map Reading.value)) }
  visible : r.visible = seen.length
  filled : r.filled = counts.sum

theorem project_eq_ok {visible : List Reading} (h : visible ≠ []) (cells : CellMap)
    (gradient : Gradient) (opacity : Binary64) :
    Choropleth.project cells visible gradient opacity =
      .ok { cells := cells.cells.map
              (Choropleth.draw (Statistics.summaryOf (visible.map Reading.value)) gradient opacity)
            summary := some (Statistics.summaryOf (visible.map Reading.value)) } := by
  have hvisible : visible.isEmpty = false := by simpa using h
  have hsummary : Statistics.summary (visible.map Reading.value) =
      .ok (Statistics.summaryOf (visible.map Reading.value)) := by
    simp [Statistics.summary, hvisible]
  unfold Choropleth.project
  rw [hvisible, hsummary]
  rfl

/-- **All that a rendering can be**: blank where nothing is visible, and else made of its stages. -/
theorem of_cases {gradient : Gradient} {r : Rendering} (h : of readings v s gradient = .ok r) :
    Resolution.keyLength v.zoom s = .ok r.keyLength ∧
      ((Selection.visible readings v.box s = [] ∧ r = { keyLength := r.keyLength }) ∨
        (Selection.visible readings v.box s ≠ [] ∧ ∃ m counts,
          r.Stages (Selection.visible readings v.box s) s gradient m counts)) := by
  unfold of at h
  obtain ⟨n, hkey, h⟩ := exists_of_bind_eq_ok h
  generalize Selection.visible readings v.box s = seen at h ⊢
  by_cases hseen : seen = []
  · rw [hseen] at h
    obtain rfl := Except.ok.inj h
    exact ⟨hkey, Or.inl ⟨hseen, rfl⟩⟩
  · have hsome : seen.isEmpty = false := by simpa using hseen
    simp only [hsome, Bool.false_eq_true, ↓reduceIte] at h
    obtain ⟨m, hbinned, h⟩ := exists_of_bind_eq_ok h
    obtain ⟨counts, hcreated, h⟩ := exists_of_bind_eq_ok h
    rw [project_eq_ok hseen] at h
    obtain rfl := Except.ok.inj h
    exact ⟨hkey, Or.inr ⟨hseen, m, counts, hbinned, hcreated, rfl, rfl,
      List.sum_eq_foldl.symm⟩⟩

theorem of_yields (h : s.Valid) (hfits : s.ZoomFits) (hshort : ¬ Overlong readings v s)
    (gradient : Gradient) :
    Yields (of readings v s gradient) fun r =>
      s.minLength ≤ r.keyLength ∧ r.keyLength ≤ s.maxLength := by
  obtain ⟨n, hkey⟩ := Resolution.exists_keyLength h hfits v.zoom
  have hbounds := Resolution.keyLength_within h hkey
  exact (of_yields_of_keyLength h hkey hshort gradient).mono fun r hr => hr ▸ hbounds

end Rendering

end

end Barogrid
