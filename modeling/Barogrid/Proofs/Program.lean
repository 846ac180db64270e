import Mathlib
import Barogrid.Program
import Barogrid.Proofs.Box.Clamping
import Barogrid.Proofs.Feed.Window
import Barogrid.Proofs.Session.Success

/-!
# What arguments and variables make of a run

The program takes the box, the window of time and the number of passes as they are asked for.  It moves the
box onto the globe before anything is shown, it asks for the readings of the window before any is loaded, and
it finds out last that there is no report on so many passes.

* `viewport_keeps_visible` -- **the readings that are visible in the box asked for are shown**, unless this
  collapses as it is moved;
* `viewport_of_collapses` -- of a box that collapses only readings on one meridian are shown;
* `render_of_overreaches`, `watch_of_overreaches` -- **a window that overreaches ends the program before it
  has loaded or shown anything**, whatever the files and the service hold;
* `render_of_overlong` -- too many passes end it **when something has been loaded that is to be seen**.
-/

namespace Barogrid

open CommandLine (Invocation)

namespace Program

variable {w : Surroundings} {inv : Invocation} {b : Box}

/-! ## 1. The box -/

theorem viewport_eq (hbox : Box.parse inv.box = .ok b) :
    viewport inv = .ok ⟨b.clamped, inv.zoom⟩ := by
  unfold viewport
  rw [hbox]

/-- **The readings that are visible in the box asked for are shown.** -/
theorem viewport_keeps_visible (hbox : Box.parse inv.box = .ok b) (hc : ¬ b.Collapses)
    (readings : List Reading) (s : Settings) : Yields (viewport inv) fun v =>
      (Selection.visible readings b s).Sublist (Selection.visible readings v.box s) := by
  rw [viewport_eq hbox]
  refine Yields.ok ?_
  rw [Selection.visible_eq_filter, Selection.visible_eq_filter]
  refine List.monotone_filter_right readings fun r hr => ?_
  rw [decide_eq_true_eq] at hr ⊢
  obtain ⟨hformed, hlow, hhigh, hin⟩ := hr
  have hplace : r.place.onGlobe = true := (Bool.and_eq_true_iff.mp hformed).1
  obtain ⟨hlatitude, hlongitude⟩ := Place.onGlobe_iff_inRange.mp hplace
  exact ⟨hformed, hlow, hhigh, Box.contains_clamped hc hlongitude hlatitude hin⟩

/-- Of a box that collapses only what lies on the meridian that is left of it is shown. -/
theorem viewport_of_collapses (hbox : Box.parse inv.box = .ok b) (hc : b.Collapses)
    (readings : List Reading) (s : Settings) : Yields (viewport inv) fun v =>
      ∀ r ∈ Selection.visible readings v.box s, r.place.longitude = v.box.west := by
  rw [viewport_eq hbox]
  refine Yields.ok fun r hr => ?_
  rw [Selection.visible_eq_filter, List.mem_filter, decide_eq_true_eq] at hr
  exact (hc.clamped_contains_iff.mp hr.2.2.2.2).2

/-! ## 2. The window of time -/

/-- **Rendering ends before anything is loaded.** -/
theorem render_of_overreaches [Exponential] {s : ServiceSettings} {src : Source} {v : Viewport}
    (hsettings : serviceSettings w inv = .ok s) (hsource : source s inv = .ok src)
    (hviewport : viewport inv = .ok v) (hnow : Instant.isRepresentable w.now = true)
    (hover : s.Overreaches w.now) : render w inv = .error (.overflow s.excess) := by
  have hquery := ServiceSettings.query_of_overreaches hnow hover
  simp [render, hsettings, hsource, hviewport, hquery, bind, Except.bind, orAbort, Except.mapError,
    Abort.ofFailure]

/-- So does every load while watching, -/
theorem Watch.load_of_overreaches [Exponential] {watch : Watch}
    (hnow : Instant.isRepresentable w.now = true) (hover : watch.settings.Overreaches w.now) :
    watch.load w = .error (.overflow watch.settings.excess) := by
  have hquery := ServiceSettings.query_of_overreaches hnow hover
  simp [load, hquery, bind, Except.bind, orAbort, Except.mapError, Abort.ofFailure]

theorem beginWatch_settings [Exponential] {s : ServiceSettings} {start : Watch}
    (hsettings : serviceSettings w inv = .ok s) (hstart : beginWatch w inv = .ok start) :
    start.settings = s := by
  unfold beginWatch at hstart
  obtain ⟨settings, hsame, hstart⟩ := exists_of_bind_eq_ok hstart
  obtain ⟨source, -, hstart⟩ := exists_of_bind_eq_ok hstart
  obtain ⟨fresh, -, hstart⟩ := exists_of_bind_eq_ok hstart
  obtain ⟨v, -, hstart⟩ := exists_of_bind_eq_ok hstart
  obtain ⟨session, -, hstart⟩ := exists_of_bind_eq_ok hstart
  cases hstart
  exact Except.ok.inj (hsame.symm.trans hsettings)

/-- **and so watching shows nothing**, whatever viewports are asked for. -/
theorem watch_of_overreaches [Exponential] {s : ServiceSettings}
    (hsettings : serviceSettings w inv = .ok s) (hnow : Instant.isRepresentable w.now = true)
    (hover : s.Overreaches w.now) (lines : List String) :
    ∃ a, watch w inv lines = ([], some a) := by
  unfold watch
  cases hstart : beginWatch w inv with
  | error a => exact ⟨a, rfl⟩
  | ok start =>
    have hover : start.settings.Overreaches w.now := beginWatch_settings hsettings hstart ▸ hover
    refine ⟨.overflow start.settings.excess, ?_⟩
    simp [Except.bind, Watch.load_of_overreaches hnow hover]

/-! ## 3. The passes -/

/-- **Rendering ends over too many passes** as soon as a reading that was loaded is to be seen. -/
theorem render_of_overlong [Exponential] {s : ServiceSettings} {src : Source} {v : Viewport} {q : Query}
    {readings : List Reading} (hsettings : serviceSettings w inv = .ok s)
    (hsource : source s inv = .ok src) (hviewport : viewport inv = .ok v)
    (hquery : s.query w.now = .ok q) (hvalid : s.map.validate = .ok ()) (hfits : s.map.ZoomFits)
    (hfetch : fetch w src q = .ok readings) (hlong : Rendering.Overlong readings v s.map) :
    render w inv = .error (.overflow "report of the passes") := by
  have hv := Settings.validate_eq_ok_iff.mp hvalid
  obtain ⟨session, hstart⟩ := Session.start_isOk_iff.mpr hvalid
  obtain ⟨hmap, -, hnone, hempty⟩ := Session.start_fields hv hstart
  -- nothing is to be seen yet when the viewport is set
  have hfirst : ∃ picture, (session.setViewport v).2 = .ok picture := by
    cases hanswer : (session.setViewport v).2 with
    | ok picture => exact ⟨picture, rfl⟩
    | error f =>
      obtain ⟨hblank, -⟩ := (Session.setViewport_eq_error_iff hv hfits hmap).mp hanswer
      rw [hempty] at hblank
      exact absurd rfl hblank.2
  obtain ⟨picture, hpicture⟩ := hfirst
  have hkeeps := Session.recompute_keeps { session with viewport := some v }
  have hload : ((session.setViewport v).1.load (.ok readings)).2 =
      .error (.overflow "report of the passes") := by
    have hbegun : (session.setViewport v).1.beginLoad.1.settings = s.map :=
      hkeeps.settings.trans hmap
    have hfresh : (session.setViewport v).1.beginLoad.1.isStale
        (session.setViewport v).1.beginLoad.2 = false :=
      Session.isStale_eq_false_iff.mpr fun n hn => by
        cases (hkeeps.newest.trans hnone).symm.trans hn
    refine (Session.completeLoad_eq_error_iff hv hfits hbegun).mpr ⟨hfresh, Or.inr ?_⟩
    exact ⟨readings, v, rfl, hkeeps.viewport, hlong, rfl⟩
  simp [render, hsettings, hsource, hviewport, hquery, hfetch, hstart, hpicture, hload, bind,
    Except.bind, orAbort, Except.mapError, advance, Abort.ofFailure]

end Program

end Barogrid
