import Mathlib
import Barogrid.Session
import Barogrid.Proofs.Settings

/-!
# What an event can do to a session

Everything that is said about sessions starts from two lists of cases: what becomes of a session when
the picture is rendered anew (`recompute_cases`), and what becomes of it when a response arrives
(`completeLoad_cases`).

* `recompute_keeps` -- rendering anew replaces nothing but the picture;
* `isStale_iff`, `isStale_eq_false_iff` -- when a response comes too late;
* `start_of_valid` -- how a session begins;
* `run_settings`, `run_viewport` -- its settings stay, and its viewport is the one set last.
-/

namespace Barogrid.Session

/-! ## 1. The beginning -/

theorem start_of_valid {s : Settings} (h : s.Valid) :
    start s = .ok { settings := s, gradient := ⟨s.stops, h.stops⟩ } := by
  unfold start
  rw [Settings.validate_eq_ok_iff.mpr h, h.gradient]
  rfl

/-- A session begins exactly when there is no objection to the settings. -/
theorem start_isOk_iff {s : Settings} : (∃ t, start s = .ok t) ↔ s.validate = .ok () := by
  constructor
  · rintro ⟨t, ht⟩
    unfold start at ht
    cases hvalid : s.validate with
    | ok u => rfl
    | error f =>
      rw [hvalid] at ht
      cases ht
  · intro hvalid
    exact ⟨_, start_of_valid (Settings.validate_eq_ok_iff.mp hvalid)⟩

/-- What a session begins with. -/
theorem start_fields {s : Settings} {t : Session} (h : s.Valid) (hstart : start s = .ok t) :
    t.settings = s ∧ t.viewport = none ∧ t.newest = none ∧ t.readings = [] := by
  rw [start_of_valid h] at hstart
  rw [← Except.ok.inj hstart]
  exact ⟨rfl, rfl, rfl, rfl⟩

theorem start_valid {s : Settings} {t : Session} (h : s.Valid) (hstart : start s = .ok t) :
    t.settings.Valid := by
  rw [(start_fields h hstart).1]
  exact h

/-! ## 2. Too late -/

theorem isStale_eq_false_iff {t : Session} {id : RequestId} :
    t.isStale id = false ↔ ∀ n, t.newest = some n → n < id := by
  unfold isStale
  cases t.newest <;> simp

section

variable [Exponential]

/-! ## 3. Rendering anew -/

/-- **All that rendering anew can do.** -/
theorem recompute_cases (t : Session) :
    (t.viewport = none ∧ t.recompute = (t, .ok t.picture)) ∨
    (∃ v r, t.viewport = some v ∧ Rendering.of t.readings v t.settings t.gradient = .ok r ∧
      t.recompute = (t.adopt r, .ok r.picture)) ∨
    (∃ v f, t.viewport = some v ∧ Rendering.of t.readings v t.settings t.gradient = .error f ∧
      t.recompute = (t, .error f)) := by
  unfold recompute
  cases hv : t.viewport with
  | none => exact Or.inl ⟨rfl, rfl⟩
  | some v =>
    cases hr : Rendering.of t.readings v t.settings t.gradient with
    | ok r => exact Or.inr (Or.inl ⟨v, r, rfl, hr, by simp only [hr]⟩)
    | error f => exact Or.inr (Or.inr ⟨v, f, rfl, hr, by simp only [hr]⟩)

/-- The two sessions have the same settings, readings, viewport and state of loading. -/
structure SameSource (t t' : Session) : Prop where
  settings : t.settings = t'.settings
  gradient : t.gradient = t'.gradient
  readings : t.readings = t'.readings
  viewport : t.viewport = t'.viewport
  loadState : t.loadState = t'.loadState
  begun : t.begun = t'.begun
  newest : t.newest = t'.newest

/-- **Rendering anew replaces nothing but the picture**, its key length and the counters. -/
theorem recompute_keeps (t : Session) : t.recompute.1.SameSource t := by
  rcases recompute_cases t with ⟨-, h⟩ | ⟨v, r, -, -, h⟩ | ⟨v, f, -, -, h⟩
  · rw [h]
    exact ⟨rfl, rfl, rfl, rfl, rfl, rfl, rfl⟩
  · rw [h]
    exact ⟨rfl, rfl, rfl, rfl, rfl, rfl, rfl⟩
  · rw [h]
    exact ⟨rfl, rfl, rfl, rfl, rfl, rfl, rfl⟩

/-! ## 4. Responses -/

/-- The session after a failure to load. -/
def fail (t : Session) (f : Failure) : Session :=
  { t with metrics := t.metrics.countFailure, loadState := .failed f.message }

/-- The session after a response that came too late. -/
def discard (t : Session) : Session := { t with metrics := t.metrics.countStale }

/-- How the picture rendered after readings were applied is reported. -/
def appliedOutcome (readings : List Reading) (picture : Picture) : LoadOutcome :=
  .applied readings.length picture.cells.length

/-- **All that a response can do.** -/
theorem completeLoad_cases (t : Session) (id : RequestId)
    (response : Except Failure (List Reading)) :
    (t.isStale id = true ∧ t.completeLoad id response = (t.discard, .ok .stale)) ∨
    (t.isStale id = false ∧
      ((∃ readings, response = .ok readings ∧
          t.completeLoad id response =
            ((t.accept id readings).recompute.1,
              (t.accept id readings).recompute.2.map (appliedOutcome readings))) ∨
        (∃ f, response = .error f ∧ f.isLoadFailure = true ∧
          t.completeLoad id response = (t.fail f, .ok (.failed f.message))) ∨
        (∃ f, response = .error f ∧ f.isLoadFailure = false ∧
          t.completeLoad id response = (t, .error f)))) := by
  unfold completeLoad
  cases hstale : t.isStale id with
  | true => exact Or.inl ⟨rfl, rfl⟩
  | false =>
    refine Or.inr ⟨rfl, ?_⟩
    cases response with
    | ok readings => exact Or.inl ⟨readings, rfl, rfl⟩
    | error f =>
      cases hf : f.isLoadFailure with
      | true => exact Or.inr (Or.inl ⟨f, rfl, hf, by simp [hf, fail]⟩)
      | false => exact Or.inr (Or.inr ⟨f, rfl, hf, by simp [hf]⟩)

/-- **A response leaves the settings and the viewport**, and hands out no number. -/
theorem completeLoad_keeps (t : Session) (id : RequestId)
    (response : Except Failure (List Reading)) :
    (t.completeLoad id response).1.settings = t.settings ∧
      (t.completeLoad id response).1.viewport = t.viewport ∧
      (t.completeLoad id response).1.begun = t.begun := by
  rcases completeLoad_cases t id response with
    ⟨-, heq⟩ | ⟨-, ⟨readings, -, heq⟩ | ⟨f, -, -, heq⟩ | ⟨f, -, -, heq⟩⟩
  · rw [heq]
    exact ⟨rfl, rfl, rfl⟩
  · have hkeeps := recompute_keeps (t.accept id readings)
    rw [heq]
    exact ⟨hkeeps.settings, hkeeps.viewport, hkeeps.begun⟩
  · rw [heq]
    exact ⟨rfl, rfl, rfl⟩
  · rw [heq]
    exact ⟨rfl, rfl, rfl⟩

/-! ## 5. Settings and viewport of a run -/

theorem run_cons (t : Session) (e : Event) (events : List Event) :
    t.run (e :: events) = (t.step e).1.run events := rfl

theorem step_settings (t : Session) (e : Event) : (t.step e).1.settings = t.settings := by
  cases e with
  | beginLoad => rfl
  | setViewport v => exact (recompute_keeps { t with viewport := some v }).settings
  | recompute => exact (recompute_keeps t).settings
  | completeLoad id response => exact (completeLoad_keeps t id response).1

/-- A session keeps its settings. -/
theorem run_settings (t : Session) (events : List Event) : (t.run events).settings = t.settings := by
  induction events generalizing t with
  | nil => rfl
  | cons e events ih => exact (ih (t.step e).1).trans (step_settings t e)

theorem run_valid {t : Session} (h : t.settings.Valid) (events : List Event) :
    (t.run events).settings.Valid := by
  rw [run_settings]
  exact h

/-- The viewport that an event sets. -/
def Event.viewport? : Event → Option Viewport
  | .setViewport v => some v
  | _ => none

/-- The viewport that is set last. -/
def lastViewport (events : List Event) : Option Viewport :=
  (events.filterMap Event.viewport?).getLast?

theorem step_viewport (t : Session) (e : Event) :
    (t.step e).1.viewport = e.viewport?.or t.viewport := by
  cases e with
  | beginLoad => rfl
  | setViewport v => exact (recompute_keeps { t with viewport := some v }).viewport
  | recompute => exact (recompute_keeps t).viewport
  | completeLoad id response => exact (completeLoad_keeps t id response).2.1

/-- The viewport of a session is the one set last. -/
theorem run_viewport (t : Session) (events : List Event) :
    (t.run events).viewport = (lastViewport events).or t.viewport := by
  induction events generalizing t with
  | nil => rfl
  | cons e events ih =>
    rw [run_cons, ih, step_viewport]
    unfold lastViewport
    rw [List.filterMap_cons]
    cases e.viewport? with
    | none => rfl
    | some v =>
      show _ = ((v :: events.filterMap Event.viewport?).getLast?).or t.viewport
      rw [List.getLast?_cons]
      cases (events.filterMap Event.viewport?).getLast? <;> rfl

end

end Barogrid.Session
