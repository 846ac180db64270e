import Mathlib
import Barogrid.Snapshot
import Barogrid.Proofs.Session.Turns

/-!
# The picture belongs to the readings and the viewport

A session keeps its picture and its key length beside the readings and the viewport from which they
were rendered.  Several events change one without the other in between; `Coherent` says that after
each event they belong together.

* `recompute_coherent` -- **rendering anew makes a session coherent**, provided that it succeeds;
* `step_coherent`, `run_coherent` -- so every event after which the program goes on keeps it coherent, and
  so does every unbroken run;
* `picture_coherent` -- what all this says about sessions with valid settings and their snapshots.
-/

namespace Barogrid

/-- The value of a member of an object. -/
def Json.member? (key : String) : Json → Option Json
  | .object members => (members.find? fun m => m.1 = escape key).map Prod.snd
  | _ => none

namespace Session

theorem snapshot_keyLength (t : Session) (uptime : Nat) :
    (t.snapshot uptime).member? "key_length" = some (.ofOption Json.ofNat t.keyLength) := rfl

/-! ## 1. The invariant -/

/-- The session has the given settings and their gradient, and nothing is drawn before there is a
viewport. -/
structure Configured (s : Settings) (t : Session) : Prop where
  settings : t.settings = s
  gradient : s.gradient = .ok t.gradient
  blank : t.viewport = none → t.picture = {} ∧ t.keyLength = none

section

variable {s : Settings} {t : Session}

theorem setViewport_configured (h : t.Configured s) (v : Viewport) :
    Configured s { t with viewport := some v } :=
  ⟨h.settings, h.gradient, fun hnone => by cases hnone⟩

theorem accept_configured (h : t.Configured s) (id : RequestId) (readings : List Reading) :
    Configured s (t.accept id readings) :=
  ⟨h.settings, h.gradient, h.blank⟩

end

/-- **The picture and the key length are those of the readings and the viewport.** -/
structure Coherent [Exponential] (s : Settings) (t : Session) : Prop extends Configured s t where
  drawn : ∀ v, t.viewport = some v → ∃ r, Rendering.of t.readings v s t.gradient = .ok r ∧
    t.picture = r.picture ∧ t.keyLength = some r.keyLength

section

variable [Exponential] {s : Settings} {t : Session}

/-- **Rendering anew makes a session coherent** and answers with the new picture. -/
theorem recompute_coherent (h : t.Configured s) (hok : ∃ picture, t.recompute.2 = .ok picture) :
    t.recompute.1.Coherent s ∧ t.recompute.2 = .ok t.recompute.1.picture := by
  rcases recompute_cases t with ⟨hv, heq⟩ | ⟨v, r, hv, hr, heq⟩ | ⟨v, f, hv, hf, heq⟩
  · rw [heq]
    refine ⟨⟨h, fun v hv' => ?_⟩, rfl⟩
    rw [hv] at hv'
    cases hv'
  · rw [heq]
    rw [h.settings] at hr
    refine ⟨⟨⟨h.settings, h.gradient, fun hnone => ?_⟩, fun v' hv' => ⟨r, ?_, rfl, rfl⟩⟩, rfl⟩
    · have hnone : t.viewport = none := hnone
      rw [hv] at hnone
      cases hnone
    · have hv' : t.viewport = some v' := hv'
      rw [hv] at hv'
      rw [← Option.some.inj hv']
      exact hr
  · obtain ⟨picture, hpicture⟩ := hok
    rw [heq] at hpicture
    cases hpicture

/-- What an event answers when nothing fails, in terms of the session after it. -/
def Answers (t : Session) : Event → Answer → Prop
  | .beginLoad, a => a = .begun t.begun
  | .completeLoad _ (.ok readings), a =>
    a = .completed (.ok .stale) ∨
      (a = .completed (.ok (.applied t.readings.length t.picture.cells.length)) ∧
        t.readings = readings)
  | .completeLoad _ (.error f), a =>
    a = .completed (.ok .stale) ∨
      (a = .completed (.ok (.failed f.message)) ∧ f.isLoadFailure = true) ∨
      (a = .completed (.error f) ∧ f.isLoadFailure = false)
  | .setViewport v, a => a = .rendered (.ok t.picture) ∧ t.viewport = some v
  | .recompute, a => a = .rendered (.ok t.picture)

/-- **Every event after which the program goes on keeps a session coherent**, and its answer is about the
session after it. -/
theorem step_coherent (h : t.Coherent s) {e : Event} (hgoes : (t.turn e).GoesOn) :
    (t.step e).1.Coherent s ∧ Answers (t.step e).1 e (t.step e).2 := by
  cases e with
  | beginLoad => exact ⟨⟨⟨h.settings, h.gradient, h.blank⟩, h.drawn⟩, rfl⟩
  | setViewport v =>
    obtain ⟨hcoherent, hanswer⟩ :=
      recompute_coherent (setViewport_configured h.toConfigured v) (hgoes.isOk rfl)
    refine ⟨hcoherent, congrArg Answer.rendered hanswer, ?_⟩
    exact (recompute_keeps { t with viewport := some v }).viewport
  | recompute =>
    obtain ⟨hcoherent, hanswer⟩ := recompute_coherent h.toConfigured (hgoes.isOk rfl)
    exact ⟨hcoherent, congrArg Answer.rendered hanswer⟩
  | completeLoad id response =>
    show (t.completeLoad id response).1.Coherent s ∧
      Answers (t.completeLoad id response).1 (.completeLoad id response)
        (.completed (t.completeLoad id response).2)
    rcases completeLoad_cases t id response with
      ⟨-, heq⟩ | ⟨hfresh, ⟨readings, rfl, heq⟩ | ⟨f, rfl, hf, heq⟩ | ⟨f, rfl, hf, heq⟩⟩
    · rw [heq]
      refine ⟨⟨⟨h.settings, h.gradient, h.blank⟩, h.drawn⟩, ?_⟩
      cases response with
      | ok readings => exact Or.inl rfl
      | error f => exact Or.inl rfl
    · obtain ⟨hcoherent, hanswer⟩ := recompute_coherent
        (accept_configured h.toConfigured id readings) (hgoes.isOk (staged_of_fresh hfresh readings))
      have hreadings : (t.accept id readings).recompute.1.readings = readings :=
        (recompute_keeps (t.accept id readings)).readings
      rw [heq, hanswer]
      refine ⟨hcoherent, Or.inr ⟨?_, hreadings⟩⟩
      rw [hreadings]
      rfl
    · rw [heq]
      exact ⟨⟨⟨h.settings, h.gradient, h.blank⟩, h.drawn⟩, Or.inr (Or.inl ⟨rfl, hf⟩)⟩
    · rw [heq]
      exact ⟨h, Or.inr (Or.inr ⟨rfl, hf⟩)⟩

theorem run_coherent (hvalid : t.settings.Valid) {events : List Event}
    (hunbroken : Unbroken t events) (h : t.Coherent s) : (t.run events).Coherent s :=
  turns_induction (P := fun _ t => t.Coherent s)
    (fun _ _ _ hgoes hcoherent => (step_coherent hcoherent hgoes).1) hvalid hunbroken h

/-! ## 3. Sessions with valid settings -/

/-- Nothing is drawn in a session that has just begun. -/
theorem start_coherent (h : s.Valid) (hstart : start s = .ok t) : t.Coherent s := by
  rw [start_of_valid h] at hstart
  rw [← Except.ok.inj hstart]
  exact ⟨⟨rfl, h.gradient, fun _ => ⟨rfl, rfl⟩⟩, fun v hv => by cases hv⟩

/-- What an applied response reports is what is there after it. -/
theorem applied_reports (hvalid : t.settings.Valid) (h : t.Coherent s) {id : RequestId}
    {response : Except Failure (List Reading)} {readings cells : Nat}
    (happlied : (t.completeLoad id response).2 = .ok (.applied readings cells)) :
    readings = (t.completeLoad id response).1.readings.length ∧
      cells = (t.completeLoad id response).1.picture.cells.length := by
  have hgoes : (t.turn (.completeLoad id response)).stops = false := by
    cases response with
    | ok payload => exact congrArg overflows happlied
    | error f => rfl
  have hanswer : Answers (t.completeLoad id response).1 (.completeLoad id response)
      (.completed (t.completeLoad id response).2) :=
    (step_coherent h (e := .completeLoad id response) ⟨hvalid, hgoes⟩).2
  rw [happlied] at hanswer
  cases response with
  | ok payload =>
    rcases hanswer with hstale | ⟨happlied, -⟩
    · cases Answer.completed.inj hstale
    · exact LoadOutcome.applied.inj (Except.ok.inj (Answer.completed.inj happlied))
  | error f =>
    rcases hanswer with hstale | ⟨hfailed, -⟩ | ⟨herror, -⟩
    · cases Answer.completed.inj hstale
    · cases Answer.completed.inj hfailed
    · cases Answer.completed.inj herror

/-- **A session always shows what its readings look like in its viewport.**  With valid settings, and
after any row of events that does not break off: the picture and the key length are those of one rendering
of the current readings in the viewport set last, and as long as there is none, nothing is drawn; a
response that is applied is answered with the number of the readings and of the cells that are there now.
If the zoom levels and the passes of the settings fit, no row of events breaks off. -/
theorem picture_coherent (hvalid : s.validate = .ok ()) :
    ∃ session gradient, start s = .ok session ∧ s.gradient = .ok gradient ∧
      (s.ZoomFits → s.PassesFit → ∀ events, Unbroken session events) ∧
      ∀ events, Unbroken session events → ∀ t, t = session.run events →
        t.viewport = lastViewport events ∧
        (∀ v, t.viewport = some v → ∃ r, Rendering.of t.readings v s gradient = .ok r ∧
          t.picture = r.picture ∧ t.keyLength = some r.keyLength ∧
          ∀ uptime, (t.snapshot uptime).member? "key_length" = some (.ofNat r.keyLength)) ∧
        (t.viewport = none → t.picture = {} ∧ t.keyLength = none ∧
          ∀ uptime, (t.snapshot uptime).member? "key_length" = some .null) ∧
        ∀ id response readings cells,
          (t.completeLoad id response).2 = .ok (.applied readings cells) →
            readings = (t.completeLoad id response).1.readings.length ∧
            cells = (t.completeLoad id response).1.picture.cells.length := by
  have hv := Settings.validate_eq_ok_iff.mp hvalid
  obtain ⟨session, hstart⟩ := start_isOk_iff.mpr hvalid
  have hbegin := start_coherent hv hstart
  have hvsession := start_valid hv hstart
  refine ⟨session, session.gradient, hstart, hbegin.gradient, start_unbroken hv hstart, ?_⟩
  rintro events hunbroken t rfl
  have hcoherent := run_coherent hvsession hunbroken hbegin
  have hgradient := Except.ok.inj (hcoherent.gradient.symm.trans hbegin.gradient)
  refine ⟨?_, fun v hviewport => ?_, fun hnone => ?_, fun id response readings cells happlied => ?_⟩
  · obtain ⟨-, hnone, -⟩ := start_fields hv hstart
    rw [run_viewport, hnone]
    exact Option.or_none
  · obtain ⟨r, hr, hpicture, hlength⟩ := hcoherent.drawn v hviewport
    rw [hgradient] at hr
    refine ⟨r, hr, hpicture, hlength, fun uptime => ?_⟩
    rw [snapshot_keyLength, hlength]
    rfl
  · obtain ⟨hpicture, hlength⟩ := hcoherent.blank hnone
    refine ⟨hpicture, hlength, fun uptime => ?_⟩
    rw [snapshot_keyLength, hlength]
    rfl
  · exact applied_reports (run_valid hvsession events) hcoherent happlied

end

/-- With the standard settings, the whole globe is shown as soon as it is asked for. -/
theorem standard_session_shows_globe :
    ({} : Settings).validate = .ok () ∧ ({} : Settings).ZoomFits ∧ ({} : Settings).PassesFit ∧
    ∃ session gradient r, start {} = .ok session ∧
      @Rendering.of Exponential.hardware
        (@run Exponential.hardware session [.setViewport ⟨.globe, 3⟩]).readings ⟨.globe, 3⟩ {}
        gradient = .ok r ∧
      (@run Exponential.hardware session [.setViewport ⟨.globe, 3⟩]).picture = r.picture ∧
      (@run Exponential.hardware session [.setViewport ⟨.globe, 3⟩]).keyLength =
        some r.keyLength := by
  have hvalid : ({} : Settings).validate = .ok () := by rfl
  have hfits : ({} : Settings).ZoomFits := by rfl
  have hpasses : ({} : Settings).PassesFit := by decide
  refine ⟨hvalid, hfits, hpasses, ?_⟩
  obtain ⟨session, gradient, hstart, -, hunbroken, hrun⟩ :=
    @picture_coherent Exponential.hardware {} hvalid
  obtain ⟨hviewport, hdrawn, -⟩ := hrun [.setViewport ⟨.globe, 3⟩] (hunbroken hfits hpasses _) _ rfl
  obtain ⟨r, hr, hpicture, hlength, -⟩ := hdrawn ⟨.globe, 3⟩ hviewport
  exact ⟨session, gradient, r, hstart, hr, hpicture, hlength⟩

end Session

end Barogrid
