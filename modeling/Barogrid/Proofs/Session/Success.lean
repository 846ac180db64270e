import Mathlib
import Barogrid.Proofs.Session.Turns

/-!
# Sessions with valid settings do not fail

Once the settings are accepted, no reading and no viewport can make an event fail: what is not on the
globe or no number is left out, and everything else can be drawn.  A session answers with a failure that
it was handed in a response and that is no failure to load -- and with its own when gaps are to be filled
in more passes than a report can hold.  Nothing in the checks of the settings keeps them from asking for
that many.

* `setViewport_eq_error_iff`, `completeLoad_eq_error_iff` -- **when an event fails, and with what**, beside
  `recompute_eq_error_iff`;
* `valid_session_succeeds` -- what this says after any row of events.
-/

namespace Barogrid

/-- Failures to load are those of the transport, of the notation and of files. -/
theorem Failure.isLoadFailure_eq_false_iff {f : Failure} :
    f.isLoadFailure = false ↔
      ∀ text, f ≠ .transport text ∧ f ≠ .decode text ∧ f ≠ .file text := by
  cases f <;> simp [isLoadFailure]

namespace Session

section

variable [Exponential] {s : Settings} {t : Session}

/-- **Setting a viewport fails only over too many passes.** -/
theorem setViewport_eq_error_iff (hvalid : s.Valid) (hfits : s.ZoomFits) (hsettings : t.settings = s)
    {v : Viewport} {f : Failure} :
    (t.setViewport v).2 = .error f ↔
      Rendering.Overlong t.readings v s ∧ f = .overflow "report of the passes" := by
  have hmoved : { t with viewport := some v }.settings = s := hsettings
  unfold setViewport
  rw [recompute_eq_error_iff hvalid hfits hmoved]
  simp

/-- **A response is answered with a failure only if it is not too late**, and hands on a failure that is
no failure to load, or brings readings that are to be filled in too many passes. -/
theorem completeLoad_eq_error_iff (hvalid : s.Valid) (hfits : s.ZoomFits) (hsettings : t.settings = s)
    {id : RequestId} {response : Except Failure (List Reading)} {f : Failure} :
    (t.completeLoad id response).2 = .error f ↔
      t.isStale id = false ∧ ((response = .error f ∧ f.isLoadFailure = false) ∨
        ∃ readings v, response = .ok readings ∧ t.viewport = some v ∧
          Rendering.Overlong readings v s ∧ f = .overflow "report of the passes") := by
  rcases completeLoad_cases t id response with
    ⟨hstale, heq⟩ | ⟨hfresh, ⟨readings, rfl, heq⟩ | ⟨f', rfl, hload, heq⟩ | ⟨f', rfl, hload, heq⟩⟩
  · rw [heq, hstale]
    simp
  · have haccepted : (t.accept id readings).settings = s := hsettings
    have hmap : (t.accept id readings).recompute.2.map (appliedOutcome readings) = .error f ↔
        (t.accept id readings).recompute.2 = .error f := by
      cases (t.accept id readings).recompute.2 <;> simp [Except.map]
    rw [heq, hmap, recompute_eq_error_iff hvalid hfits haccepted]
    simp only [hfresh, accept, true_and, reduceCtorEq, false_and, false_or, Except.ok.injEq,
      existsAndEq, exists_and_right, ← and_assoc]
  · rw [heq]
    refine iff_of_false (fun herror => by cases herror) ?_
    rintro ⟨-, ⟨hf, hother⟩ | ⟨readings, v, hok, -⟩⟩
    · rw [Except.error.inj hf, hother] at hload
      cases hload
    · cases hok
  · rw [heq]
    constructor
    · intro herror
      rw [← Except.error.inj herror]
      exact ⟨hfresh, Or.inl ⟨rfl, hload⟩⟩
    · rintro ⟨-, ⟨hf, -⟩ | ⟨readings, v, hok, -⟩⟩
      · exact congrArg Except.error (Except.error.inj hf)
      · cases hok

theorem completeLoad_ok_isOk (hvalid : s.Valid) (hfits : s.ZoomFits) (hpasses : s.PassesFit)
    (hsettings : t.settings = s) (id : RequestId) (readings : List Reading) :
    ∃ outcome, (t.completeLoad id (.ok readings)).2 = .ok outcome := by
  cases hanswer : (t.completeLoad id (.ok readings)).2 with
  | ok outcome => exact ⟨outcome, rfl⟩
  | error f =>
    obtain ⟨-, ⟨herror, -⟩ | ⟨readings', v, -, -, hlong, -⟩⟩ :=
      (completeLoad_eq_error_iff hvalid hfits hsettings).mp hanswer
    · cases herror
    · exact absurd hlong (Rendering.not_overlong_of_fits hpasses)

end

/-- **A session begins exactly with settings that are accepted, and then it fails in two ways only.**
After any row of events, whatever the readings and the viewports were: setting a viewport and rendering
anew fail exactly when there is something to be seen and the passes are more than a report can hold.  A
response is answered with a failure exactly when it is newer than what was applied and is itself a failure
of another kind than not getting readings, which is handed on, or brings readings on which there is no
report either.  So with passes that fit, setting a viewport, rendering anew and taking in readings
succeed. -/
theorem valid_session_succeeds [Exponential] (s : Settings) :
    ((∃ session, start s = .ok session) ↔ s.validate = .ok ()) ∧
    (s.validate = .ok () → s.ZoomFits →
      ∃ session, start s = .ok session ∧ ∀ events, ∀ t, t = session.run events →
        (∀ v f, (t.setViewport v).2 = .error f ↔
          Rendering.Overlong t.readings v s ∧ f = .overflow "report of the passes") ∧
        (∀ f, t.recompute.2 = .error f ↔
          (∃ v, t.viewport = some v ∧ Rendering.Overlong t.readings v s) ∧
            f = .overflow "report of the passes") ∧
        (∀ id response f, (t.completeLoad id response).2 = .error f ↔
          (∀ n, t.newest = some n → n < id) ∧
            ((response = .error f ∧
                ∀ text, f ≠ .transport text ∧ f ≠ .decode text ∧ f ≠ .file text) ∨
              ∃ readings v, response = .ok readings ∧ t.viewport = some v ∧
                Rendering.Overlong readings v s ∧ f = .overflow "report of the passes")) ∧
        (s.PassesFit →
          (∀ v, ∃ picture, (t.setViewport v).2 = .ok picture) ∧
          (∃ picture, t.recompute.2 = .ok picture) ∧
          ∀ id readings, ∃ outcome, (t.completeLoad id (.ok readings)).2 = .ok outcome)) := by
  refine ⟨start_isOk_iff, fun hvalid hfits => ?_⟩
  have hv := Settings.validate_eq_ok_iff.mp hvalid
  obtain ⟨session, hstart⟩ := start_isOk_iff.mpr hvalid
  refine ⟨session, hstart, ?_⟩
  rintro events t rfl
  have hsettings : (session.run events).settings = s :=
    (run_settings session events).trans (start_fields hv hstart).1
  refine ⟨fun v f => setViewport_eq_error_iff hv hfits hsettings,
    fun f => recompute_eq_error_iff hv hfits hsettings, fun id response f => ?_,
    fun hpasses => ⟨fun v => ?_, ?_, completeLoad_ok_isOk hv hfits hpasses hsettings⟩⟩
  · rw [completeLoad_eq_error_iff hv hfits hsettings, isStale_eq_false_iff,
      Failure.isLoadFailure_eq_false_iff]
  · have hmoved : { session.run events with viewport := some v }.settings = s := hsettings
    exact recompute_isOk_of_short hv hfits hmoved fun _ _ => Rendering.not_overlong_of_fits hpasses
  · exact recompute_isOk_of_short hv hfits hsettings fun _ _ =>
      Rendering.not_overlong_of_fits hpasses

/-- The standard settings, but with as many passes as a 64-bit number can say. -/
def endless : Settings := { passes := 0xffffffffffffffff }

/-- With the standard settings a reading that lies nowhere does not stop the map; with as many passes as
a 64-bit number can say, one that lies on the globe does. -/
theorem standard_session_takes_nan :
    (({} : Settings).validate = .ok () ∧ ({} : Settings).ZoomFits ∧ ({} : Settings).PassesFit ∧
      ∃ session outcome, start {} = .ok session ∧
        (@completeLoad Exponential.hardware
          (@run Exponential.hardware session [.setViewport ⟨.globe, 3⟩]) 1
          (.ok [⟨⟨.nan false, .infinity true⟩, 1013, 0⟩])).2 = .ok outcome) ∧
    endless.validate = .ok () ∧ endless.ZoomFits ∧
      ∃ session, start endless = .ok session ∧
        (@completeLoad Exponential.hardware
          (@run Exponential.hardware session [.setViewport ⟨.globe, 3⟩]) 1
          (.ok [⟨⟨0, 0⟩, 1013, 0⟩])).2 = .error (.overflow "report of the passes") := by
  constructor
  · have hvalid : ({} : Settings).validate = .ok () := by rfl
    have hfits : ({} : Settings).ZoomFits := by rfl
    have hpasses : ({} : Settings).PassesFit := by decide
    refine ⟨hvalid, hfits, hpasses, ?_⟩
    obtain ⟨session, hstart, hrun⟩ :=
      (@valid_session_succeeds Exponential.hardware {}).2 hvalid hfits
    obtain ⟨-, -, -, hsucceeds⟩ := hrun [.setViewport ⟨.globe, 3⟩] _ rfl
    obtain ⟨outcome, houtcome⟩ :=
      (hsucceeds hpasses).2.2 1 [⟨⟨.nan false, .infinity true⟩, 1013, 0⟩]
    exact ⟨session, outcome, hstart, houtcome⟩
  · have hvalid : endless.validate = .ok () := by rfl
    have hfits : endless.ZoomFits := by rfl
    have hlong : Rendering.Overlong [⟨⟨0, 0⟩, 1013, 0⟩] ⟨.globe, 3⟩ endless := by decide +kernel
    refine ⟨hvalid, hfits, ?_⟩
    obtain ⟨session, hstart, hrun⟩ :=
      (@valid_session_succeeds Exponential.hardware endless).2 hvalid hfits
    obtain ⟨-, -, hload, -⟩ := hrun [.setViewport ⟨.globe, 3⟩] _ rfl
    obtain rfl := Except.ok.inj hstart
    exact ⟨_, hstart, (hload 1 (.ok [⟨⟨0, 0⟩, 1013, 0⟩]) _).mpr
      ⟨fun n hn => (nomatch hn), Or.inr ⟨_, _, rfl, rfl, hlong, rfl⟩⟩⟩

end Session

end Barogrid
