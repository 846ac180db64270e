import Mathlib
import Barogrid.Proofs.Rendering
import Barogrid.Proofs.Session.Step

/-!
# Runs, turn by turn

A run is told by its turns: the session that an event came to, the event, and the answer.  A response
has one of four fates, which the answer shows.

An event that changes what is to be seen has the picture rendered anew (`staged`).  Where a number does
not fit its field then, the program stops, and there is no run that goes on after it.  So what is said of
runs is said of those that are not broken off:

* `Turn.stops`, `Unbroken` -- **the program stops in no turn of the run**;
* `stops_eq` -- it stops where the session staged cannot be rendered;
* `recompute_eq_error_iff` -- with valid settings whose zoom levels fit, only too many passes stop it;
* `unbroken_of_fits` -- **so settings whose zoom levels and passes fit break off no run**;
* `turns_induction` -- what every turn keeps holds at the end of an unbroken run;
* `completeLoad_fate_cases` -- **the four fates of a response**, and what the session is after each.
-/

namespace Barogrid.Session

variable {t t' : Session} {e : Event} {events : List Event}

/-! ## 1. Turns -/

/-- An event of a run, with the session that it came to and its answer. -/
structure Turn where
  session : Session
  event : Event
  answer : Answer

/-- What becomes of a response. -/
inductive Fate where
  | applied
  | stale
  | failed
  /-- The failure that the response brought is handed on. -/
  | refused
deriving DecidableEq

/-- The fate of a response, if the answer is to one. -/
def Answer.fate? : Answer → Option Fate
  | .completed (.ok (.applied ..)) => some .applied
  | .completed (.ok .stale) => some .stale
  | .completed (.ok (.failed _)) => some .failed
  | .completed (.error _) => some .refused
  | .begun _ | .rendered _ => none

/-- The fate of the response that the turn takes in. -/
def Turn.fate? (turn : Turn) : Option Fate := turn.answer.fate?

/-- The turn of an event. -/
def turn [Exponential] (t : Session) (e : Event) : Turn := ⟨t, e, (t.step e).2⟩

/-- The turns of a run. -/
def turns [Exponential] (t : Session) : List Event → List Turn
  | [] => []
  | e :: events => t.turn e :: (t.step e).1.turns events

theorem run_append [Exponential] (t : Session) (before after : List Event) :
    t.run (before ++ after) = (t.run before).run after := List.foldl_append

theorem turns_append [Exponential] (t : Session) (before after : List Event) :
    t.turns (before ++ after) = t.turns before ++ (t.run before).turns after := by
  induction before generalizing t with
  | nil => rfl
  | cons e before ih => exact congrArg (t.turn e :: ·) (ih (t.step e).1)

theorem map_event_turns [Exponential] (t : Session) (events : List Event) :
    (t.turns events).map Turn.event = events := by
  induction events generalizing t with
  | nil => rfl
  | cons e events ih => exact congrArg (e :: ·) (ih (t.step e).1)

/-! ## 2. Runs that are not broken off -/

/-- Did a number not fit its field?  The program does not go on after that. -/
def overflows {α : Type} : Except Failure α → Bool
  | .error (.overflow _) => true
  | _ => false

theorem overflows_map {α β : Type} (g : α → β) (r : Except Failure α) :
    overflows (r.map g) = overflows r := by
  cases r with
  | ok a => rfl
  | error f => cases f <;> rfl

/-- Does the program stop in the turn?  A response that brings a failure with it does not stop it. -/
def Turn.stops (turn : Turn) : Bool :=
  match turn.event, turn.answer with
  | .completeLoad _ (.ok _), .completed outcome => overflows outcome
  | _, .rendered picture => overflows picture
  | _, _ => false

/-- The program stops in no turn of the run. -/
def Unbroken [Exponential] (t : Session) (events : List Event) : Prop :=
  ∀ turn ∈ t.turns events, turn.stops = false

/-- The session that an event has rendered anew. -/
def staged (t : Session) : Event → Option Session
  | .beginLoad => none
  | .completeLoad id (.ok readings) => if t.isStale id then none else some (t.accept id readings)
  | .completeLoad _ (.error _) => none
  | .setViewport v => some { t with viewport := some v }
  | .recompute => some t

theorem staged_of_fresh {id : RequestId} (h : t.isStale id = false) (readings : List Reading) :
    t.staged (.completeLoad id (.ok readings)) = some (t.accept id readings) := by
  rw [staged, h]
  rfl

theorem staged_settings (h : t.staged e = some t') : t'.settings = t.settings := by
  unfold staged at h
  split at h
  · cases h
  · split at h
    · cases h
    · rw [← Option.some.inj h]
      rfl
  · cases h
  · rw [← Option.some.inj h]
  · rw [← Option.some.inj h]

section

variable [Exponential]

theorem unbroken_nil (t : Session) : Unbroken t [] := fun _ h => absurd h List.not_mem_nil

theorem unbroken_cons :
    Unbroken t (e :: events) ↔ (t.turn e).stops = false ∧ Unbroken (t.step e).1 events :=
  List.forall_mem_cons

theorem unbroken_append {before after : List Event} :
    Unbroken t (before ++ after) ↔ Unbroken t before ∧ Unbroken (t.run before) after := by
  unfold Unbroken
  rw [turns_append, List.forall_mem_append]

/-- **The program stops exactly where the session staged cannot be rendered for an overflow.** -/
theorem stops_eq (t : Session) (e : Event) :
    (t.turn e).stops = (t.staged e).any fun t' => overflows t'.recompute.2 := by
  cases e with
  | beginLoad => rfl
  | setViewport v => rfl
  | recompute => rfl
  | completeLoad id response =>
    cases response with
    | error f => rfl
    | ok readings =>
      show overflows (t.completeLoad id (.ok readings)).2 = _
      rcases completeLoad_cases t id (.ok readings) with
        ⟨hstale, heq⟩ | ⟨hfresh, ⟨readings', hok, heq⟩ | ⟨f, herror, -, -⟩ | ⟨f, herror, -, -⟩⟩
      · rw [heq, staged, hstale]
        rfl
      · rw [heq, overflows_map, staged_of_fresh hfresh, Except.ok.inj hok]
        rfl
      · cases herror
      · cases herror

/-! ## 3. What stops the program -/

variable {s : Settings}

/-- With valid settings, rendering anew succeeds where the program does not stop. -/
theorem recompute_isOk (hvalid : t.settings.Valid) (h : overflows t.recompute.2 = false) :
    ∃ picture, t.recompute.2 = .ok picture := by
  rcases recompute_cases t with ⟨-, heq⟩ | ⟨v, r, -, -, heq⟩ | ⟨v, f, -, hf, heq⟩
  · exact ⟨_, congrArg Prod.snd heq⟩
  · exact ⟨_, congrArg Prod.snd heq⟩
  · rw [heq] at h
    rcases (Rendering.of_eq_error_iff hvalid).mp hf with ⟨-, rfl⟩ | ⟨-, -, rfl⟩
    · cases h
    · cases h

/-- **With valid settings whose zoom levels fit, only too many passes stop the program.** -/
theorem recompute_eq_error_iff (hvalid : s.Valid) (hfits : s.ZoomFits) (hsettings : t.settings = s)
    {f : Failure} :
    t.recompute.2 = .error f ↔
      (∃ v, t.viewport = some v ∧ Rendering.Overlong t.readings v s) ∧
        f = .overflow "report of the passes" := by
  have hrender : ∀ v, Rendering.of t.readings v t.settings t.gradient = .error f ↔
      Rendering.Overlong t.readings v s ∧ f = .overflow "report of the passes" := by
    intro v
    obtain ⟨n, hkey⟩ := Resolution.exists_keyLength hvalid hfits v.zoom
    rw [hsettings, Rendering.of_eq_error_iff hvalid]
    simp [hkey]
  rcases recompute_cases t with ⟨hnone, heq⟩ | ⟨v, r, hv, hr, heq⟩ | ⟨v, f', hv, hf, heq⟩
  · simp [heq, hnone]
  · have hnot := hrender v
    rw [hr] at hnot
    simpa [heq, hv] using hnot
  · have herror := hrender v
    rw [hf] at herror
    simpa [heq, hv] using herror

theorem recompute_isOk_of_short (hvalid : s.Valid) (hfits : s.ZoomFits) (hsettings : t.settings = s)
    (hshort : ∀ v, t.viewport = some v → ¬ Rendering.Overlong t.readings v s) :
    ∃ picture, t.recompute.2 = .ok picture := by
  cases hanswer : t.recompute.2 with
  | ok picture => exact ⟨picture, rfl⟩
  | error f =>
    obtain ⟨⟨v, hv, hlong⟩, -⟩ := (recompute_eq_error_iff hvalid hfits hsettings).mp hanswer
    exact absurd hlong (hshort v hv)

/-- **So settings whose zoom levels and passes fit break off no run.** -/
theorem unbroken_of_fits (hvalid : s.Valid) (hfits : s.ZoomFits) (hpasses : s.PassesFit)
    (hsettings : t.settings = s) (events : List Event) : Unbroken t events := by
  induction events generalizing t with
  | nil => exact unbroken_nil t
  | cons e events ih =>
    refine unbroken_cons.mpr ⟨?_, ih ((step_settings t e).trans hsettings)⟩
    rw [stops_eq]
    cases hstaged : t.staged e with
    | none => rfl
    | some t' =>
      have hsettings' : t'.settings = s := (staged_settings hstaged).trans hsettings
      obtain ⟨picture, hpicture⟩ := recompute_isOk_of_short hvalid hfits hsettings'
        fun _ _ => Rendering.not_overlong_of_fits hpasses
      exact congrArg overflows hpicture

theorem start_unbroken (h : s.Valid) (hstart : start s = .ok t) (hfits : s.ZoomFits)
    (hpasses : s.PassesFit) (events : List Event) : Unbroken t events :=
  unbroken_of_fits h hfits hpasses (start_fields h hstart).1 events

/-- The turn is one of a session with valid settings, and the program goes on after it. -/
structure Turn.GoesOn (turn : Turn) : Prop where
  valid : turn.session.settings.Valid
  goes : turn.stops = false

/-- In such a turn, what is rendered anew succeeds. -/
theorem Turn.GoesOn.isOk (h : (t.turn e).GoesOn) (hstaged : t.staged e = some t') :
    ∃ picture, t'.recompute.2 = .ok picture := by
  have hvalid : t.settings.Valid := h.valid
  rw [← staged_settings hstaged] at hvalid
  have hgoes := h.goes
  rw [stops_eq, hstaged] at hgoes
  exact recompute_isOk hvalid hgoes

/-- **What every turn keeps holds at the end of an unbroken run**, of all its turns and of the session
then. -/
theorem turns_induction {P : List Turn → Session → Prop}
    (hstep : ∀ past t e, (t.turn e).GoesOn → P past t → P (past ++ [t.turn e]) (t.step e).1)
    (hvalid : t.settings.Valid) (hunbroken : Unbroken t events) (h : P [] t) :
    P (t.turns events) (t.run events) := by
  suffices hpast : ∀ past, P past t → P (past ++ t.turns events) (t.run events) from hpast [] h
  clear h
  induction events generalizing t with
  | nil =>
    intro past h
    rw [show t.turns [] = [] from rfl, List.append_nil]
    exact h
  | cons e events ih =>
    intro past h
    obtain ⟨hgoes, hrest⟩ := unbroken_cons.mp hunbroken
    have hend := ih (run_valid hvalid [e]) hrest _ (hstep past t e ⟨hvalid, hgoes⟩ h)
    rw [List.append_assoc] at hend
    exact hend

/-! ## 4. The four fates of a response -/

/-- **All that a response can do in a run that goes on.** -/
theorem completeLoad_fate_cases {id : RequestId} {response : Except Failure (List Reading)}
    (h : (t.turn (.completeLoad id response)).GoesOn) :
    ((t.turn (.completeLoad id response)).fate? = some .stale ∧ t.isStale id = true ∧
      (t.completeLoad id response).1 = t.discard) ∨
    (∃ readings, (t.turn (.completeLoad id response)).fate? = some .applied ∧
      t.isStale id = false ∧ response = .ok readings ∧
      (t.completeLoad id response).1 = (t.accept id readings).recompute.1) ∨
    (∃ f, (t.turn (.completeLoad id response)).fate? = some .failed ∧ t.isStale id = false ∧
      response = .error f ∧ (t.completeLoad id response).1 = t.fail f) ∨
    ((t.turn (.completeLoad id response)).fate? = some .refused ∧ t.isStale id = false ∧
      (t.completeLoad id response).1 = t) := by
  have hfate : (t.turn (.completeLoad id response)).fate? =
      Answer.fate? (.completed (t.completeLoad id response).2) := rfl
  rcases completeLoad_cases t id response with
    ⟨hstale, heq⟩ | ⟨hfresh, ⟨readings, rfl, heq⟩ | ⟨f, hf, -, heq⟩ | ⟨f, -, -, heq⟩⟩
  · rw [hfate, heq]
    exact Or.inl ⟨rfl, hstale, rfl⟩
  · obtain ⟨picture, hpicture⟩ := h.isOk (staged_of_fresh hfresh readings)
    rw [hfate, heq, hpicture]
    exact Or.inr (Or.inl ⟨readings, rfl, hfresh, rfl, rfl⟩)
  · rw [hfate, heq]
    exact Or.inr (Or.inr (Or.inl ⟨f, rfl, hfresh, hf, rfl⟩))
  · rw [hfate, heq]
    exact Or.inr (Or.inr (Or.inr ⟨rfl, hfresh, rfl⟩))

/-- Only a response that is applied changes the readings and their number. -/
theorem step_keeps_of_not_applied (h : (t.turn e).GoesOn)
    (hnot : (t.turn e).fate? ≠ some .applied) :
    (t.step e).1.newest = t.newest ∧ (t.step e).1.readings = t.readings := by
  cases e with
  | beginLoad => exact ⟨rfl, rfl⟩
  | setViewport v =>
    have hkeeps := recompute_keeps { t with viewport := some v }
    exact ⟨hkeeps.newest, hkeeps.readings⟩
  | recompute => exact ⟨(recompute_keeps t).newest, (recompute_keeps t).readings⟩
  | completeLoad id response =>
    show (t.completeLoad id response).1.newest = _ ∧ (t.completeLoad id response).1.readings = _
    rcases completeLoad_fate_cases h with
      ⟨-, -, heq⟩ | ⟨readings, hfate, -, -, -⟩ | ⟨f, -, -, -, heq⟩ | ⟨-, -, heq⟩
    · rw [heq]
      exact ⟨rfl, rfl⟩
    · exact absurd hfate hnot
    · rw [heq]
      exact ⟨rfl, rfl⟩
    · rw [heq]
      exact ⟨rfl, rfl⟩

end

end Barogrid.Session
