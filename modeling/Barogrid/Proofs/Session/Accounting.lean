import Mathlib
import Barogrid.Proofs.Session.Coherence

/-!
# The counters account for every event

The counters of a session are raised in four places, along paths that return early.  This file says
what one turn adds to them, and from that what they show after a run:

* `turn_adds` -- **what one turn adds to the counters**, for each event;
* `run_accounted` -- so the counters of a run are the numbers of its turns of each kind;
* `tally_total` -- every response has exactly one fate, so that no response is missing from them;
* `counters_account_for_run` -- what this says of sessions with valid settings.
-/

namespace Barogrid.Session

variable {t t' : Session} {events : List Event} {past : List Turn}

/-- The document shows the counters under their names. -/
def ShowsCounters (doc : Json) (m : Metrics) : Prop :=
  ∃ shown, doc.member? "metrics" = some shown ∧
    shown.member? "fetches_total" = some (.ofNat m.fetches) ∧
    shown.member? "fetch_failures" = some (.ofNat m.failures) ∧
    shown.member? "stale_responses" = some (.ofNat m.stale) ∧
    shown.member? "renders_total" = some (.ofNat m.renders) ∧
    shown.member? "cells_drawn" = some (.ofNat m.cellsDrawn)

theorem snapshot_showsCounters (t : Session) (uptime : Nat) :
    ShowsCounters (t.snapshot uptime) t.metrics :=
  ⟨Snapshot.ofMetrics t.metrics uptime, rfl, rfl, rfl, rfl, rfl, rfl⟩

/-! ## 1. Kinds of turns -/

/-- Is the event a response? -/
def Event.isCompletion : Event → Bool
  | .completeLoad .. => true
  | _ => false

/-- Does the event set a viewport? -/
def Event.setsViewport (e : Event) : Bool := e.viewport?.isSome

/-- Is the response that the turn takes in of this fate? -/
def Turn.meets (fate : Fate) (turn : Turn) : Bool := turn.fate? = some fate

/-- Does the turn render anew for the viewport that was there before? -/
def Turn.redraws (turn : Turn) : Bool :=
  (match turn.event with
    | .recompute => true
    | .completeLoad .. => turn.meets .applied
    | .beginLoad | .setViewport _ => false) && turn.session.viewport.isSome

theorem exists_fate (outcome : Except Failure LoadOutcome) :
    ∃ fate, Answer.fate? (.completed outcome) = some fate := by
  cases outcome with
  | error f => exact ⟨.refused, rfl⟩
  | ok outcome =>
    cases outcome with
    | applied readings cells => exact ⟨.applied, rfl⟩
    | stale => exact ⟨.stale, rfl⟩
    | failed message => exact ⟨.failed, rfl⟩

theorem meets_of_fate {turn : Turn} {fate : Fate} (h : turn.fate? = some fate) (other : Fate) :
    turn.meets other = decide (fate = other) := by
  unfold Turn.meets
  simp only [h, Option.some.injEq]

/-- The number of responses with this fate. -/
def tally (past : List Turn) (fate : Fate) : Nat := past.countP (Turn.meets fate)

section

variable {α : Type} (p : α → Bool)

theorem countP_cons_toNat (first : α) (row : List α) :
    (first :: row).countP p = (p first).toNat + row.countP p := by
  rw [List.countP_cons, Nat.add_comm]
  cases p first <;> rfl

theorem countP_concat_toNat (row : List α) (last : α) :
    (row ++ [last]).countP p = row.countP p + (p last).toNat := by
  rw [List.countP_append, countP_cons_toNat]
  rfl

end

/-- A turn that sets a viewport does not render for the one before as well. -/
theorem Turn.redraws_of_setsViewport {turn : Turn} (h : turn.event.setsViewport = true) :
    turn.redraws = false := by
  obtain ⟨session, event, answer⟩ := turn
  cases event with
  | setViewport v => rfl
  | beginLoad => rfl
  | recompute => cases h
  | completeLoad id response => cases h

theorem renders_le_length (past : List Turn) :
    past.countP (·.event.setsViewport) + past.countP Turn.redraws ≤ past.length := by
  induction past with
  | nil => exact Nat.le_refl 0
  | cons turn past ih =>
    have hone : turn.event.setsViewport.toNat + turn.redraws.toNat ≤ 1 := by
      cases hmoves : turn.event.setsViewport with
      | false => exact (Nat.zero_add _).trans_le (Bool.toNat_le turn.redraws)
      | true => rw [Turn.redraws_of_setsViewport hmoves, Bool.toNat_true, Bool.toNat_false]
    rw [countP_cons_toNat, countP_cons_toNat, List.length_cons]
    omega

/-! ## 2. What a turn adds -/

/-- The counters of the session are those that the turn began with, and what belongs to the turn. -/
structure Adds (turn : Turn) (t : Session) : Prop where
  fetches : t.metrics.fetches =
    turn.session.metrics.fetches + (turn.meets .applied).toNat + (turn.meets .failed).toNat
  failures : t.metrics.failures = turn.session.metrics.failures + (turn.meets .failed).toNat
  stale : t.metrics.stale = turn.session.metrics.stale + (turn.meets .stale).toNat
  renders : t.metrics.renders =
    turn.session.metrics.renders + turn.event.setsViewport.toNat + turn.redraws.toNat
  cellsDrawn : turn.session.metrics.cellsDrawn = turn.session.picture.cells.length →
    t.metrics.cellsDrawn = t.picture.cells.length

/-- What a response of the given fate has to add. -/
theorem Adds.of_fate {turn : Turn} {fate : Fate} {id : RequestId}
    {response : Except Failure (List Reading)} (hfate : turn.fate? = some fate)
    (hevent : turn.event = .completeLoad id response)
    (hfetches : t.metrics.fetches = turn.session.metrics.fetches +
      (decide (fate = .applied)).toNat + (decide (fate = .failed)).toNat)
    (hfailures : t.metrics.failures =
      turn.session.metrics.failures + (decide (fate = .failed)).toNat)
    (hstale : t.metrics.stale = turn.session.metrics.stale + (decide (fate = .stale)).toNat)
    (hrenders : t.metrics.renders = turn.session.metrics.renders +
      (decide (fate = .applied) && turn.session.viewport.isSome).toNat)
    (hcells : turn.session.metrics.cellsDrawn = turn.session.picture.cells.length →
      t.metrics.cellsDrawn = t.picture.cells.length) : Adds turn t := by
  refine ⟨?_, ?_, ?_, ?_, hcells⟩
  · rw [meets_of_fate hfate, meets_of_fate hfate]
    exact hfetches
  · rw [meets_of_fate hfate]
    exact hfailures
  · rw [meets_of_fate hfate]
    exact hstale
  · unfold Turn.redraws
    rw [hevent, meets_of_fate hfate]
    exact hrenders

/-- The counters of the session are the numbers of turns of each kind. -/
structure Accounted (past : List Turn) (t : Session) : Prop where
  fetches : t.metrics.fetches = tally past .applied + tally past .failed
  failures : t.metrics.failures = tally past .failed
  stale : t.metrics.stale = tally past .stale
  renders : t.metrics.renders =
    past.countP (·.event.setsViewport) + past.countP Turn.redraws
  cellsDrawn : t.metrics.cellsDrawn = t.picture.cells.length

theorem Accounted.concat {turn : Turn} (h : Accounted past turn.session) (hadds : Adds turn t) :
    Accounted (past ++ [turn]) t := by
  refine ⟨?_, ?_, ?_, ?_, hadds.cellsDrawn h.cellsDrawn⟩
  · rw [hadds.fetches, h.fetches]
    unfold tally
    rw [countP_concat_toNat, countP_concat_toNat]
    omega
  · rw [hadds.failures, h.failures]
    exact (countP_concat_toNat _ past turn).symm
  · rw [hadds.stale, h.stale]
    exact (countP_concat_toNat _ past turn).symm
  · rw [hadds.renders, h.renders, countP_concat_toNat, countP_concat_toNat]
    omega

section

variable [Exponential]

/-- What rendering anew adds to the counters. -/
theorem recompute_adds (hok : ∃ picture, t.recompute.2 = .ok picture) :
    t.recompute.1.metrics.fetches = t.metrics.fetches ∧
    t.recompute.1.metrics.failures = t.metrics.failures ∧
    t.recompute.1.metrics.stale = t.metrics.stale ∧
    t.recompute.1.metrics.renders = t.metrics.renders + t.viewport.isSome.toNat ∧
    (t.metrics.cellsDrawn = t.picture.cells.length →
      t.recompute.1.metrics.cellsDrawn = t.recompute.1.picture.cells.length) := by
  rcases recompute_cases t with ⟨hnone, heq⟩ | ⟨v, r, hv, -, heq⟩ | ⟨v, f, -, -, heq⟩
  · rw [heq, hnone]
    exact ⟨rfl, rfl, rfl, rfl, id⟩
  · rw [heq, hv]
    exact ⟨rfl, rfl, rfl, rfl, fun _ => rfl⟩
  · obtain ⟨picture, hpicture⟩ := hok
    rw [heq] at hpicture
    cases hpicture

/-- **What one turn adds to the counters.** -/
theorem turn_adds {e : Event} (h : (t.turn e).GoesOn) : Adds (t.turn e) (t.step e).1 := by
  cases e with
  | beginLoad => exact ⟨rfl, rfl, rfl, rfl, id⟩
  | setViewport v =>
    obtain ⟨hfetches, hfailures, hstale, hrenders, hcells⟩ := recompute_adds (h.isOk rfl)
    exact ⟨hfetches, hfailures, hstale, hrenders, hcells⟩
  | recompute =>
    obtain ⟨hfetches, hfailures, hstale, hrenders, hcells⟩ := recompute_adds (h.isOk rfl)
    exact ⟨hfetches, hfailures, hstale, hrenders, hcells⟩
  | completeLoad id response =>
    show Adds _ (t.completeLoad id response).1
    rcases completeLoad_fate_cases h with
      ⟨hfate, -, heq⟩ | ⟨readings, hfate, hfresh, rfl, heq⟩ | ⟨f, hfate, -, -, heq⟩ | ⟨hfate, -, heq⟩
    · rw [heq]
      exact .of_fate hfate rfl rfl rfl rfl rfl fun hcells => hcells
    · rw [heq]
      obtain ⟨hfetches, hfailures, hstale, hrenders, hcells⟩ :=
        recompute_adds (h.isOk (staged_of_fresh hfresh readings))
      exact .of_fate hfate rfl hfetches hfailures hstale hrenders hcells
    · rw [heq]
      exact .of_fate hfate rfl rfl rfl rfl rfl fun hcells => hcells
    · rw [heq]
      exact .of_fate hfate rfl rfl rfl rfl rfl fun hcells => hcells

/-! ## 3. Runs -/

/-- **The counters of a run are the numbers of its turns of each kind.** -/
theorem run_accounted (h : t.settings.Valid) (hunbroken : Unbroken t events)
    (hstart : Accounted [] t) : Accounted (t.turns events) (t.run events) :=
  turns_induction (P := Accounted) (fun _ _ _ hgoes hpast => hpast.concat (turn_adds hgoes))
    h hunbroken hstart

/-- A response has exactly one fate, and nothing else has one. -/
theorem meets_total (t : Session) (e : Event) :
    ((t.turn e).meets .applied).toNat + ((t.turn e).meets .failed).toNat +
      ((t.turn e).meets .stale).toNat + ((t.turn e).meets .refused).toNat =
        e.isCompletion.toNat := by
  cases e with
  | beginLoad => rfl
  | setViewport v => rfl
  | recompute => rfl
  | completeLoad id response =>
    obtain ⟨fate, hfate⟩ := exists_fate (t.completeLoad id response).2
    have hturn : (t.turn (.completeLoad id response)).fate? = some fate := hfate
    rw [meets_of_fate hturn, meets_of_fate hturn, meets_of_fate hturn, meets_of_fate hturn]
    cases fate <;> rfl

/-- **No response is missing from the four tallies of a run.** -/
theorem tally_total (t : Session) (events : List Event) :
    tally (t.turns events) .applied + tally (t.turns events) .failed +
      tally (t.turns events) .stale + tally (t.turns events) .refused =
        events.countP Event.isCompletion := by
  induction events generalizing t with
  | nil => rfl
  | cons e events ih =>
    have hcons : ∀ fate, tally (t.turns (e :: events)) fate =
        ((t.turn e).meets fate).toNat + tally ((t.step e).1.turns events) fate := fun _ =>
      countP_cons_toNat _ _ _
    have hrest := ih (t.step e).1
    have hone := meets_total t e
    rw [hcons, hcons, hcons, hcons, countP_cons_toNat]
    omega

theorem countP_setsViewport (t : Session) (events : List Event) :
    (t.turns events).countP (·.event.setsViewport) = events.countP Event.setsViewport := by
  have hmap := congrArg (List.countP Event.setsViewport) (map_event_turns t events)
  rw [List.countP_map] at hmap
  exact hmap

/-! ## 4. Sessions with valid settings -/

/-- **The counters account for every event.**  In every unbroken run of a session with valid settings:
the fetches are the responses that were applied or failed, the failures those that failed, and the
stale ones those that were stale; together with the responses that handed on another failure, these
are all.  The renderings are the viewports set, and the recomputations and the responses applied
while there was a viewport.  The cells drawn are those of the picture.  The counts are no greater than
the number of events, so that 64 bits hold them, and every snapshot shows them as they are. -/
theorem counters_account_for_run {s : Settings} (hvalid : s.validate = .ok ()) :
    ∃ session, start s = .ok session ∧
      (s.ZoomFits → s.PassesFit → ∀ events, Unbroken session events) ∧
      ∀ events, Unbroken session events →
        ∀ past, past = session.turns events → ∀ t, t = session.run events →
          t.metrics.fetches = tally past .applied + tally past .failed ∧
          t.metrics.failures = tally past .failed ∧
          t.metrics.stale = tally past .stale ∧
          t.metrics.fetches + t.metrics.stale + tally past .refused =
            events.countP Event.isCompletion ∧
          t.metrics.renders = events.countP Event.setsViewport + past.countP Turn.redraws ∧
          t.metrics.cellsDrawn = t.picture.cells.length ∧
          t.metrics.fetches + t.metrics.stale ≤ events.length ∧
          t.metrics.renders ≤ events.length ∧
          ∀ uptime, ShowsCounters (t.snapshot uptime) t.metrics := by
  have hv := Settings.validate_eq_ok_iff.mp hvalid
  obtain ⟨session, hstart⟩ := start_isOk_iff.mpr hvalid
  have hbegin : Accounted [] session := by
    rw [start_of_valid hv] at hstart
    rw [← Except.ok.inj hstart]
    exact ⟨rfl, rfl, rfl, rfl, rfl⟩
  refine ⟨session, hstart, start_unbroken hv hstart, ?_⟩
  rintro events hunbroken past rfl t rfl
  have haccounted := run_accounted (start_valid hv hstart) hunbroken hbegin
  have htotal := tally_total session events
  have hsum : (session.run events).metrics.fetches + (session.run events).metrics.stale +
      tally (session.turns events) .refused = events.countP Event.isCompletion := by
    rw [haccounted.fetches, haccounted.stale, htotal]
  have hlength : (session.turns events).length = events.length := by
    rw [← List.length_map (f := Turn.event), map_event_turns]
  refine ⟨haccounted.fetches, haccounted.failures, haccounted.stale, hsum, ?_,
    haccounted.cellsDrawn, ?_, ?_, snapshot_showsCounters _⟩
  · rw [haccounted.renders, countP_setsViewport]
  · have hcompletions : events.countP Event.isCompletion ≤ events.length := List.countP_le_length
    omega
  · rw [haccounted.renders, ← hlength]
    exact renders_le_length _

end

/-- A run in which a response is applied, one is stale, one has failed and one is refused. -/
def everyFate : List Event :=
  [.recompute, .beginLoad, .completeLoad 1 (.ok []), .setViewport ⟨.globe, 3⟩,
    .completeLoad 1 (.ok []), .completeLoad 2 (.error (.transport "")),
    .completeLoad 3 (.error (.settings "")), .completeLoad 3 (.ok []), .recompute]

/-- With the standard settings, a run through every fate is counted in full. -/
theorem standard_session_counts_every_fate :
    ({} : Settings).validate = .ok () ∧
    ∃ session, start {} = .ok session ∧ @Unbroken Exponential.hardware session everyFate ∧
      ∀ t, t = @run Exponential.hardware session everyFate →
        t.metrics.fetches = 3 ∧ t.metrics.failures = 1 ∧ t.metrics.stale = 1 ∧
          t.metrics.renders = 3 := by
  have hvalid : ({} : Settings).validate = .ok () := by rfl
  refine ⟨hvalid, ?_⟩
  obtain ⟨session, hstart, hunbroken, hrun⟩ :=
    @counters_account_for_run Exponential.hardware {} hvalid
  have hgoes := hunbroken rfl (by decide) everyFate
  refine ⟨session, hstart, hgoes, ?_⟩
  rintro t rfl
  obtain ⟨hfetches, hfailures, hstale, -, hrenders, -⟩ :=
    hrun everyFate hgoes _ rfl _ rfl
  rw [hfetches, hfailures, hstale, hrenders]
  obtain rfl := Except.ok.inj hstart
  exact ⟨rfl, rfl, rfl, rfl⟩

end Barogrid.Session
