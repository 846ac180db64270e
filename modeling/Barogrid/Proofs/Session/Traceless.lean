import Mathlib
import Barogrid.Proofs.Session.Turns

/-!
# Responses that are not applied leave no trace

The state of loading and the counters are the only parts of a session that no event reads.  A response
that is not applied changes nothing else, so the rest of the run is as if it had never arrived.

* `bare` -- a session without these two parts;
* `step_bare` -- **what an event does to the rest, and its answer, depend on the rest alone**;
* `step_rejected` -- **a response that is not applied leaves the rest as it is**;
* `run_withoutRejected` -- both together, over a run: without those responses it ends in the same bare
  session, and the other events are answered as before;
* `unbroken_withoutRejected` -- nor does the program stop without them;
* `rejected_leave_no_trace` -- what this says of sessions with valid settings.
-/

namespace Barogrid.Session

variable {t t' : Session} {events : List Event}

/-! ## 1. Bare sessions -/

/-- The session without the state of loading and the counters. -/
def bare (t : Session) : Session := { t with loadState := .idle, metrics := {} }

/-- The two sessions show the same map, and number and judge the next loads alike. -/
structure SameMap (t t' : Session) : Prop where
  readings : t.readings = t'.readings
  viewport : t.viewport = t'.viewport
  picture : t.picture = t'.picture
  keyLength : t.keyLength = t'.keyLength
  newest : t.newest = t'.newest
  begun : t.begun = t'.begun

theorem sameMap_of_bare (h : t.bare = t'.bare) : t.SameMap t' := by
  simp only [bare, mk.injEq] at h
  obtain ⟨-, -, hreadings, hviewport, hpicture, hlength, -, hbegun, hnewest, -⟩ := h
  exact ⟨hreadings, hviewport, hpicture, hlength, hnewest, hbegun⟩

/-- Does the answer say that a response was not applied? -/
def Answer.isRejection (a : Answer) : Bool := a.fate?.any (· ≠ .applied)

theorem Answer.isRejection_iff {a : Answer} :
    a.isRejection = true ↔ ∃ fate, a.fate? = some fate ∧ fate ≠ .applied := by
  unfold isRejection
  rw [Option.any_eq_true]
  simp

/-- What went to and fro in the turn. -/
def Turn.exchange (turn : Turn) : Event × Answer := (turn.event, turn.answer)

/-- It shows whether the program stops. -/
theorem Turn.stops_eq_of_exchange {turn turn' : Turn} (h : turn.exchange = turn'.exchange) :
    turn.stops = turn'.stops := by
  obtain ⟨hevent, hanswer⟩ := Prod.ext_iff.mp h
  have hevent : turn.event = turn'.event := hevent
  have hanswer : turn.answer = turn'.answer := hanswer
  unfold stops
  rw [hevent, hanswer]

/-- The turns in which no response was rejected. -/
def unrejected (past : List Turn) : List Turn := past.filter fun turn => !turn.answer.isRejection

section

variable [Exponential]

/-! ## 2. One event -/

theorem recompute_bare (t : Session) :
    t.bare.recompute.1.bare = t.recompute.1.bare ∧ t.bare.recompute.2 = t.recompute.2 := by
  rcases recompute_cases t with ⟨hv, heq⟩ | ⟨v, r, hv, hr, heq⟩ | ⟨v, f, hv, hf, heq⟩
  · have hbare : t.bare.recompute = (t.bare, .ok t.picture) := by
      have hv' : t.bare.viewport = none := hv
      unfold recompute
      rw [hv']
      rfl
    rw [hbare, heq]
    exact ⟨rfl, rfl⟩
  · have hbare : t.bare.recompute = (t.bare.adopt r, .ok r.picture) := by
      have hv' : t.bare.viewport = some v := hv
      have hr' : Rendering.of t.bare.readings v t.bare.settings t.bare.gradient = .ok r := hr
      unfold recompute
      simp only [hv', hr']
    rw [hbare, heq]
    exact ⟨rfl, rfl⟩
  · have hbare : t.bare.recompute = (t.bare, .error f) := by
      have hv' : t.bare.viewport = some v := hv
      have hf' : Rendering.of t.bare.readings v t.bare.settings t.bare.gradient = .error f := hf
      unfold recompute
      simp only [hv', hf']
    rw [hbare, heq]
    exact ⟨rfl, rfl⟩

/-- Sessions that are alike but for loading and counting are rendered alike. -/
theorem recompute_congr (h : t.bare = t'.bare) :
    t.recompute.1.bare = t'.recompute.1.bare ∧ t.recompute.2 = t'.recompute.2 := by
  obtain ⟨hsession, hanswer⟩ := recompute_bare t
  obtain ⟨hsession', hanswer'⟩ := recompute_bare t'
  rw [← hsession, ← hanswer, h]
  exact ⟨hsession', hanswer'⟩

theorem completeLoad_bare (t : Session) (id : RequestId)
    (response : Except Failure (List Reading)) :
    (t.bare.completeLoad id response).1.bare = (t.completeLoad id response).1.bare ∧
      (t.bare.completeLoad id response).2 = (t.completeLoad id response).2 := by
  unfold completeLoad
  rw [show t.bare.isStale id = t.isStale id from rfl]
  cases t.isStale id with
  | true => exact ⟨rfl, rfl⟩
  | false =>
    cases response with
    | ok readings =>
      have haccepted : (t.bare.accept id readings).bare = (t.accept id readings).bare := rfl
      obtain ⟨hsession, hanswer⟩ := recompute_congr haccepted
      exact ⟨hsession, congrArg (Except.map (appliedOutcome readings)) hanswer⟩
    | error f =>
      cases hf : f.isLoadFailure with
      | true => simp [hf, bare]
      | false => simp [hf, bare]

/-- **What an event does to the rest, and its answer, depend on the rest alone.** -/
theorem step_bare (t : Session) (e : Event) :
    (t.bare.step e).1.bare = (t.step e).1.bare ∧ (t.bare.step e).2 = (t.step e).2 := by
  cases e with
  | beginLoad => exact ⟨rfl, rfl⟩
  | completeLoad id response =>
    obtain ⟨hsession, hanswer⟩ := completeLoad_bare t id response
    exact ⟨hsession, congrArg Answer.completed hanswer⟩
  | setViewport v =>
    obtain ⟨hsession, hanswer⟩ := recompute_bare { t with viewport := some v }
    exact ⟨hsession, congrArg Answer.rendered hanswer⟩
  | recompute =>
    obtain ⟨hsession, hanswer⟩ := recompute_bare t
    exact ⟨hsession, congrArg Answer.rendered hanswer⟩

theorem step_congr (h : t.bare = t'.bare) (e : Event) :
    (t.step e).1.bare = (t'.step e).1.bare ∧ (t.step e).2 = (t'.step e).2 := by
  obtain ⟨hsession, hanswer⟩ := step_bare t e
  rw [← hsession, ← hanswer, h]
  exact step_bare t' e

/-- **A response that is not applied leaves the rest as it is.** -/
theorem step_rejected {e : Event} (h : (t.turn e).GoesOn)
    (hrejected : (t.step e).2.isRejection = true) : (t.step e).1.bare = t.bare := by
  obtain ⟨fate, hfate, hnot⟩ := Answer.isRejection_iff.mp hrejected
  cases e with
  | beginLoad => exact nomatch hfate
  | setViewport v => exact nomatch hfate
  | recompute => exact nomatch hfate
  | completeLoad id response =>
    show (t.completeLoad id response).1.bare = t.bare
    rcases completeLoad_fate_cases h with
      ⟨-, -, heq⟩ | ⟨readings, happlied, -, -, -⟩ | ⟨f, -, -, -, heq⟩ | ⟨-, -, heq⟩
    · rw [heq]
      rfl
    · have hsame := hfate.symm.trans happlied
      exact absurd (Option.some.inj hsame) hnot
    · rw [heq]
      rfl
    · rw [heq]

/-! ## 3. Runs -/

/-- What was not rejected of the past leads from `start` to the bare session `t`, by the same
answers. -/
structure Replays (start : Session) (past : List Turn) (t : Session) : Prop where
  session : (start.run ((unrejected past).map Turn.event)).bare = t.bare
  answers : (start.turns ((unrejected past).map Turn.event)).map Turn.exchange =
    (unrejected past).map Turn.exchange

theorem replays_step {start : Session} {past : List Turn} {e : Event} (h : Replays start past t)
    (hgoes : (t.turn e).GoesOn) : Replays start (past ++ [t.turn e]) (t.step e).1 := by
  have hpast : unrejected (past ++ [t.turn e]) = unrejected past ++ unrejected [t.turn e] :=
    List.filter_append past [t.turn e]
  cases hrejected : (t.step e).2.isRejection with
  | true =>
    have hnone : unrejected [t.turn e] = [] := by
      simp [unrejected, turn, hrejected]
    rw [hnone, List.append_nil] at hpast
    refine ⟨?_, ?_⟩
    · rw [hpast, h.session, step_rejected hgoes hrejected]
    · rw [hpast, h.answers]
  | false =>
    have hone : unrejected [t.turn e] = [t.turn e] := by
      simp [unrejected, turn, hrejected]
    rw [hone] at hpast
    -- the event comes to sessions that are alike, and so do its answers
    obtain ⟨hsession, hanswer⟩ := step_congr h.session e
    refine ⟨?_, ?_⟩
    · rw [hpast, List.map_append, run_append]
      exact hsession
    · rw [hpast, List.map_append, turns_append, List.map_append, List.map_append, h.answers]
      exact congrArg (fun a => (unrejected past).map Turn.exchange ++ [(e, a)]) hanswer

/-- The events of a run, but for the responses that are rejected in it. -/
def withoutRejected (t : Session) (events : List Event) : List Event :=
  (unrejected (t.turns events)).map Turn.event

/-- **Without the rejected responses a run ends in the same bare session**, and the other events are
answered as before. -/
theorem run_withoutRejected (h : t.settings.Valid) (hunbroken : Unbroken t events) :
    Replays t (t.turns events) (t.run events) :=
  turns_induction (fun _ _ _ hgoes hpast => replays_step hpast hgoes) h hunbroken ⟨rfl, rfl⟩

/-- **Without those responses the run is unbroken as well**: its answers are those of the other. -/
theorem unbroken_withoutRejected (h : t.settings.Valid) (hunbroken : Unbroken t events) :
    Unbroken t (t.withoutRejected events) := by
  intro turn hturn
  have hexchange : turn.exchange ∈ (unrejected (t.turns events)).map Turn.exchange := by
    rw [← (run_withoutRejected h hunbroken).answers]
    exact List.mem_map_of_mem hturn
  obtain ⟨turn', hturn', hsame⟩ := List.mem_map.mp hexchange
  rw [Turn.stops_eq_of_exchange hsame.symm]
  exact hunbroken turn' (List.mem_of_mem_filter hturn')

/-! ## 4. What a state of loading says -/

/-- The number of readings that the state of loading tells is right, and there are none before a
response is applied. -/
structure Truthful (past : List Turn) (t : Session) : Prop where
  loaded : ∀ n, t.loadState = .loaded n → n = t.readings.length
  blank : (∀ turn ∈ past, turn.fate? ≠ some .applied) → t.readings = []

theorem recompute_loaded (h : ∀ n, t.loadState = .loaded n → n = t.readings.length) :
    ∀ n, t.recompute.1.loadState = .loaded n → n = t.recompute.1.readings.length := by
  rw [(recompute_keeps t).loadState, (recompute_keeps t).readings]
  exact h

theorem step_loaded {e : Event} (hgoes : (t.turn e).GoesOn)
    (h : ∀ n, t.loadState = .loaded n → n = t.readings.length) :
    ∀ n, (t.step e).1.loadState = .loaded n → n = (t.step e).1.readings.length := by
  cases e with
  | beginLoad => exact fun n hn => nomatch hn
  | setViewport v => exact recompute_loaded (t := { t with viewport := some v }) h
  | recompute => exact recompute_loaded h
  | completeLoad id response =>
    show ∀ n, (t.completeLoad id response).1.loadState = .loaded n →
      n = (t.completeLoad id response).1.readings.length
    rcases completeLoad_fate_cases hgoes with
      ⟨-, -, heq⟩ | ⟨readings, -, -, -, heq⟩ | ⟨f, -, -, -, heq⟩ | ⟨-, -, heq⟩
    · rw [heq]
      exact h
    · rw [heq]
      exact recompute_loaded (t := t.accept id readings) fun n hn => (LoadState.loaded.inj hn).symm
    · rw [heq]
      exact fun n hn => nomatch hn
    · rw [heq]
      exact h

theorem truthful_step {past : List Turn} {e : Event} (h : Truthful past t)
    (hgoes : (t.turn e).GoesOn) : Truthful (past ++ [t.turn e]) (t.step e).1 := by
  refine ⟨step_loaded hgoes h.loaded, fun hnone => ?_⟩
  have hnot : (t.turn e).fate? ≠ some .applied :=
    hnone _ (List.mem_append_right past List.mem_cons_self)
  rw [(step_keeps_of_not_applied hgoes hnot).2]
  exact h.blank fun turn hturn => hnone turn (List.mem_append_left _ hturn)

theorem run_truthful (h : t.settings.Valid) (hunbroken : Unbroken t events)
    (hstart : Truthful [] t) : Truthful (t.turns events) (t.run events) :=
  turns_induction (P := Truthful) (fun _ _ _ hgoes hpast => truthful_step hpast hgoes)
    h hunbroken hstart

/-! ## 5. Sessions with valid settings -/

/-- **Responses that are not applied leave no trace on the map.**  Of an unbroken run of a session with
valid settings, leave out the responses that were stale, failed or were refused: the rest of the run
ends with the same map, and with the same numbers of loads, and each of its events is answered as
before.  All along both runs the state of loading tells the number of the readings that are there, and
there are none before a response is applied. -/
theorem rejected_leave_no_trace {s : Settings} (hvalid : s.validate = .ok ()) :
    ∃ session, start s = .ok session ∧
      (s.ZoomFits → s.PassesFit → ∀ events, Unbroken session events) ∧
      ∀ events, Unbroken session events → ∀ rest, rest = session.withoutRejected events →
        (session.run rest).SameMap (session.run events) ∧
        (session.turns rest).map Turn.exchange =
          (unrejected (session.turns events)).map Turn.exchange ∧
        ∀ row, row = events ∨ row = rest → ∀ before, before <+: row →
          Truthful (session.turns before) (session.run before) := by
  have hv := Settings.validate_eq_ok_iff.mp hvalid
  obtain ⟨session, hstart⟩ := start_isOk_iff.mpr hvalid
  have hvsession := start_valid hv hstart
  have hbegin : Truthful [] session := by
    rw [start_of_valid hv] at hstart
    rw [← Except.ok.inj hstart]
    exact ⟨fun n hn => (nomatch hn), fun _ => rfl⟩
  refine ⟨session, hstart, start_unbroken hv hstart, ?_⟩
  rintro events hunbroken rest rfl
  have hreplays := run_withoutRejected hvsession hunbroken
  refine ⟨sameMap_of_bare hreplays.session, hreplays.answers, fun row hrow before hbefore => ?_⟩
  have hrest : Unbroken session row := by
    rcases hrow with rfl | rfl
    · exact hunbroken
    · exact unbroken_withoutRejected hvsession hunbroken
  obtain ⟨after, rfl⟩ := hbefore
  exact run_truthful hvsession (unbroken_append.mp hrest).1 hbegin

end

/-- A run in which the last three responses are not applied: the first is overtaken, the second has
failed and the third hands on another failure. -/
def threeRejected : List Event :=
  [.setViewport ⟨.globe, 3⟩, .completeLoad 2 (.ok []), .completeLoad 1 (.ok []),
    .completeLoad 3 (.error (.transport "")), .completeLoad 3 (.error (.settings "")), .recompute]

theorem standard_session_forgets_rejected :
    ({} : Settings).validate = .ok () ∧
    ∃ session, start {} = .ok session ∧
      @withoutRejected Exponential.hardware session threeRejected =
        [.setViewport ⟨.globe, 3⟩, .completeLoad 2 (.ok []), .recompute] ∧
      (@run Exponential.hardware session
          [.setViewport ⟨.globe, 3⟩, .completeLoad 2 (.ok []), .recompute]).SameMap
        (@run Exponential.hardware session threeRejected) := by
  have hvalid : ({} : Settings).validate = .ok () := by rfl
  refine ⟨hvalid, ?_⟩
  obtain ⟨session, hstart, hunbroken, hrun⟩ :=
    @rejected_leave_no_trace Exponential.hardware {} hvalid
  have hrest : @withoutRejected Exponential.hardware session threeRejected =
      [.setViewport ⟨.globe, 3⟩, .completeLoad 2 (.ok []), .recompute] := by
    obtain rfl := Except.ok.inj hstart
    rfl
  obtain ⟨hsame, -, -⟩ := hrun threeRejected (hunbroken rfl (by decide) _) _ hrest.symm
  exact ⟨session, hstart, hrest, hsame⟩

end Barogrid.Session
