import Barogrid.Metrics
import Barogrid.Rendering

/-!
# Sessions

A session is the state behind one map: the readings loaded, the viewport, the picture last rendered
and how loading stands.

Each load gets a number when it begins.  A response is applied only if its number is greater than
that of every response applied before, so that a slow load can never overwrite fresher readings.
Whenever readings are applied or the viewport changes, the picture is rendered anew.
-/

namespace Barogrid

/-- How loading stands. -/
inductive LoadState where
  | idle
  | loading
  /-- The given number of readings was applied last. -/
  | loaded (readings : Nat)
  | failed (message : String)
deriving DecidableEq, Repr

/-- What became of a response. -/
inductive LoadOutcome where
  | applied (readings cells : Nat)
  | stale
  | failed (message : String)
deriving DecidableEq, Repr

/-- The number of a load. -/
abbrev RequestId := Nat

/-- The state behind a map. -/
structure Session where
  settings : Settings
  gradient : Gradient
  /-- The readings applied last. -/
  readings : List Reading := []
  /-- The viewport, once there is one. -/
  viewport : Option Viewport := none
  /-- The picture rendered last. -/
  picture : Picture := {}
  /-- The length of its keys. -/
  keyLength : Option Nat := none
  loadState : LoadState := .idle
  /-- The number of the load begun last, or zero. -/
  begun : RequestId := 0
  /-- The greatest number among the responses applied. -/
  newest : Option RequestId := none
  metrics : Metrics := {}

namespace Session

/-- A session with the given settings, unless there is an objection to them. -/
def start (s : Settings) : Except Failure Session := do
  s.validate
  return { settings := s, gradient := ← s.gradient }

/-- Begins a load and gives it the next number. -/
def beginLoad (s : Session) : Session × RequestId :=
  ({ s with begun := s.begun + 1, loadState := .loading }, s.begun + 1)

/-- The session with a new rendering in place. -/
def adopt (s : Session) (r : Rendering) : Session :=
  { s with
    keyLength := some r.keyLength
    picture := r.picture
    metrics := s.metrics.countRender r.picture.cells.length }

/-- Renders the picture anew, if there is a viewport.  When rendering fails the picture stays. -/
def recompute [Exponential] (s : Session) : Session × Except Failure Picture :=
  match s.viewport with
  | none => (s, .ok s.picture)
  | some v =>
    match Rendering.of s.readings v s.settings s.gradient with
    | .ok r => (s.adopt r, .ok r.picture)
    | .error f => (s, .error f)

/-- Changes the viewport. -/
def setViewport [Exponential] (s : Session) (v : Viewport) : Session × Except Failure Picture :=
  recompute { s with viewport := some v }

/-- Has a response with this number come too late? -/
def isStale (s : Session) (id : RequestId) : Bool := s.newest.any fun newest => id ≤ newest

/-- The session with readings put in place, before they are rendered. -/
def accept (s : Session) (id : RequestId) (readings : List Reading) : Session :=
  { s with
    readings
    newest := some id
    loadState := .loaded readings.length
    metrics := s.metrics.countFetch }

/-- Takes in the response to a load. -/
def completeLoad [Exponential] (s : Session) (id : RequestId)
    (response : Except Failure (List Reading)) : Session × Except Failure LoadOutcome :=
  if s.isStale id then ({ s with metrics := s.metrics.countStale }, .ok .stale)
  else
    match response with
    | .ok readings =>
      let (s, rendered) := (s.accept id readings).recompute
      (s, rendered.map fun picture => .applied readings.length picture.cells.length)
    | .error f =>
      if f.isLoadFailure then
        ({ s with metrics := s.metrics.countFailure, loadState := .failed f.message },
          .ok (.failed f.message))
      else (s, .error f)

/-- Begins a load and takes in the response at once. -/
def load [Exponential] (s : Session) (response : Except Failure (List Reading)) :
    Session × Except Failure LoadOutcome :=
  let (s, id) := s.beginLoad
  s.completeLoad id response

/-! ## Runs -/

/-- What can happen to a session. -/
inductive Event where
  | beginLoad
  | completeLoad (id : RequestId) (response : Except Failure (List Reading))
  | setViewport (v : Viewport)
  | recompute

/-- What an event is answered with. -/
inductive Answer where
  | begun (id : RequestId)
  | completed (outcome : Except Failure LoadOutcome)
  | rendered (picture : Except Failure Picture)

/-- One event. -/
def step [Exponential] (s : Session) : Event → Session × Answer
  | .beginLoad => let (s, id) := s.beginLoad; (s, .begun id)
  | .completeLoad id response => let (s, o) := s.completeLoad id response; (s, .completed o)
  | .setViewport v => let (s, p) := s.setViewport v; (s, .rendered p)
  | .recompute => let (s, p) := s.recompute; (s, .rendered p)

/-- The session after a row of events. -/
def run [Exponential] (s : Session) (events : List Event) : Session :=
  events.foldl (fun s e => (s.step e).1) s

end Session

end Barogrid
