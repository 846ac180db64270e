import Barogrid.CommandLine.Arguments
import Barogrid.EnvironmentFile
import Barogrid.Feed.Service
import Barogrid.Feed.Source
import Barogrid.Settings.Document
import Barogrid.Snapshot

/-!
# What the program does

The commands as functions of what there is: the environment, the files, the time, and what the
readings service would answer.  `render` is one load and one rendering.  Watching begins with
`beginWatch`, and `load` and `followLine` are what happens from then on.

Whatever ends the program early is an `Abort`, with the code and the text it ends with.
-/

namespace Barogrid

open CommandLine (Invocation)

/-! ## 1. Ending early -/

/-- Why the program ends early. -/
inductive Abort where
  /-- It cannot do its work: a message, and perhaps what is behind it. -/
  | report (message : String) (cause : Option String)
  | overflow (quantity : String)
  /-- A variable was to get a value that none can have. -/
  | unsettable (name : String)
deriving DecidableEq, Repr

namespace Abort

/-- A failure that is reported as it is. -/
def ofFailure : Failure → Abort
  | .overflow quantity => .overflow quantity
  | f => .report f.message none

/-- The code that the program ends with. -/
def exitCode : Abort → Nat
  | .report .. => 1
  | .overflow _ | .unsettable _ => 101

/-- Each line of a cause is indented. -/
def causeText (cause : String) : String :=
  "\n\nCaused by:\n    " ++ String.intercalate "\n    " (Text.fields '\n' cause)

/-- The text that the program ends with. -/
def text : Abort → String
  | .report message cause => "Error: " ++ message ++ (cause.map causeText).getD ""
  | .overflow quantity => quantity ++ " is out of range"
  | .unsettable name => "the value of " ++ name ++ " has a NUL in it"

end Abort

/-- A result of the library, as a result of the program. -/
def orAbort {α : Type} (r : Except Failure α) : Except Abort α := r.mapError Abort.ofFailure

/-- What the program is given besides its arguments. -/
structure Surroundings where
  environment : Environment
  files : Files
  /-- What comes of a request to a readings service. -/
  answer : String → Query → Except Failure (List Reading)
  /-- The time, in milliseconds since 1970. -/
  now : Int

namespace Program

/-! ## 2. Settings and source -/

/-- The environment with what an environment file says. -/
def environment (given : Environment) (file : String) : Except Abort Environment :=
  (EnvironmentFile.apply given file).mapError fun fault => .unsettable fault.name

/-- The settings of the map from a file. -/
def readMapConfig (files : Files) (path : String) : Except Abort Settings :=
  match (files path).text.bind Settings.parseYaml with
  | .ok s => .ok s
  | .error f => .error (.report ("Failed to load map config from " ++ path) (some f.message))

/-- The settings of the program: from the environment, from the file with the settings of the map,
and from the arguments, of which the later count. -/
def serviceSettings (w : Surroundings) (inv : Invocation) : Except Abort ServiceSettings := do
  let base := ServiceSettings.ofEnvironment w.environment
  let map ← match inv.mapConfig with
    | some path => readMapConfig w.files path
    | none => pure base.map
  return { base with
    map
    readingsUrl := inv.url.or base.readingsUrl
    limit := inv.limit.getD base.limit
    windowSeconds := inv.windowSeconds.getD base.windowSeconds
    refreshSeconds := inv.refreshSeconds.getD base.refreshSeconds }

/-- Where readings come from; a file goes before a service. -/
def source (s : ServiceSettings) (inv : Invocation) : Except Abort Source :=
  match inv.file, s.readingsUrl with
  | some path, _ => .ok (.file path)
  | none, some url => .ok (.service url)
  | none, none =>
    .error (.report "No readings source: pass --url, --file or set READINGS_URL" none)

/-- The viewport asked for, held on the globe. -/
def viewport (inv : Invocation) : Except Abort Viewport :=
  match Box.parse inv.box with
  | .ok box => .ok ⟨box.clamped, inv.zoom⟩
  | .error fault => .error (.report ("Invalid --bbox '" ++ inv.box ++ "'") (some fault.message))

/-- What a source answers to a query. -/
def fetch (w : Surroundings) (source : Source) (q : Query) : Except Failure (List Reading) :=
  match source with
  | .file path => Source.ofFile (w.files path) q
  | .service url => Source.ofService url (w.answer url q)

/-- A session after an operation, unless this failed. -/
def advance {α : Type} (step : Session × Except Failure α) : Except Abort Session :=
  match step.2 with
  | .ok _ => .ok step.1
  | .error f => .error (.ofFailure f)

/-! ## 3. Rendering once -/

/-- **One load and one rendering.** -/
def render [Exponential] (w : Surroundings) (inv : Invocation) : Except Abort Session := do
  let s ← serviceSettings w inv
  let source ← source s inv
  let v ← viewport inv
  let q ← orAbort (s.query w.now)
  let session ← orAbort (Session.start s.map)
  let session ← advance (session.setViewport v)
  advance (session.load (fetch w source q))

/-! ## 4. Watching -/

/-- A map that is being watched. -/
structure Watch where
  settings : ServiceSettings
  source : Source
  session : Session

/-- The start of watching, before the first load. -/
def beginWatch [Exponential] (w : Surroundings) (inv : Invocation) : Except Abort Watch := do
  let settings ← serviceSettings w inv
  let source ← source settings inv
  let session ← orAbort (Session.start settings.map)
  let session ← advance (session.setViewport (← viewport inv))
  return { settings, source, session }

namespace Watch

/-- One load. -/
def load [Exponential] (watch : Watch) (w : Surroundings) : Except Abort Watch := do
  let q ← orAbort (watch.settings.query w.now)
  let session ← advance (watch.session.load (fetch w watch.source q))
  return { watch with session }

/-- Follows the viewport that a line describes; a line that describes none is passed over, and so
there is nothing new to show. -/
def followLine [Exponential] (watch : Watch) (line : String) : Except Abort (Option Watch) :=
  match Viewport.parse? line with
  | none => .ok none
  | some v => do
    let session ← advance (watch.session.setViewport v)
    return some { watch with session }

/-- Follows lines, and gives the session after each that describes a viewport. -/
def followLines [Exponential] (watch : Watch) : List String → List Session × Option Abort
  | [] => ([], none)
  | line :: lines =>
    match watch.followLine line with
    | .error a => ([], some a)
    | .ok none => watch.followLines lines
    | .ok (some next) =>
      let (sessions, final) := next.followLines lines
      (next.session :: sessions, final)

end Watch

/-- Watching with a single load: the sessions to show, and what ended it early. -/
def watch [Exponential] (w : Surroundings) (inv : Invocation) (lines : List String) :
    List Session × Option Abort :=
  match (beginWatch w inv).bind fun start => start.load w with
  | .error a => ([], some a)
  | .ok loaded =>
    let (sessions, final) := loaded.followLines lines
    (loaded.session :: sessions, final)

/-! ## 5. Writing -/

/-- A session as it is written. -/
def written (s : Session) (uptimeSeconds : Nat) : String := (s.snapshot uptimeSeconds).indented 0

/-- What is reported when a file cannot be written. -/
def unwritable (path : String) (fault : FileFault) : Abort :=
  .report ("Failed to write " ++ path) (some fault.message)

end Program

end Barogrid
