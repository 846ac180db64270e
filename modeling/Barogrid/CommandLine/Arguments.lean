import Barogrid.CommandLine.Parameter
import Barogrid.Settings.Environment

/-!
# Reading the command line

Arguments are read from the left: general parameters, a command, and the parameters of the command.
A value follows its parameter as the next argument or after an equals sign, and no parameter may be
given twice.  A value that is an argument of its own is looked at when the next parameter comes up
or at the end, so that a request for help between the two is heard first.

What is given is settled before the environment is asked, that of the command before that of the
program.
-/

namespace Barogrid.CommandLine

/-- Why arguments are not acted upon. -/
inductive Refusal where
  | help
  | misuse
deriving DecidableEq, Repr

/-! ## 1. Arguments -/

/-- What an argument is by itself. -/
inductive Argument where
  | plain
  /-- Two dashes, after which there are no parameters. -/
  | terminator
  | help
  /-- It gives a parameter, and perhaps its value. -/
  | parameter (p : Parameter) (attached : Option String)
  /-- It begins with a dash, but gives nothing known. -/
  | unknown
deriving DecidableEq

namespace Argument

/-- What stands between two dashes and an equals sign or the end, and what follows the equals sign. -/
def splitLong (cs : List Char) : String × Option String :=
  let name := cs.takeWhile (· ≠ '=')
  let attached := match cs.dropWhile (· ≠ '=') with
    | _ :: value => some (String.ofList value)
    | [] => none
  (String.ofList name, attached)

/-- What follows two dashes. -/
def ofLong (scope : List Parameter) (cs : List Char) : Argument :=
  let (name, attached) := splitLong cs
  match scope.find? fun p => p.name = name with
  | some p => .parameter p attached
  | none => if name = "help" ∧ attached = none then .help else .unknown

/-- A value that follows a letter at once, perhaps after an equals sign. -/
def attachedToLetter : List Char → Option String
  | [] => none
  | '=' :: cs => some (String.ofList cs)
  | cs => some (String.ofList cs)

/-- What follows a single dash. -/
def ofShort (scope : List Parameter) (letter : Char) (cs : List Char) : Argument :=
  match scope.find? fun p => p.letter? = some letter with
  | some p => .parameter p (attachedToLetter cs)
  | none => if letter = 'h' then .help else .unknown

/-- What an argument is where the given parameters may stand. -/
def ofText (scope : List Parameter) (s : String) : Argument :=
  match s.toList with
  | ['-', '-'] => .terminator
  | '-' :: '-' :: cs => ofLong scope cs
  | '-' :: letter :: cs => ofShort scope letter cs
  | _ => .plain

end Argument

/-! ## 2. Parameters that are given -/

/-- Values by parameter. -/
abbrev Given := List (Parameter × String)

/-- One more value; it must be of the right kind, and the first for its parameter. -/
def Given.add (given : Given) (p : Parameter) (value : String) : Except Refusal Given :=
  if (given.lookup p).isSome || !p.kind.admits value then .error .misuse
  else .ok (given ++ [(p, value)])

/-- What has been read. -/
structure Scan where
  /-- The values looked at. -/
  given : Given := []
  /-- A value not yet looked at. -/
  pending : Option (Parameter × String) := none

namespace Scan

/-- Looks at the value that was put off. -/
def settle (s : Scan) : Except Refusal Given :=
  match s.pending with
  | some (p, value) => s.given.add p value
  | none => .ok s.given

/-- Reads parameters up to the first plain argument. -/
def read (scope : List Parameter) (s : Scan) : List String → Except Refusal (Scan × List String)
  | [] => .ok (s, [])
  | a :: rest =>
    match Argument.ofText scope a with
    | .plain => .ok (s, a :: rest)
    | .terminator => if rest.isEmpty then .ok (s, []) else .error .misuse
    | .help => do
      let _ ← s.settle
      .error .help
    | .unknown => .error .misuse
    | .parameter p (some value) => do
      read scope { given := ← (← s.settle).add p value } rest
    | .parameter p none =>
      match rest with
      | [] => .error .misuse
      | value :: rest =>
        if p.takesDashes || Argument.ofText scope value = .plain then do
          read scope { given := ← s.settle, pending := some (p, value) } rest
        else .error .misuse

end Scan

/-- The values with those of variables for parameters that are not given. -/
def Given.withEnvironment (given : Given) (env : Environment) :
    List Parameter → Except Refusal Given
  | [] => .ok given
  | p :: ps => do
    let value? := if (given.lookup p).isSome then none else p.standIn?.bind env.value?
    match value? with
    | some value => withEnvironment (← given.add p value) env ps
    | none => withEnvironment given env ps

/-! ## 3. Invocations -/

/-- What to do. -/
inductive Command where
  | render
  /-- Load again and again, and follow the viewport. -/
  | watch
deriving DecidableEq, Repr

/-- What the program is asked to do. -/
structure Invocation where
  command : Command
  mapConfig : Option String
  url : Option String
  file : Option String
  /-- The box to show, as text. -/
  box : String
  zoom : Int
  /-- The greatest number of readings. -/
  limit : Option Nat
  /-- The length of the window of time, in seconds. -/
  windowSeconds : Option Nat
  /-- The time between loads, in seconds. -/
  refreshSeconds : Option Nat
  /-- The file to write to; without one, what is written is printed. -/
  output : Option String

namespace Invocation

/-- The box shown unless another is asked for. -/
def defaultBox : String := "-180,-90,180,90"

/-- The zoom level unless another is asked for. -/
def defaultZoom : Int := 3

/-- The invocation of a command with values for its parameters. -/
def ofGiven (command : Command) (general own : Given) : Invocation where
  command := command
  mapConfig := general.lookup .mapConfig
  url := own.lookup .url
  file := own.lookup .file
  box := (own.lookup .box).getD defaultBox
  zoom := ((own.lookup .zoom).bind Decimal.readInt32?).getD defaultZoom
  limit := (own.lookup .limit).bind Decimal.readWord?
  windowSeconds := (own.lookup .windowSeconds).bind Decimal.readWord?
  refreshSeconds := (own.lookup .refreshSeconds).bind Decimal.readWord?
  output := own.lookup .output

/-- Reads what follows a command. -/
def ofCommand (env : Environment) (general : Scan) (command : Command) (scope : List Parameter)
    (rest : List String) : Except Refusal Invocation := do
  let (own, rest) ← Scan.read scope {} rest
  if !rest.isEmpty then .error .misuse
  let own ← (← own.settle).withEnvironment env scope
  let general ← (← general.settle).withEnvironment env Parameter.general
  return ofGiven command general own

/-- What may follow the word `help`. -/
def topics : List (List String) := [[], ["render"], ["watch"], ["help"]]

/-- **What the program is asked to do** by its arguments in an environment. -/
def parse (env : Environment) (arguments : List String) : Except Refusal Invocation := do
  let (general, rest) ← Scan.read Parameter.general {} arguments
  match rest with
  | "render" :: rest => ofCommand env general .render Parameter.ofRender rest
  | "watch" :: rest => ofCommand env general .watch Parameter.ofWatch rest
  | "help" :: topic => .error (if topics.contains topic then .help else .misuse)
  | _ => .error .misuse

end Invocation

/-! ## 4. Help -/

/-- What is printed when help is asked for. -/
def usage : String :=
  "Bin geotagged pressure readings into a colored geohash grid\n\n" ++
  "Usage: pressure-map [--log-level LEVEL] [--map-config FILE] COMMAND\n\n" ++
  "Commands:\n" ++
  "  render  Fetch once, render once\n" ++
  "  watch   Re-fetch on an interval; viewport changes are read from stdin as JSON lines\n" ++
  "  help    Print this message\n\n" ++
  "Options of both commands:\n" ++
  "  --url URL             Readings service URL\n" ++
  "  --file FILE           JSON file of readings; takes precedence over --url\n" ++
  "  --bbox BOX            Viewport as min_lon,min_lat,max_lon,max_lat\n" ++
  "  --zoom ZOOM           Map zoom level\n" ++
  "  --limit N             Maximum readings per fetch\n" ++
  "  --window-secs N       Fetch window in seconds back from now\n" ++
  "  -o, --output FILE     Write the draw list here instead of stdout\n\n" ++
  "Option of watch:\n" ++
  "  --refresh-secs N      Seconds between fetches"

/-- What is said when arguments cannot be understood. -/
def misuseMessage : String := "error: invalid arguments; for more information, try '--help'"

end Barogrid.CommandLine
