import Barogrid.Program
import Std.Time.DateTime.Timestamp

/-!
# The command line program

Reads what the library needs from the surroundings, calls it, and writes what it returns.
-/

namespace Barogrid.Shell

open CommandLine (Invocation)

/-! ## 1. Surroundings -/

/-- The variables that the program looks at. -/
def variableNames : List String :=
  ["PRESSURE_MIN", "PRESSURE_MAX", "MIN_HASH_LENGTH", "MAX_HASH_LENGTH", "MIN_ZOOM", "MAX_ZOOM",
    "GRADIENT_STOPS", "INTERPOLATION_PASSES", "FILL_OPACITY", "READINGS_URL", "READINGS_LIMIT",
    "READINGS_WINDOW_SECS", "REFRESH_SECS", "REQUEST_TIMEOUT_SECS", "MAP_CONFIG"]

/-- The names that can occur in an environment file: what a name after a dollar sign, an assigned
name and a name in braces can be. -/
def namesIn (text : String) : List String :=
  let pieces := fun (inName : Char → Bool) =>
    Text.fields ' ' (String.ofList (text.toList.map fun c => if inName c then c else ' '))
  let braced := (Text.fields '\x7b' text).map fun s =>
    String.ofList (s.toList.takeWhile fun c => c ≠ '\x7d')
  pieces Text.isAlphanumeric ++ (pieces fun c => c.isAlphanum || c = '_' || c = '.') ++ braced

/-- The variables of the given names that are set. -/
def environmentOf (names : List String) : IO Environment :=
  names.eraseDups.filterMapM fun name => do
    if name.isEmpty then return none
    return (← IO.getEnv name).map fun value => (name, value)

/-- The fault behind an error. -/
def faultOf (e : IO.Error) : FileFault :=
  let ofCode := fun (code : UInt32) (text : String) =>
    let n := code.toNat
    FileFault.ofCode (if n < 0x80000000 then n else 0x100000000 - n) text
  match e with
  | .noFileOrDirectory _ code text => ofCode code text
  | .inappropriateType _ code text => ofCode code text
  | .permissionDenied _ code text => ofCode code text
  | .invalidArgument _ code text => ofCode code text
  | .noSuchThing _ code text => ofCode code text
  | e => .other (toString e)

/-- Reads a file. -/
def readContent (path : String) : IO FileContent := do
  try
    return .ok (← IO.FS.readBinFile path)
  catch e =>
    return .error (faultOf e)

/-- The text of the nearest file `.env`, in this directory or one above it. -/
def environmentText : IO String := do
  let here := toString (← IO.currentDir)
  for level in List.range ((Text.fields '/' here).length) do
    let path := String.join (List.replicate level "../") ++ ".env"
    match (← readContent path).text with
    | .ok text => return text
    | .error _ => pure ()
  return ""

/-- The environment with what the nearest environment file adds. -/
def readEnvironment : IO (Except Abort Environment) := do
  let text ← environmentText
  return Program.environment (← environmentOf (variableNames ++ namesIn text)) text

/-- The time, in milliseconds since 1970. -/
def now : IO Int := do
  return (← Std.Time.Timestamp.now).toMillisecondsSinceUnixEpoch.val

/-- The surroundings of an invocation, with the files that it names.  There is no network. -/
def surroundings (env : Environment) (inv : Invocation) : IO Surroundings := do
  let paths := inv.mapConfig.toList ++ inv.file.toList
  let contents ← paths.mapM fun path => return (path, ← readContent path)
  return {
    environment := env
    files := fun path => (contents.lookup path).getD (.error .missing)
    answer := fun _ _ => .error (.transport "the network is unreachable")
    now := ← now }

/-! ## 2. Results -/

/-- Reports why the program ends early. -/
def fail (a : Abort) : IO UInt32 := do
  IO.eprintln a.text
  return a.exitCode.toUInt32

/-- Writes a session, to a file or to the output. -/
def write (inv : Invocation) (session : Session) (uptimeSeconds : Nat) :
    IO (Except Abort Unit) := do
  let text := Program.written session uptimeSeconds
  match inv.output with
  | none =>
    IO.println text
    return .ok ()
  | some path =>
    try
      IO.FS.writeFile path text
      return .ok ()
    catch e =>
      return .error (Program.unwritable path (faultOf e))

/-! ## 3. Commands -/

/-- Renders once. -/
def render [Exponential] (env : Environment) (inv : Invocation) : IO UInt32 := do
  match Program.render (← surroundings env inv) inv with
  | .error a => fail a
  | .ok session =>
    match ← write inv session 0 with
    | .error a => fail a
    | .ok () => return 0

/-- A line of the input that is being waited for. -/
abbrev NextLine := Task (Except IO.Error String)

/-- Waits for a line. -/
def awaitLine : IO NextLine := do
  let input ← IO.getStdin
  IO.asTask input.getLine

/-- Loads when it is time to, follows the lines of the input, and writes after each change.  Times
are in milliseconds of a clock that does not go back. -/
partial def follow [Exponential] (env : Environment) (inv : Invocation) (start due : Nat)
    (line? : Option NextLine) (watch : Program.Watch) : IO UInt32 := do
  let time ← IO.monoMsNow
  let display := fun (watch : Program.Watch) => write inv watch.session ((time - start) / 1000)
  if due ≤ time then
    match watch.load (← surroundings env inv) with
    | .error a => fail a
    | .ok watch =>
      match ← display watch with
      | .error a => fail a
      | .ok () =>
        follow env inv start (time + 1000 * watch.settings.refreshInterval) line? watch
  else
    match line? with
    | some task =>
      if ← IO.hasFinished task then
        match task.get with
        | .error e => fail (.report (toString e) none)
        | .ok "" => follow env inv start due none watch
        | .ok line =>
          match watch.followLine line with
          | .error a => fail a
          | .ok none => follow env inv start due (some (← awaitLine)) watch
          | .ok (some watch) =>
            match ← display watch with
            | .error a => fail a
            | .ok () => follow env inv start due (some (← awaitLine)) watch
      else
        IO.sleep 20
        follow env inv start due line? watch
    | none =>
      IO.sleep 20
      follow env inv start due none watch

/-- Watches. -/
def watch [Exponential] (env : Environment) (inv : Invocation) : IO UInt32 := do
  match Program.beginWatch (← surroundings env inv) inv with
  | .error a => fail a
  | .ok watch =>
    let start ← IO.monoMsNow
    follow env inv start start (some (← awaitLine)) watch

/-- Runs the program with its arguments. -/
def run (arguments : List String) : IO UInt32 := do
  have : Exponential := Exponential.hardware
  match ← readEnvironment with
  | .error a => fail a
  | .ok env =>
    match Invocation.parse env arguments with
    | .error .help =>
      IO.println CommandLine.usage
      return 0
    | .error .misuse =>
      IO.eprintln CommandLine.misuseMessage
      return 2
    | .ok inv =>
      match inv.command with
      | .render => render env inv
      | .watch => watch env inv

end Barogrid.Shell

/-- The program. -/
def main (arguments : List String) : IO UInt32 := Barogrid.Shell.run arguments
