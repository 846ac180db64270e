import Barogrid.Feed.Query
import Barogrid.Settings.Environment

/-!
# Service settings

How the program is run: where readings come from, how many and of what window of time, and how often
they are loaded.  The variables are read as they stand; blanks around a number make it unreadable.
-/

namespace Barogrid

/-- How the program is run. -/
structure ServiceSettings where
  readingsUrl : Option String := none
  /-- The greatest number of readings. -/
  limit : Nat := 100000
  /-- The length of the window of time, in seconds. -/
  windowSeconds : Nat := 3600
  /-- The time between loads, in seconds. -/
  refreshSeconds : Nat := 60
  /-- How long a request may take, in seconds. -/
  timeoutSeconds : Nat := 30
  map : Settings := {}

namespace ServiceSettings

/-- A 64-bit number from a variable, as it stands. -/
def word? (env : Environment) (name : String) : Option Nat :=
  (env.value? name).bind Decimal.readWord?

/-- The default settings, with what the environment replaces. -/
def ofEnvironment (env : Environment) : ServiceSettings :=
  let base : ServiceSettings := {}
  { readingsUrl := (env.value? "READINGS_URL").filter (· ≠ "")
    limit := (word? env "READINGS_LIMIT").getD base.limit
    windowSeconds := (word? env "READINGS_WINDOW_SECS").getD base.windowSeconds
    refreshSeconds := (word? env "REFRESH_SECS").getD base.refreshSeconds
    timeoutSeconds := (word? env "REQUEST_TIMEOUT_SECS").getD base.timeoutSeconds
    map := Settings.ofEnvironment env }

/-- The window of time. -/
def window (s : ServiceSettings) : Except Failure TimeWindow :=
  TimeWindow.ofSeconds (min (s.windowSeconds : Int) TimeWindow.greatest)

/-- The query for the window that ends now. -/
def query (s : ServiceSettings) (now : Int) : Except Failure Query := do
  Query.endingAt now none (← s.window) s.limit

/-- The time between loads, at least one second. -/
def refreshInterval (s : ServiceSettings) : Nat := max s.refreshSeconds 1

end ServiceSettings

end Barogrid
