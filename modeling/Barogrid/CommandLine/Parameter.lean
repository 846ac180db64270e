import Barogrid.Decimal.Reader

/-!
# Parameters of the command line

Each parameter takes a value.  This file says how parameters are named, of which kind their values
are, and which variable of the environment stands in for a parameter that is not given.
-/

namespace Barogrid.CommandLine

/-- What can be given on the command line. -/
inductive Parameter where
  /-- How much is to be logged.  No log is kept, so any text will do. -/
  | logLevel
  | mapConfig
  | url
  | file
  | box
  | zoom
  /-- The greatest number of readings. -/
  | limit
  /-- The length of the window of time, in seconds. -/
  | windowSeconds
  | output
  /-- The time between loads, in seconds. -/
  | refreshSeconds
deriving DecidableEq, Repr

/-- What a value can be required to be. -/
inductive ValueKind where
  | text
  | path
  /-- A number of 32 bits with sign. -/
  | int32
  /-- A number of 64 bits without sign. -/
  | word
deriving DecidableEq, Repr

/-- Is the text a value of this kind? -/
def ValueKind.admits (kind : ValueKind) (s : String) : Bool :=
  match kind with
  | .text => true
  | .path => s ≠ ""
  | .int32 => (Decimal.readInt32? s).isSome
  | .word => (Decimal.readWord? s).isSome

namespace Parameter

/-- The name after two dashes. -/
def name : Parameter → String
  | .logLevel => "log-level"
  | .mapConfig => "map-config"
  | .url => "url"
  | .file => "file"
  | .box => "bbox"
  | .zoom => "zoom"
  | .limit => "limit"
  | .windowSeconds => "window-secs"
  | .output => "output"
  | .refreshSeconds => "refresh-secs"

/-- The letter after a single dash. -/
def letter? : Parameter → Option Char
  | .output => some 'o'
  | _ => none

/-- The kind of its values. -/
def kind : Parameter → ValueKind
  | .logLevel | .url | .box => .text
  | .mapConfig | .file | .output => .path
  | .zoom => .int32
  | .limit | .windowSeconds | .refreshSeconds => .word

/-- The variable whose value stands in. -/
def standIn? : Parameter → Option String
  | .mapConfig => some "MAP_CONFIG"
  | .url => some "READINGS_URL"
  | .limit => some "READINGS_LIMIT"
  | .windowSeconds => some "READINGS_WINDOW_SECS"
  | .refreshSeconds => some "REFRESH_SECS"
  | .logLevel | .file | .box | .zoom | .output => none

/-- May the value begin with a dash?  That of a box may, for edges in the west. -/
def takesDashes (p : Parameter) : Bool := p = .box

/-- What stands before the command. -/
def general : List Parameter := [.logLevel, .mapConfig]

/-- What the command `render` takes. -/
def ofRender : List Parameter := [.url, .file, .box, .zoom, .limit, .windowSeconds, .output]

/-- What the command `watch` takes. -/
def ofWatch : List Parameter := ofRender ++ [.refreshSeconds]

end Parameter

end Barogrid.CommandLine
