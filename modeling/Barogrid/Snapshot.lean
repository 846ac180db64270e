import Barogrid.Feed.Document
import Barogrid.Session

/-!
# Snapshots

The state of a session as a document, for the program that draws the map.  Numbers that are not
finite are `null`.
-/

namespace Barogrid

namespace Snapshot

/-- How loading stands. -/
def ofLoadState : LoadState → Json
  | .idle => .ofFields [("state", .ofText "idle")]
  | .loading => .ofFields [("state", .ofText "loading")]
  | .loaded n =>
    .ofFields [("state", .ofText "loaded"), ("detail", .ofFields [("readings", .ofNat n)])]
  | .failed message => .ofFields [("state", .ofText "failed"), ("detail", .ofText message)]

/-- Where a cell is drawn. -/
def ofBounds (b : Bounds) : Json :=
  .ofFields [("south", .ofDouble b.latitude.lo), ("west", .ofDouble b.longitude.lo),
    ("north", .ofDouble b.latitude.hi), ("east", .ofDouble b.longitude.hi)]

/-- A cell. -/
def ofCell (c : DrawnCell) : Json :=
  .ofFields [("key", .ofText c.key.text), ("bounds", ofBounds c.bounds), ("color", c.color.toJson),
    ("opacity", .ofDouble c.opacity), ("normalized", .ofNat c.normalized),
    ("average", .ofDouble c.average), ("interpolated", .bool c.isFilled)]

/-- A summary. -/
def ofSummary (s : Statistics.Summary) : Json :=
  .ofFields [("count", .ofNat s.count), ("min", .ofDouble s.least), ("max", .ofDouble s.greatest),
    ("mean", .ofDouble s.mean), ("median", .ofDouble s.median), ("stdev", .ofDouble s.stdev)]

/-- A picture. -/
def ofPicture (p : Picture) : Json :=
  .ofFields [("cells", .array (p.cells.map ofCell)), ("summary", .ofOption ofSummary p.summary)]

/-- The counters that do not hang on a clock. -/
def countersOf (m : Metrics) : List (String × Json) :=
  [("fetches_total", .ofNat m.fetches), ("fetch_failures", .ofNat m.failures),
    ("stale_responses", .ofNat m.stale), ("renders_total", .ofNat m.renders),
    ("cells_drawn", .ofNat m.cellsDrawn)]

/-- The times of renderings. -/
def timesOf (m : Metrics) : List (String × Json) :=
  [("render_avg_ms", .ofDouble m.averageMillis), ("render_last_ms", .ofDouble m.lastMillis)]

/-- The metrics of a session that has been running for the given number of seconds. -/
def ofMetrics (m : Metrics) (uptimeSeconds : Nat) : Json :=
  .ofFields (("uptime_secs", .ofNat uptimeSeconds) :: countersOf m ++ timesOf m)

/-- A session, with its metrics as given. -/
def ofSession (s : Session) (metrics : Json) : Json :=
  .ofFields [("viewport", .ofOption Viewport.toJson s.viewport),
    ("key_length", .ofOption Json.ofNat s.keyLength), ("load_state", ofLoadState s.loadState),
    ("readings_loaded", .ofNat s.readings.length), ("render", ofPicture s.picture),
    ("metrics", metrics)]

end Snapshot

/-- The state of a session that has been running for the given number of seconds, as a document. -/
def Session.snapshot (s : Session) (uptimeSeconds : Nat) : Json :=
  Snapshot.ofSession s (Snapshot.ofMetrics s.metrics uptimeSeconds)

end Barogrid
