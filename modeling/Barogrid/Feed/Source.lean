import Barogrid.Feed.Document
import Barogrid.Feed.Query
import Barogrid.Files

/-!
# Sources of readings

Readings come from a file or from a service.  A file is a fixed store: the box and the limit of a
query apply to it, its window of time does not.

A service is known by its URL, which has to be absolute and name a host; to any other URL no request
can be built.  Requests themselves are not made here: whoever has a network at hand hands in what
became of one.
-/

namespace Barogrid

/-- Where readings come from. -/
inductive Source where
  | file (path : String)
  | service (url : String)
deriving DecidableEq, Repr

namespace Source

/-- The name of a source. -/
def describe : Source → String
  | .file path => path
  | .service url => url

/-! ## 1. Files -/

/-- The readings of a stored text that a query asks for. -/
def ofStored (text : String) (q : Query) : Except Failure (List Reading) := do
  let readings ← Reading.parseList text
  let inBox := readings.filter fun r =>
    q.box.all fun b => b.contains r.place.longitude r.place.latitude
  return inBox.take q.limit

/-- The readings of a file that a query asks for. -/
def ofFile (content : FileContent) (q : Query) : Except Failure (List Reading) := do
  ofStored (← content.text) q

/-! ## 2. Services -/

/-- Characters that are passed over at the ends of a URL. -/
def isUrlPadding (c : Char) : Bool := c.toNat ≤ 32

/-- The schemes for which a request can be made. -/
def schemes : List String := ["http", "https"]

/-- Is this a character that ends the name of a host? -/
def endsHost (c : Char) : Bool := c = '/' || c = '\\' || c = '?' || c = '#'

/-- Does the URL name a host of a known scheme?  How many slashes stand before the host does not
matter. -/
def namesHost (url : String) : Bool :=
  let cs := url.toList.dropWhile isUrlPadding
  let scheme := cs.takeWhile (· ≠ ':')
  let rest := (cs.drop (scheme.length + 1)).dropWhile fun c => c = '/' || c = '\\'
  schemes.contains (String.ofList (scheme.map Char.toLower)) &&
    scheme.length < cs.length &&
    (rest.takeWhile fun c => !endsHost c).any fun c => !isUrlPadding c

/-- No request can be built. -/
def unbuildable : Failure := .transport "builder error"

/-- **What a service answers**, given what a request to it would come to. -/
def ofService (url : String) (response : Except Failure (List Reading)) :
    Except Failure (List Reading) :=
  if namesHost url then response else .error unbuildable

end Source

end Barogrid
