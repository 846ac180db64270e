import Barogrid.Main
import Barogrid.Samples
import Barogrid.Proofs.Binary64.Nearest
import Barogrid.Proofs.Binary64.Operations
import Barogrid.Proofs.Geohash.Raster
import Barogrid.Proofs.Geohash.Text
import Barogrid.Proofs.Geohash.Partition
import Barogrid.Proofs.Geohash.Neighbor
import Barogrid.Proofs.Resolution
import Barogrid.Proofs.Grid.Groups
import Barogrid.Proofs.Grid.Uniform
import Barogrid.Proofs.Rendering
import Barogrid.Proofs.Session.Turns
import Barogrid.Proofs.Session.Coherence
import Barogrid.Proofs.Session.Success
import Barogrid.Proofs.Session.Newest
import Barogrid.Proofs.Session.Traceless
import Barogrid.Proofs.Geohash.Translation
import Barogrid.Proofs.Grid.Pass
import Barogrid.Proofs.Grid.Run
import Barogrid.Proofs.Grid.Coverage
import Barogrid.Proofs.Grid.Corroboration
import Barogrid.Proofs.Grid.History
import Barogrid.Proofs.Grid.Alike
import Barogrid.Proofs.Grid.Composition
import Barogrid.Proofs.Grid.Monotonicity
import Barogrid.Proofs.Grid.Perimeter
import Barogrid.Proofs.Grid.Values
import Barogrid.Proofs.Color.Mixing
import Barogrid.Proofs.Choropleth
import Barogrid.Proofs.Statistics.Flat
import Barogrid.Proofs.Picture.Faithful
import Barogrid.Proofs.Picture.Neutral
import Barogrid.Proofs.Picture.Arrival
import Barogrid.Proofs.Statistics.Range
import Barogrid.Proofs.Picture.Range
import Barogrid.Proofs.Session.Numbering
import Barogrid.Proofs.Session.Accounting
import Barogrid.Proofs.Grid.Frame
import Barogrid.Proofs.Grid.Coarsening
import Barogrid.Proofs.Geohash.Walk
import Barogrid.Proofs.Grid.Outliers
import Barogrid.Proofs.Color.Ramp
import Barogrid.Proofs.Resolution.Growth
import Barogrid.Proofs.Resolution.Formula
import Barogrid.Proofs.Text
import Barogrid.Proofs.Color.Reading
import Barogrid.Proofs.Color.Listing
import Barogrid.Proofs.Resolution.Overflow
import Barogrid.Proofs.Box.Center
import Barogrid.Proofs.Box.Clamping
import Barogrid.Proofs.Feed.Window
import Barogrid.Proofs.Program
