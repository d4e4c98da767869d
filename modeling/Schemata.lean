import Schemata.Main
import Schemata.Proofs.Catalog.Chain
import Schemata.Proofs.Catalog.Closed
import Schemata.Proofs.Catalog.Visited
import Schemata.Proofs.Catalog.Index
import Schemata.Proofs.ComponentName
import Schemata.Proofs.Field
import Schemata.Proofs.Progress
import Schemata.Proofs.Fixup
import Schemata.Proofs.Walk.Effect
import Schemata.Proofs.Walk.Runs
import Schemata.Proofs.Walk.Extends
import Schemata.Proofs.Walk.Moves
import Schemata.Proofs.Walk.Represents
import Schemata.Proofs.Walk.Reach
import Schemata.Proofs.Walk.Depth
import Schemata.Proofs.Session.Roots
import Schemata.Proofs.Document
import Schemata.Proofs.OrderedMap
import Schemata.Proofs.Session.Finish
import Schemata.Proofs.Session.Faithful
import Schemata.Proofs.Session.Components
import Schemata.Proofs.Session.Limit
import Schemata.Proofs.Search
import Schemata.Proofs.Walk.Order
import Schemata.Proofs.Session.Order
import Schemata.Proofs.Walk.Ahead
import Schemata.Proofs.Session.Combined
import Schemata.Proofs.Catalog.Agrees
import Schemata.Proofs.Walk.Lockstep
import Schemata.Proofs.Session.Renamed
import Schemata.Proofs.Schema
import Schemata.Proofs.Session.Written
import Schemata.Proofs.Forest
import Schemata.Proofs.Rendering
import Schemata.Proofs.Walk.Forest
import Schemata.Proofs.Session.Forest
import Schemata.Proofs.Walk.Layered
import Schemata.Proofs.Session.References
import Schemata.Proofs.Walk.Limit
import Schemata.Proofs.Session.CutOff
import Schemata.Proofs.Session.Grows
import Schemata.Proofs.Progress.Calls
import Schemata.Proofs.Progress.Lifecycle
import Schemata.Proofs.Progress.Firing
import Schemata.Proofs.Registry
import Schemata.Proofs.Registry.Lifecycle
import Schemata.Proofs.Session.Tracked
import Schemata.Proofs.Session.Unfinished
import Schemata.Proofs.Catalog.Accepted
import Schemata.Proofs.Catalog.Lookup
import Schemata.Proofs.Naming
import Schemata.Proofs.Session.Naming
import Schemata.Proofs.Field.Accessible
import Schemata.Proofs.Text.Lowercase
import Schemata.Proofs.Field.Accessor
import Schemata.Proofs.Walk.Claimed
import Schemata.Proofs.Session.Claimed
import Schemata.Proofs.Session.Repeated
import Schemata.Proofs.Walk.Reprefixed
import Schemata.Proofs.Json.Spelling
import Schemata.Proofs.Session.Reprefixed
import Schemata.Proofs.Json.Reads
import Schemata.Proofs.TypeDecl.Roundtrip
import Schemata.Proofs.Node
import Schemata.Proofs.Walk.Walker
import Schemata.Proofs.Session.Position
