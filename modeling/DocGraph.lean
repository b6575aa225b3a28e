import DocGraph.Schema.Build
import DocGraph.Client.Collection
import DocGraph.Entity.Agreement
import DocGraph.Transport.Basic
import DocGraph.Proofs.Assoc
import DocGraph.Proofs.Table
import DocGraph.Proofs.Outcome
import DocGraph.Proofs.Schema.Trim
import DocGraph.Proofs.Schema.RoundTrip
import DocGraph.Proofs.Schema.Built
import DocGraph.Proofs.Entity.RoundTrip
import DocGraph.Proofs.Http.Path
import DocGraph.Proofs.Server.Documents
import DocGraph.Proofs.Server.Handle
import DocGraph.Proofs.Client.Collection
import DocGraph.Proofs.Entity.Identity
import DocGraph.Proofs.Server.Refusal
import DocGraph.Proofs.World.Basic
import DocGraph.Proofs.World.Sound
import DocGraph.Proofs.World.Calls
import DocGraph.Proofs.World.NoLostUpdate
import DocGraph.Proofs.World.Stored
import DocGraph.Proofs.Streams.Delivery
import DocGraph.Proofs.Query.Blank
import DocGraph.Proofs.Aql.Blank
import DocGraph.Proofs.Aql.Token
import DocGraph.Proofs.Aql.Written
import DocGraph.Proofs.Aql.Reader
import DocGraph.Proofs.Aql.Reading
import DocGraph.Proofs.Aql.Bound
import DocGraph.Proofs.Query.Meaning
import DocGraph.Proofs.Aql.Meaning
import DocGraph.Proofs.Aql.Filter
import DocGraph.Proofs.Aql.Derivable
import DocGraph.Proofs.Entity.ReadBack
import DocGraph.Proofs.Aql.Parameters
import DocGraph.Proofs.Aql.Scoped
import DocGraph.Proofs.Aql.Extension
import DocGraph.Proofs.Streams.Ending
import DocGraph.Proofs.Streams.History
import DocGraph.Proofs.Streams.Protocol
import DocGraph.Proofs.Client.Refused
import DocGraph.Proofs.World.Operations
import DocGraph.Proofs.World.Lifecycle
import DocGraph.Proofs.Schema.Path
import DocGraph.Proofs.Query.Row
import DocGraph.Proofs.Client.Rows
import DocGraph.Proofs.Client.Addressed
import DocGraph.Proofs.Server.Sound
import DocGraph.Server.InPlace
import DocGraph.Proofs.Server.InPlace
import DocGraph.Proofs.Record.Aligned
import DocGraph.Proofs.World.ByName
import DocGraph.Proofs.Graph.Named
import DocGraph.Proofs.Server.Catalog
import DocGraph.Proofs.Client.Conversation
import DocGraph.Proofs.World.Ensured
import DocGraph.Proofs.World.Graphs
import DocGraph.Proofs.World.Together
import DocGraph.Proofs.Client.Drain
import DocGraph.Proofs.Client.Pages
import DocGraph.Proofs.Server.Independent
import DocGraph.Proofs.Entity.Lossless
import DocGraph.Proofs.Server.Isolated
import DocGraph.Proofs.Record.Key
import DocGraph.Proofs.World.Keyed
import DocGraph.Proofs.Aql.Unsupported
import DocGraph.Proofs.Streams.Released
import DocGraph.Proofs.Query.Resolution
import DocGraph.Proofs.Record.OrderedMap
import DocGraph.Proofs.Entity.Deferred
import DocGraph.Proofs.Schema.Floats
import DocGraph.Proofs.Entity.Omitted
import DocGraph.Proofs.Record.Conforming
import DocGraph.Proofs.Schema.Reachable
import DocGraph.Proofs.Http.Segment
import DocGraph.Proofs.Client.PageNumbers
import DocGraph.Proofs.World.DroppedGraph
import DocGraph.Proofs.Aql.ReadBack
import DocGraph.Server.KeySearch
import DocGraph.Proofs.Server.KeySearch
