import DistributedCompilation.Base.Canonical
import DistributedCompilation.Lib.Program
import DistributedCompilation.Domain.Identity
import DistributedCompilation.Lib.Sorting
import DistributedCompilation.Lib.Exact
import DistributedCompilation.Codec.RequestCodec
import DistributedCompilation.Runtime.Eligibility
import DistributedCompilation.Runtime.Lifecycle
import DistributedCompilation.Runtime.Registry
import DistributedCompilation.Runtime.Validate
import DistributedCompilation.Codec.RecordCodec
import DistributedCompilation.Codec.RecordRoundTrip
import DistributedCompilation.Codec.RequestRoundTrip
import DistributedCompilation.Codec.StateCodec
import DistributedCompilation.Coordinator.Impl
import DistributedCompilation.Coordinator.Bookkeeping
import DistributedCompilation.Coordinator.Submit
import DistributedCompilation.Coordinator.Failure
import DistributedCompilation.Coordinator.Schedule
import DistributedCompilation.Coordinator.Report
import DistributedCompilation.Coordinator.Worker
import DistributedCompilation.Coordinator.Lifecycle
import DistributedCompilation.Coordinator.System
import DistributedCompilation.Protocol.Act
import DistributedCompilation.Safety.Authority
import DistributedCompilation.Protocol.Move
import DistributedCompilation.Refinement.Primitives
import DistributedCompilation.Refinement.Bookkeeping
import DistributedCompilation.Safety.Change
import DistributedCompilation.Safety.Touched
import DistributedCompilation.Safety.Steady
import DistributedCompilation.Safety.Frame
import DistributedCompilation.Safety.Generations
import DistributedCompilation.Storage.Recovery
import DistributedCompilation.Storage.Reopen
import DistributedCompilation.Storage.TornTail
import DistributedCompilation.Storage.Durability
import DistributedCompilation.Storage.Composition
import DistributedCompilation.Codec.UnitRecord
import DistributedCompilation.Domain.Identification
import DistributedCompilation.Safety.LinkIdentity
import DistributedCompilation.Codec.FixedPoints
import DistributedCompilation.Codec.RegistryRoundTrip
import DistributedCompilation.Codec.Descriptors
import DistributedCompilation.Codec.Idempotence
import DistributedCompilation.Codec.Replay
import DistributedCompilation.Safety.Registries
import DistributedCompilation.Safety.Tracked
import DistributedCompilation.Codec.Recovered
import DistributedCompilation.Safety.Opening
import DistributedCompilation.Safety.Lifetime
import DistributedCompilation.Safety.Claims
import DistributedCompilation.Safety.Reports
import DistributedCompilation.Safety.Restart
import DistributedCompilation.Codec.StateRoundTrip
import DistributedCompilation.Safety.Once
import DistributedCompilation.Safety.Disconnects
import DistributedCompilation.Safety.Collisions
import DistributedCompilation.Safety.Duplicates
import DistributedCompilation.Safety.Founded
import DistributedCompilation.Safety.Transitions
import DistributedCompilation.Wire.Frame
import DistributedCompilation.Wire.Framing
import DistributedCompilation.Wire.Delivery
import DistributedCompilation.Wire.Messages
import DistributedCompilation.Wire.Reassembly
import DistributedCompilation.Codec.Shuffles
import DistributedCompilation.Codec.Exactness
import DistributedCompilation.Codec.ClaimCodec
import DistributedCompilation.Safety.FanIn
import DistributedCompilation.Safety.MandatoryChildren
import DistributedCompilation.Safety.Losses
import DistributedCompilation.Safety.Propagation
import DistributedCompilation.Safety.Gate
import DistributedCompilation.Safety.Held
import DistributedCompilation.Safety.FailedReports
import DistributedCompilation.Safety.Openings
import DistributedCompilation.Lib.Barrier
import DistributedCompilation.Safety.Calm
import DistributedCompilation.Safety.Cancelled
import DistributedCompilation.Safety.Cancellations
import DistributedCompilation.Safety.Budget
import DistributedCompilation.Lib.Checked
import DistributedCompilation.Runtime.Ranking
import DistributedCompilation.Runtime.MachineMetadata
import DistributedCompilation.Runtime.Probing
import DistributedCompilation.Lib.Fifo
import DistributedCompilation.Safety.Vault
import DistributedCompilation.Safety.BlobCache
import DistributedCompilation.Safety.Blobs
import DistributedCompilation.Safety.StoredBlobs
import DistributedCompilation.Runtime.SmokeTest
import DistributedCompilation.Safety.SmokeTests
import DistributedCompilation.Runtime.CompilerInputs
import DistributedCompilation.Coordinator.Audit
import DistributedCompilation.Safety.Audits
import DistributedCompilation.Lib.CommandLine
import DistributedCompilation.Lib.Reads
import DistributedCompilation.Lib.Splitter
import DistributedCompilation.Lib.ReflectedCrc
import DistributedCompilation.Lib.Sha2
import DistributedCompilation.Base.CrcReference
import DistributedCompilation.Base.Streaming
import DistributedCompilation.Runtime.Quoting
import DistributedCompilation.Base.CanonicalReader
import DistributedCompilation.Base.Evaluation
import DistributedCompilation.Wire.Payload
import DistributedCompilation.Wire.PayloadRoundTrip
import DistributedCompilation.Server.Handler
import DistributedCompilation.Server.Loop
import DistributedCompilation.Server.Served
import DistributedCompilation.Server.Replies
import DistributedCompilation.Server.Sessions
import DistributedCompilation.Server.Verdicts
import DistributedCompilation.Server.Progress
import DistributedCompilation.Wire.Body
import DistributedCompilation.Lib.Interleaving
import DistributedCompilation.Worker.Conversations
import DistributedCompilation.Server.Exchange
import DistributedCompilation.Server.Progress
