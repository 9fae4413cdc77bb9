import DistributedCompilation.Lib.Table
import DistributedCompilation.Runtime.Lifecycle
import DistributedCompilation.Runtime.Registry

/-!
# Distributed Compilation — coordinator state

`coordinator_state.hpp` and the transfer records of `coordinator.hpp`. A
`std::map` is a `Table`, a `std::deque` or `std::vector` a list.
-/

namespace DistributedCompilation

-- ---------------------------------------------------------------------------
-- Sessions, controls, violations
-- ---------------------------------------------------------------------------

structure SessionRecord where
  id : SessionId := {}
  isWorker : Bool := false
  worker : WorkerId := {}
  boot : WorkerBootId := {}
  epoch : CoordinatorEpoch := {}
  peer : Bytes := []
  host : Bytes := []
  connectedAt : UnixMillis := 0
  lastSeen : UnixMillis := 0
  isOpen : Bool := true
  maxInflight : UInt32 := 4

inductive ControlKind | cancelAttempt | commitNotification | shutdown
deriving DecidableEq

structure ControlMessage where
  session : SessionId := {}
  kind : ControlKind := .cancelAttempt
  compilation : CompilationId := {}
  compilationGeneration : CompilationGeneration := {}
  attempt : CompilationAttemptId := {}
  attemptGeneration : CompilationAttemptGeneration := {}
  lease : LeaseId := {}
  leaseGeneration : LeaseGeneration := {}
  commit : ArtifactCommitId := {}
  artifactDigest : Digest256 := default
  reason : Bytes := []

structure AuthorityViolation where
  at' : UnixMillis := 0
  operation : Bytes := []
  code : ErrorCode := .ok
  session : SessionId := {}
  worker : WorkerId := {}
  detail : Bytes := []
deriving DecidableEq

-- ---------------------------------------------------------------------------
-- State
-- ---------------------------------------------------------------------------

structure StateHeader where
  epoch : CoordinatorEpoch := {}
  seq : UInt64 := 0
  nextCompilationId : Nat := 1
  nextUnitId : Nat := 1
  nextAttemptId : Nat := 1
  nextLeaseId : Nat := 1
  nextArtifactId : Nat := 1
  nextCommitId : Nat := 1
  nextProvenanceId : Nat := 1
  nextValidationId : Nat := 1
  nextCacheEntryId : Nat := 1
  nextWorkerId : Nat := 1
  nextBootId : Nat := 1
  nextSessionId : Nat := 1
  nextIntermediateId : Nat := 1
  cacheGeneration : CacheGeneration := {}
  openedAt : UnixMillis := 0
  recordsSinceSnapshot : Nat := 0
  restarts : Nat := 0
deriving DecidableEq

/-- `detail::State`. -/
structure State where
  header : StateHeader := {}
  sources : SourceRegistry := {}
  irs : IRRegistry := {}
  dependencies : DependencyRegistry := {}
  toolchains : ToolchainRegistry := {}
  targets : TargetRegistry := {}
  specializations : SpecializationRegistry := {}
  policies : PolicyRegistry := {}
  workers : Table WorkerId WorkerRecord := ∅
  sessions : Table SessionId SessionRecord := ∅
  compilations : Table CompilationId CompilationRecord := ∅
  attempts : Table CompilationAttemptId CompilationAttempt := ∅
  commits : Table ArtifactCommitId ArtifactCommit := ∅
  authoritative : Table CompilationId ArtifactCommitId := ∅
  provenances : Table ProvenanceId Provenance := ∅
  validations : Table ValidationId ValidationReport := ∅
  cacheEntries : Table CacheEntryId CacheEntry := ∅
  cacheIndex : Table Digest256 CacheEntryId := ∅
  intermediates : Table IntermediateId IntermediateArtifact := ∅
  leases : Table LeaseId CompileLease := ∅
  jobs : Table Digest256 JobRecord := ∅
  requests : Table Digest256 CompilationRequest := ∅
  negativeCache : List NegativeCacheEntry := []
  violations : List AuthorityViolation := []
  controls : List ControlMessage := []

-- ---------------------------------------------------------------------------
-- Transfer records
-- ---------------------------------------------------------------------------

structure SubmissionBundle where
  request : CompilationRequest
  blobs : List Blob := []
  forceRebuild : Bool := false

structure UnitSubmission where
  index : UInt32 := 0
  compilation : CompilationId := {}
  unit : CompilationUnitId := {}
  unitGeneration : UnitGeneration := {}
  unitIdentity : Digest256 := default
  state : CompilationState := .pending
  cache : CacheDecision := {}
  committed : Bool := false
  commit : ArtifactCommit := {}
  scheduled : Bool := false
  detail : Bytes := []
deriving DecidableEq

structure SubmissionResult where
  requestId : RequestId := {}
  requestIdentity : Digest256 := default
  units : List UnitSubmission := []
  allCommitted : Bool := false
  servedFromCache : Bool := false
  duplicateRequest : Bool := false
deriving DecidableEq

structure AssignmentSource where
  logicalName : Bytes := []
  format : InputFormat := .unknown
  languageMode : Bytes := []
  bytes : Bytes := []
deriving DecidableEq

structure AssignmentDependency where
  name : Bytes := []
  kind : DependencyKind := .other
  bytes : Bytes := []
deriving DecidableEq

structure AssignmentChild where
  logicalName : Bytes := []
  kind : OutputKind := .object
  bytes : Bytes := []
deriving DecidableEq

structure Assignment where
  session : SessionId := {}
  worker : WorkerId := {}
  workerBoot : WorkerBootId := {}
  workerGeneration : WorkerGeneration := {}
  lease : CompileLease := {}
  claim : AuthorityClaim := {}
  compilation : CompilationId := {}
  compilationGeneration : CompilationGeneration := {}
  unit : CompilationUnitId := {}
  unitGeneration : UnitGeneration := {}
  attempt : CompilationAttemptId := {}
  attemptGeneration : CompilationAttemptGeneration := {}
  unitIndex : UInt32 := 0
  kind : UnitKind := .compile
  outputKind : OutputKind := .object
  logicalName : Bytes := []
  sources : List AssignmentSource := []
  dependencies : List AssignmentDependency := []
  flags : List Bytes := []
  children : List AssignmentChild := []
  toolchain : ToolchainIdentity := {}
  target : TargetIdentity := {}
  specialization : SpecializationSpec := {}
  policy : CompilePolicy := {}
  environment : EnvironmentContract := {}
  validation : ValidationRequirements := {}
  maxCompileMillis : UInt64 := 600000
  speculative : Bool := false
deriving DecidableEq

structure ReportOutput where
  claim : AuthorityClaim
  kind : OutputKind := .object
  logicalName : Bytes := []
  bytes : Bytes
  declaredDigest : Digest256 := default
  compilerInvocation : Bytes := []
  compilerVersionString : Bytes := []
  compilerWallMillis : UInt64 := 0
deriving DecidableEq

inductive CommitOutcome | committed | deduplicated | refused | reproducibilityViolation
deriving DecidableEq

structure CommitDecision where
  outcome : CommitOutcome := .refused
  error : ErrorCode := .ok
  detail : Bytes := []
  commit : ArtifactCommit := {}
  validation : ValidationReport := {}
  artifactAuthoritative : Bool := false
deriving DecidableEq

structure AttemptFailure where
  claim : AuthorityClaim
  code : ErrorCode := .internal
  detail : Bytes := []

structure WorkerRegistration where
  endpoint : Bytes := []
  host : Bytes := []
  workerId : WorkerId
  bootId : WorkerBootId
  capabilities : WorkerCapabilities := {}
  maxInflight : UInt32 := 4

structure RegisteredWorker where
  session : SessionId
  worker : WorkerId
  boot : WorkerBootId
  generation : WorkerGeneration
  epoch : CoordinatorEpoch
  detail : Bytes
deriving DecidableEq

structure CoordinatorConfig where
  enablePersistence : Bool := true
  maxBundleBytes : Nat := 256 * 1024 * 1024
  maxBlobBytes : Nat := 128 * 1024 * 1024
  maxArtifactBytes : Nat := 128 * 1024 * 1024
  maxUnits : Nat := 4096
  maxWorkers : Nat := 4096
  maxAttemptsHardCap : UInt32 := 16
  snapshotEveryRecords : Nat := 16384
  maxCompileMillis : UInt64 := 600000

end DistributedCompilation
