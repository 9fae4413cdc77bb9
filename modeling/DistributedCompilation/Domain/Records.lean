import DistributedCompilation.Domain.Request

/-!
# Distributed Compilation — coordinator records

The second half of `model.hpp` and the records of `runtime.hpp`: what the
coordinator keeps about artifacts, caches, workers, leases, attempts and
compilations. Field order follows the source, because the codecs write the
fields in that order.
-/

namespace DistributedCompilation

-- ---------------------------------------------------------------------------
-- Enumerations
-- ---------------------------------------------------------------------------

inductive ValidationOutcome | pass | fail | unknown
deriving DecidableEq, Inhabited

inductive CacheOutcome | reusable | stale | incompatible | corrupt | unknown | miss
deriving DecidableEq, Inhabited

inductive NegativeCacheReason
  | unsupportedTarget | deterministicCompilerRejection | incompatibleSourceToolchain | policyRefusal
deriving DecidableEq, Inhabited

inductive IntermediateKind
  | preprocessedSource | generatedIr | optimizedIr | deviceCode | objectFile | linkInput | metadata
deriving DecidableEq, Inhabited

inductive WorkerHealth | unknown | healthy | suspect | dead | fenced | draining
deriving DecidableEq, Inhabited

inductive AttemptState
  | created | eligible | assigned | preparing | running | produced | validating | commitReady
  | committed | failed | cancelled | fenced | ambiguous | retired
deriving DecidableEq, Inhabited

inductive CompilationState
  | pending | cacheHit | eligible | assigned | running | producing | validating | commitReady
  | committed | failed | cancelled | fenced | ambiguous | retired
deriving DecidableEq, Inhabited

instance : WireEnum ValidationOutcome where
  values := [.pass, .fail, .unknown]
  complete a := by cases a <;> decide
  small := by decide

instance : WireEnum NegativeCacheReason where
  values := [.unsupportedTarget, .deterministicCompilerRejection, .incompatibleSourceToolchain,
    .policyRefusal]
  complete a := by cases a <;> decide
  small := by decide

instance : WireEnum IntermediateKind where
  values := [.preprocessedSource, .generatedIr, .optimizedIr, .deviceCode, .objectFile, .linkInput,
    .metadata]
  complete a := by cases a <;> decide
  small := by decide

instance : WireEnum WorkerHealth where
  values := [.unknown, .healthy, .suspect, .dead, .fenced, .draining]
  complete a := by cases a <;> decide
  small := by decide

instance : WireEnum AttemptState where
  values := [.created, .eligible, .assigned, .preparing, .running, .produced, .validating,
    .commitReady, .committed, .failed, .cancelled, .fenced, .ambiguous, .retired]
  complete a := by cases a <;> decide
  small := by decide

instance : WireEnum CompilationState where
  values := [.pending, .cacheHit, .eligible, .assigned, .running, .producing, .validating,
    .commitReady, .committed, .failed, .cancelled, .fenced, .ambiguous, .retired]
  complete a := by cases a <;> decide
  small := by decide

namespace AttemptState

/-- `to_string(AttemptState)`. -/
def text : AttemptState → Bytes
  | created => txt "Created"
  | eligible => txt "Eligible"
  | assigned => txt "Assigned"
  | preparing => txt "Preparing"
  | running => txt "Running"
  | produced => txt "Produced"
  | validating => txt "Validating"
  | commitReady => txt "CommitReady"
  | committed => txt "Committed"
  | failed => txt "Failed"
  | cancelled => txt "Cancelled"
  | fenced => txt "Fenced"
  | ambiguous => txt "Ambiguous"
  | retired => txt "Retired"

end AttemptState

namespace CompilationState

/-- `to_string(CompilationState)`. -/
def text : CompilationState → Bytes
  | pending => txt "Pending"
  | cacheHit => txt "CacheHit"
  | eligible => txt "Eligible"
  | assigned => txt "Assigned"
  | running => txt "Running"
  | producing => txt "Producing"
  | validating => txt "Validating"
  | commitReady => txt "CommitReady"
  | committed => txt "Committed"
  | failed => txt "Failed"
  | cancelled => txt "Cancelled"
  | fenced => txt "Fenced"
  | ambiguous => txt "Ambiguous"
  | retired => txt "Retired"

end CompilationState

-- ---------------------------------------------------------------------------
-- Validation, provenance, commits
-- ---------------------------------------------------------------------------

structure ValidationCheck where
  check : Bytes := []
  outcome : ValidationOutcome := .unknown
  detail : Bytes := []
deriving DecidableEq, Inhabited

structure ValidationReport where
  id : ValidationId := {}
  checks : List ValidationCheck := []
  aggregate : ValidationOutcome := .unknown
  summary : Bytes := []
deriving DecidableEq, Inhabited

structure Provenance where
  id : ProvenanceId := {}
  generation : ProvenanceGeneration := {}
  compilation : CompilationId := {}
  compilationGeneration : CompilationGeneration := {}
  unit : CompilationUnitId := {}
  attempt : CompilationAttemptId := {}
  attemptGeneration : CompilationAttemptGeneration := {}
  epoch : CoordinatorEpoch := {}
  worker : WorkerId := {}
  workerBoot : WorkerBootId := {}
  workerGeneration : WorkerGeneration := {}
  lease : LeaseId := {}
  leaseGeneration : LeaseGeneration := {}
  requestId : RequestId := {}
  requestIdentity : Digest256 := default
  unitIdentity : Digest256 := default
  artifact : ContentRef := {}
  sourceIdentity : Digest256 := default
  irIdentity : Digest256 := default
  dependencyIdentity : Digest256 := default
  toolchainIdentity : Digest256 := default
  targetIdentity : Digest256 := default
  specializationIdentity : Digest256 := default
  policyIdentity : Digest256 := default
  validation : ValidationId := {}
  evidence : EvidenceClass := .unknown
  compilerInvocation : Bytes := []
  compilerVersionString : Bytes := []
  compilerWallMillis : UInt64 := 0
  producedAt : UnixMillis := 0
deriving DecidableEq, Inhabited

structure ArtifactCommit where
  id : ArtifactCommitId := {}
  generation : ArtifactCommitGeneration := {}
  compilation : CompilationId := {}
  compilationGeneration : CompilationGeneration := {}
  unit : CompilationUnitId := {}
  artifact : ArtifactId := {}
  artifactGeneration : ArtifactGeneration := {}
  artifactDigest : Digest256 := default
  provenance : ProvenanceId := {}
  validation : ValidationId := {}
  epoch : CoordinatorEpoch := {}
  worker : WorkerId := {}
  workerBoot : WorkerBootId := {}
  attempt : CompilationAttemptId := {}
  committedAt : UnixMillis := 0
  deduplicated : Bool := false
  superseded : Bool := false
deriving DecidableEq, Inhabited

-- ---------------------------------------------------------------------------
-- Caches and intermediates
-- ---------------------------------------------------------------------------

structure CacheEntry where
  id : CacheEntryId := {}
  generation : CacheGeneration := {}
  unitIdentity : Digest256 := default
  compilation : CompilationId := {}
  compilationGeneration : CompilationGeneration := {}
  artifact : ContentRef := {}
  artifactId : ArtifactId := {}
  provenance : ProvenanceId := {}
  validation : ValidationId := {}
  sourceIdentity : Digest256 := default
  dependencyIdentity : Digest256 := default
  toolchainIdentity : Digest256 := default
  toolchainGeneration : ToolchainGeneration := {}
  targetIdentity : Digest256 := default
  targetGeneration : TargetGeneration := {}
  specializationIdentity : Digest256 := default
  policyIdentity : Digest256 := default
  environmentIdentity : Digest256 := default
  commit : ArtifactCommitId := {}
  createdAt : UnixMillis := 0
  invalidated : Bool := false
  invalidationReason : Bytes := []
  hitCount : UInt32 := 0
deriving DecidableEq, Inhabited

structure CacheMismatch where
  dimension : Bytes
  expected : Bytes
  actual : Bytes
deriving DecidableEq

structure CacheDecision where
  outcome : CacheOutcome := .miss
  reason : Bytes := []
  mismatches : List CacheMismatch := []
  entry : CacheEntryId := {}
  generationDrift : Bool := false
deriving DecidableEq

/-- `CacheDecision::reusable`. -/
def CacheDecision.reusable (d : CacheDecision) : Bool := d.outcome == .reusable

structure NegativeCacheEntry where
  id : CacheEntryId := {}
  unitIdentity : Digest256 := default
  reason : NegativeCacheReason := .deterministicCompilerRejection
  failure : ErrorCode := .validationFailure
  diagnostic : Bytes := []
  toolchainIdentity : Digest256 := default
  toolchainGeneration : ToolchainGeneration := {}
  targetIdentity : Digest256 := default
  targetGeneration : TargetGeneration := {}
  specializationIdentity : Digest256 := default
  policyIdentity : Digest256 := default
  createdAt : UnixMillis := 0
deriving DecidableEq

structure IntermediateArtifact where
  id : IntermediateId := {}
  generation : IntermediateGeneration := {}
  kind : IntermediateKind := .metadata
  content : ContentRef := {}
  provenanceIdentity : Digest256 := default
  toolchainIdentity : Digest256 := default
  targetIdentity : Digest256 := default
  dependencyIdentity : Digest256 := default
  compilation : CompilationId := {}
  compilationGeneration : CompilationGeneration := {}
  authoritative : Bool := false
deriving DecidableEq

-- ---------------------------------------------------------------------------
-- Workers and leases
-- ---------------------------------------------------------------------------

structure WorkerCapabilities where
  toolchains : List ToolchainIdentity := []
  targets : List TargetIdentity := []
  inputFormats : List InputFormat := []
  plugins : List PluginIdentity := []
  sdks : List SdkComponent := []
  logicalCores : UInt32 := 0
  memoryBytes : UInt64 := 0
  scratchBytes : UInt64 := 0
  maxArtifactBytes : UInt64 := 0
  filesystemIsolation : Bool := false
  sandbox : Bool := false
  deterministicBuild : Bool := false
  remoteCacheAccess : Bool := false
  artifactStoreAccess : Bool := false
  trusted : Bool := false
  evidence : EvidenceClass := .unknown
  host : Bytes := []
  digest : Digest256 := default
deriving DecidableEq, Inhabited

structure WorkerRecord where
  id : WorkerId := {}
  boot : WorkerBootId := {}
  generation : WorkerGeneration := {}
  session : SessionId := {}
  endpoint : Bytes := []
  host : Bytes := []
  capabilities : WorkerCapabilities := {}
  health : WorkerHealth := .unknown
  ready : Bool := false
  fenced : Bool := false
  trustedEvidenceFresh : Bool := false
  queueDepth : UInt32 := 0
  inFlight : UInt32 := 0
  completedUnits : UInt64 := 0
  failedUnits : UInt64 := 0
  totalCompileMillis : UInt64 := 0
  cacheAffinityHits : UInt64 := 0
  registeredAt : UnixMillis := 0
  lastSeen : UnixMillis := 0
  activeLeases : List LeaseId := []
deriving DecidableEq, Inhabited

structure CompileLease where
  id : LeaseId := {}
  generation : LeaseGeneration := {}
  compilation : CompilationId := {}
  compilationGeneration : CompilationGeneration := {}
  unit : CompilationUnitId := {}
  attempt : CompilationAttemptId := {}
  worker : WorkerId := {}
  workerBoot : WorkerBootId := {}
  workerGeneration : WorkerGeneration := {}
  epoch : CoordinatorEpoch := {}
  issuedAt : UnixMillis := 0
  revoked : Bool := false
  revocationReason : Bytes := []
deriving DecidableEq, Inhabited

-- ---------------------------------------------------------------------------
-- Attempts, compilations, jobs
-- ---------------------------------------------------------------------------

structure CompilationAttempt where
  id : CompilationAttemptId := {}
  generation : CompilationAttemptGeneration := {}
  compilation : CompilationId := {}
  compilationGeneration : CompilationGeneration := {}
  unit : CompilationUnitId := {}
  worker : WorkerId := {}
  workerBoot : WorkerBootId := {}
  workerGeneration : WorkerGeneration := {}
  lease : LeaseId := {}
  leaseGeneration : LeaseGeneration := {}
  epoch : CoordinatorEpoch := {}
  state : AttemptState := .created
  ordinal : UInt32 := 0
  speculative : Bool := false
  createdAt : UnixMillis := 0
  startedAt : UnixMillis := 0
  finishedAt : UnixMillis := 0
  failure : ErrorCode := .ok
  failureDetail : Bytes := []
  validation : ValidationReport := {}
  candidate : ContentRef := {}
  candidateDigest : Digest256 := default
  artifact : ArtifactId := {}
  compilerWallMillis : UInt64 := 0
  compilerInvocation : Bytes := []
  compilerVersionString : Bytes := []
deriving DecidableEq, Inhabited

structure CompilationRecord where
  id : CompilationId := {}
  generation : CompilationGeneration := {}
  unit : CompilationUnitId := {}
  unitGeneration : UnitGeneration := {}
  unitIdentity : Digest256 := default
  requestId : RequestId := {}
  requestGeneration : RequestGeneration := {}
  requestIdentity : Digest256 := default
  sourceIdentity : Digest256 := default
  dependencyIdentity : Digest256 := default
  toolchainIdentity : Digest256 := default
  targetIdentity : Digest256 := default
  specializationIdentity : Digest256 := default
  policyIdentity : Digest256 := default
  environmentIdentity : Digest256 := default
  sourceGeneration : SourceGeneration := {}
  irGeneration : IRGeneration := {}
  dependencyGeneration : DependencyGeneration := {}
  toolchainGeneration : ToolchainGeneration := {}
  targetGeneration : TargetGeneration := {}
  specializationGeneration : SpecializationGeneration := {}
  policyGeneration : CompilePolicyGeneration := {}
  outputKind : OutputKind := .object
  reproducibility : ReproducibilityRequirement := .preferred
  state : CompilationState := .pending
  attempts : List CompilationAttemptId := []
  currentAttempt : CompilationAttemptId := {}
  attemptOrdinalCounter : UInt32 := 0
  commit : Option ArtifactCommit := none
  divergentCandidates : List ContentRef := []
  reproducibilityViolation : Bool := false
  failureDetail : Bytes := []
  failure : ErrorCode := .ok
  cacheHit : Bool := false
  createdAt : UnixMillis := 0
  updatedAt : UnixMillis := 0
  unitIndex : UInt32 := 0
  parentUnitIndex : UInt32 := 0
  isRoot : Bool := true
deriving DecidableEq, Inhabited

structure JobRecord where
  requestId : RequestId := {}
  requestGeneration : RequestGeneration := {}
  requestIdentity : Digest256 := default
  units : List CompilationId := []
  rootIndex : UInt32 := 0
  mandatoryUnits : List UInt32 := []
  committed : Bool := false
  committedUnit : CompilationId := {}
  failure : ErrorCode := .ok
  failureDetail : Bytes := []
  createdAt : UnixMillis := 0
deriving DecidableEq, Inhabited

end DistributedCompilation
