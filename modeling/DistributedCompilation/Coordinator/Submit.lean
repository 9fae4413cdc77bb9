import DistributedCompilation.Coordinator.Bookkeeping
import DistributedCompilation.Domain.Canonicalize

/-!
# Distributed Compilation — submission

`register_and_check` and `Coordinator::submit`: ingest the bundle, resolve the
registries, record every unit as a compilation, then answer every unit from the
cache, from its commit or by queueing it.

Compilations are stored under their own id, so the key stands for `record.id`.
-/

namespace DistributedCompilation

open Program (forEach update)

-- ---------------------------------------------------------------------------
-- Bundle checks
-- ---------------------------------------------------------------------------

section

variable [HashFunction]

/-- The loop over the blobs of a bundle; `total` is the size seen so far. -/
def checkBlobs (config : CoordinatorConfig) : Nat → List Blob → Result Unit
  | _, [] => .ok ()
  | total, blob :: rest =>
    let total := total + blob.bytes.length
    if config.maxBundleBytes < total then
      failure .limitExceeded (txt "submission bundle exceeds the configured bound")
    else if config.maxBlobBytes < blob.bytes.length then
      failure .limitExceeded (txt "submission blob exceeds the configured bound")
    else if ¬blob.digest.isZero ∧ sha256 blob.bytes ≠ blob.digest then
      failure .integrityFailure (txt "submission blob does not match its declared digest")
    else checkBlobs config total rest

def checkBundle (config : CoordinatorConfig) (bundle : SubmissionBundle) : Result Unit :=
  if config.maxUnits < bundle.request.units.length then
    failure .limitExceeded (txt "compilation request exceeds the unit bound")
  else checkBlobs config 0 bundle.blobs

/-- `find_blob(digest) != nullptr`. -/
def SubmissionBundle.provides (bundle : SubmissionBundle) (digest : Digest256) : Bool :=
  bundle.blobs.any fun blob => blob.digest == digest || sha256 blob.bytes == digest

def checkContent (bundle : SubmissionBundle) (unit : CompilationUnitSpec) : Result Unit :=
  match unit.sources.find? (!bundle.provides ·.content.digest) with
  | some source => failure .invalidArgument
      (txt "submission bundle is missing content for '" ++ source.logicalName ++ txt "'")
  | none =>
    match unit.dependencies.find? (!bundle.provides ·.content.digest) with
    | some dep => failure .invalidArgument
        (txt "submission bundle is missing dependency content for '" ++ dep.name ++ txt "'")
    | none => .ok ()

-- ---------------------------------------------------------------------------
-- Registries
-- ---------------------------------------------------------------------------

/-- One block of `register_and_check`: the registry resolves the content, and a
declared generation has to be the resolved one. The registry keeps what it
resolved either way. -/
def resolveDeclared {tag : GenTag} (code : ErrorCode) (dimension : String) (declared : Gen tag)
    (resolve : State → Gen tag × State) : M (Gen tag) := do
  let s ← getState
  onState fun _ => (resolve s).2
  if declared.value ≠ 0 ∧ (resolve s).1.value ≠ declared.value then
    refused code (txt dimension ++ txt " generation declared as " ++ decimal declared.value ++
      txt " but the coordinator resolved " ++ decimal (resolve s).1.value)
  else pure (resolve s).1

def State.resolveToolchain (toolchain : ToolchainIdentity) (s : State) :
    ToolchainGeneration × State :=
  let (generation, toolchains) := s.toolchains.resolve toolchain.id toolchain.identityDigest
  (generation, { s with toolchains })

def State.resolveTarget (target : TargetIdentity) (s : State) : TargetGeneration × State :=
  let (generation, targets) := s.targets.resolve target.id target.identityDigest
  (generation, { s with targets })

def State.resolveSpecialization (spec : SpecializationSpec) (s : State) :
    SpecializationGeneration × State :=
  let (generation, specializations) := s.specializations.resolve spec.id spec.identityDigest
  (generation, { s with specializations })

def State.resolvePolicy (policy : CompilePolicy) (s : State) : CompilePolicyGeneration × State :=
  let (generation, policies) := s.policies.resolve policy.id policy.identityDigest
  (generation, { s with policies })

def State.resolveDependencies (set : DependencySet) (s : State) : DependencyGeneration × State :=
  let (generation, dependencies) := s.dependencies.resolve set.id set.identityDigest
  (generation, { s with dependencies })

def State.resolveSource (s : State) (source : UnitSource) : State :=
  { s with sources :=
      (s.sources.resolve (deriveSourceId source.logicalName) source.content.digest).2 }

/-- `register_and_check`. -/
def registerAndCheck (request : CompilationRequest) : M CompilationRequest := do
  if request.toolchain.id.isZero ∨ request.target.id.isZero ∨ request.specialization.id.isZero ∨
      request.policy.id.isZero ∨ request.dependencies.id.isZero then
    refused .invalidArgument (txt "every registered identity must have a non-zero logical id")
  else
    let toolchain ← resolveDeclared .staleToolchain "toolchain" request.toolchain.generation
      (State.resolveToolchain request.toolchain)
    let target ← resolveDeclared .staleTarget "target" request.target.generation
      (State.resolveTarget request.target)
    let specialization ← resolveDeclared .staleSpecialization "specialization"
      request.specialization.generation (State.resolveSpecialization request.specialization)
    let policy ← resolveDeclared .stalePolicy "policy" request.policy.generation
      (State.resolvePolicy request.policy)
    let dependencies ← resolveDeclared .staleDependencies "dependency set"
      request.dependencies.generation (State.resolveDependencies request.dependencies)
    onState fun s => (request.units.flatMap (·.sources)).foldl State.resolveSource s
    pure { request with
      toolchain := { request.toolchain with generation := toolchain }
      target := { request.target with generation := target }
      specialization := { request.specialization with generation := specialization }
      policy := { request.policy with generation := policy }
      dependencies := { request.dependencies with generation := dependencies } }

-- ---------------------------------------------------------------------------
-- Retention
-- ---------------------------------------------------------------------------

def retentionBound : Nat := 8192

/-- Unfinished work must keep its request. -/
def JobRecord.unfinished (job : JobRecord) : Bool := !job.committed && job.failure == .ok

/-- The eviction loop over `retained_order`. -/
def evictRequests (jobs : Table Digest256 JobRecord) : List Digest256 →
    Table Digest256 CompilationRequest → List Digest256 × Table Digest256 CompilationRequest
  | [], requests => ([], requests)
  | victim :: order, requests =>
    if retentionBound < (victim :: order).length ∧ ¬(jobs[victim]?.any (·.unfinished)) then
      evictRequests jobs order (requests.erase victim)
    else (victim :: order, requests)

def Impl.evictRetained (i : Impl) : Impl :=
  let (order, requests) := evictRequests i.state.jobs i.retainedOrder i.state.requests
  { i with retainedOrder := order, state := { i.state with requests } }

def State.retain (s : State) (request : CompilationRequest) : State :=
  { s with requests := s.requests.insert request.requestIdentity request }

/-- Keeps a request that is not retained yet. -/
def retainRequest (request : CompilationRequest) : M Unit := do
  let s ← getState
  if s.requests.contains request.requestIdentity then pure ()
  else
    onState (·.retain request)
    update fun i => { i with retainedOrder := i.retainedOrder ++ [request.requestIdentity] }
    update Impl.evictRetained
    persistOrLeave (.artifact request)

-- ---------------------------------------------------------------------------
-- Admission: the first loop over the units
-- ---------------------------------------------------------------------------

/-- The record of a unit that is seen for the first time. Its source identity
binds every source and dependency content the unit reads. -/
def newCompilation (request : CompilationRequest) (unit : CompilationUnitSpec)
    (createdAt : UnixMillis) : CompilationRecord where
  id := deriveCompilationId unit.identityDigest
  generation := ⟨1⟩
  unit := deriveUnitHandle unit.identityDigest
  unitGeneration := ⟨1⟩
  unitIdentity := unit.identityDigest
  requestId := request.requestId
  requestGeneration := request.requestGeneration
  requestIdentity := request.requestIdentity
  unitIndex := unit.index
  isRoot := unit.index = 0
  parentUnitIndex := 0
  outputKind := unit.outputKind
  reproducibility := request.policy.reproducibility
  createdAt := createdAt
  updatedAt := createdAt
  environmentIdentity := computeEnvironmentIdentity request.environment
  policyIdentity := request.policy.identityDigest
  specializationIdentity := request.specialization.identityDigest
  toolchainIdentity := request.toolchain.identityDigest
  targetIdentity := request.target.identityDigest
  dependencyIdentity := request.dependencies.identityDigest
  policyGeneration := request.policy.generation
  specializationGeneration := request.specialization.generation
  toolchainGeneration := request.toolchain.generation
  targetGeneration := request.target.generation
  dependencyGeneration := request.dependencies.generation
  sourceIdentity := (unitSourceIdentityRecord unit).hash

def State.create (s : State) (record : CompilationRecord) : State :=
  { s with compilations := s.compilations.insert record.id record }

/-- The generation moves on and the commit it had, if any, is superseded. -/
def State.supersede (s : State) (id : CompilationId) : State :=
  let s := s.withCompilation id fun record => { record with generation := record.generation.next }
  match s.authoritative[id]? with
  | none => s
  | some prior => s.withCommit prior fun commit => { commit with superseded := true }

/-- `authoritative.erase(prior)`. -/
def State.withdraw (s : State) (id : CompilationId) : State :=
  { s with authoritative := s.authoritative.erase id }

/-- A record as a forced rebuild leaves it. -/
def CompilationRecord.reset (record : CompilationRecord) (updatedAt : UnixMillis) :
    CompilationRecord :=
  { record with
    state := .pending
    cacheHit := false
    commit := none
    reproducibilityViolation := false
    divergentCandidates := []
    updatedAt := updatedAt }

/-- A forced rebuild of a committed compilation. -/
def rebuild (id : CompilationId) : M Unit := do
  onState (·.supersede id)
  let s ← getState
  match s.authoritative[id]? with
  | none => pure ()
  | some prior =>
    match s.commits[prior]? with
    | none => pure ()
    | some commit => persistOrLeave (.commit commit)
    onState (·.withdraw id)
  let updatedAt ← now
  onCompilation id (·.reset updatedAt)
  orReturn (persistCompilation id)

def admitUnit (forceRebuild : Bool) (request : CompilationRequest) (unit : CompilationUnitSpec) :
    M Unit := do
  let id := deriveCompilationId unit.identityDigest
  let s ← getState
  match s.compilations[id]? with
  | none =>
    let createdAt ← now
    onState (·.create (newCompilation request unit createdAt))
    persistOrLeave (.compilation (newCompilation request unit createdAt))
  | some existing =>
    if forceRebuild ∧ existing.state = .committed then rebuild id
    else if unit.index < existing.unitIndex then
      -- the index moves, the request it counts in does not
      onCompilation id fun record => { record with unitIndex := unit.index }
    else pure ()

-- ---------------------------------------------------------------------------
-- The job
-- ---------------------------------------------------------------------------

/-- `job.units.resize(size)`. -/
def resizeUnits (size : Nat) (units : List CompilationId) : List CompilationId :=
  units.take size ++ List.replicate (size - units.length) ⟨0⟩

/-- The job of a request; what the loop over the units writes into it does not
depend on the compilations. -/
def jobFor (request : CompilationRequest) (job : JobRecord) : JobRecord :=
  { job with
    units := request.units.foldl
      (fun units unit => units.set unit.index.toNat (deriveCompilationId unit.identityDigest))
      (resizeUnits request.units.length job.units)
    mandatoryUnits := uniqueBy (· == ·)
      (sortBy compare ((request.units.filter (·.mandatory)).map (·.index)))
    rootIndex := 0 }

def State.putJob (s : State) (identity : Digest256) (job : JobRecord) : State :=
  { s with jobs := s.jobs.insert identity job }

-- ---------------------------------------------------------------------------
-- Answers: the second loop over the units
-- ---------------------------------------------------------------------------

/-- The cache consultation of a unit, with the entry a reusable decision is
about. -/
def Impl.consultCache (i : Impl) (record : CompilationRecord) : CacheDecision × Option CacheEntryId :=
  match i.state.cacheIndex[record.unitIdentity]? with
  | none => ({ outcome := .miss, reason := txt "no cache entry for this unit identity" }, none)
  | some id =>
    match i.state.cacheEntries[id]? with
    | none => ({ outcome := .corrupt, reason := txt "cache index points at a missing entry" }, none)
    | some entry =>
      let decision := evaluateCacheMetadata record entry
      let decision := if decision.reusable then
          evaluateCacheBlob record entry (i.hasBlob entry.artifact.digest)
        else decision
      (decision, if decision.reusable then some id else none)

/-- The commit an entry of the table of commits holds, default-initialised when
there is none. -/
def State.commitOf (s : State) (id : ArtifactCommitId) : ArtifactCommit := (s.commits[id]?).getD {}

/-- Validated reuse: the cache entry answers the unit. -/
def serveHit (id : CompilationId) (entryId : CacheEntryId) (entry : CacheEntry)
    (submission : UnitSubmission) : M UnitSubmission := do
  let s ← getState
  let state := if s.authoritative.contains id then CompilationState.committed else .cacheHit
  let updatedAt ← now
  onCompilation id fun record => { record with state, cacheHit := true, updatedAt }
  touchCacheEntry entryId
  orReturn (persistCompilation id)
  pure { submission with
    state
    committed := true
    commit := s.commitOf entry.commit
    detail := txt "validated cache reuse: " ++ submission.cache.reason }

/-- The answer from the authoritative commit record. -/
def State.serveCommit (s : State) (id : CompilationId) (submission : UnitSubmission) :
    UnitSubmission :=
  { submission with
    committed := true
    commit := match s.authoritative[id]? with
      | none => {}
      | some commit => s.commitOf commit
    detail := txt "served from the authoritative commit record" }

def answerUnit (forceRebuild : Bool) (request : CompilationRequest) (unit : CompilationUnitSpec) :
    M UnitSubmission := do
  let id := deriveCompilationId unit.identityDigest
  let i ← Program.read
  let record := (i.state.compilations[id]?).getD {}
  let consulted : CacheDecision × Option CacheEntryId :=
    if request.policy.cache = .bypass then
      ({ outcome := .miss, reason := txt "cache policy is BYPASS" }, none)
    else i.consultCache record
  let submission : UnitSubmission :=
    { index := unit.index
      compilation := record.id
      unit := record.unit
      unitGeneration := record.unitGeneration
      unitIdentity := record.unitIdentity
      state := record.state
      cache := consulted.1 }
  match consulted.2 with
  | some entryId => serveHit id entryId ((i.state.cacheEntries[entryId]?).getD {}) submission
  | none =>
    if record.state = .committed ∧ ¬forceRebuild then pure (i.state.serveCommit id submission)
    else
      onCompilation id fun record => { record with state := .pending, cacheHit := false }
      pure { submission with
        state := .pending
        scheduled := true
        detail := txt "queued for assignment" }

-- ---------------------------------------------------------------------------
-- Submission
-- ---------------------------------------------------------------------------

/-- The first element of a vector, `CompilationId(0)` for an empty one. -/
def JobRecord.rootUnit (job : JobRecord) : CompilationId :=
  if job.units.isEmpty then {} else job.units.getD job.rootIndex.toNat {}

def JobRecord.concluded (job : JobRecord) (committed : Bool) : JobRecord :=
  { job with
    committed := committed
    committedUnit := if committed then job.rootUnit else job.committedUnit }

def storeBlobs (blobs : List Blob) : M Unit :=
  forEach blobs fun blob => orReturn (storeBlob blob.bytes)

/-- The job a submission continues or starts. -/
def openJob (request : CompilationRequest) : M JobRecord := do
  let s ← getState
  match s.jobs[request.requestIdentity]? with
  | some job => pure job
  | none =>
    let createdAt ← now
    pure {
      requestId := request.requestId
      requestGeneration := request.requestGeneration
      requestIdentity := request.requestIdentity
      createdAt }

/-- `Coordinator::submit` once the request is canonical and registered. -/
def submitRegistered (bundle : SubmissionBundle) (request : CompilationRequest) :
    M SubmissionResult := do
  let s ← getState
  let duplicateRequest := (s.jobs[request.requestIdentity]?).any (·.requestId != request.requestId)
  storeBlobs bundle.blobs
  retainRequest request
  let job ← openJob request
  forEach request.units (admitUnit bundle.forceRebuild request)
  onState (·.putJob request.requestIdentity (jobFor request job))
  persistOrLeave (.job (jobFor request job))
  let units ← Program.collect request.units fun unit => do
    let submission ← answerUnit bundle.forceRebuild request unit
    pure [submission]
  let allCommitted := units.all (·.committed)
  let concluded := (jobFor request job).concluded allCommitted
  onState (·.putJob request.requestIdentity concluded)
  persistOrLeave (.job concluded)
  pure {
    requestId := request.requestId
    requestIdentity := request.requestIdentity
    units
    allCommitted
    -- every committed unit was answered from the cache or from its commit
    servedFromCache := units.any (·.committed)
    duplicateRequest }

/-- `Coordinator::submit`. -/
def submit (bundle : SubmissionBundle) : M SubmissionResult := do
  let i ← Program.read
  orLeave (checkBundle i.config bundle)
  ensureOpen
  let request ← orThrow (canonicalize bundle.request)
  forEach request.units fun unit => orLeave (checkContent bundle unit)
  let request ← registerAndCheck request
  submitRegistered bundle request

end

end DistributedCompilation
