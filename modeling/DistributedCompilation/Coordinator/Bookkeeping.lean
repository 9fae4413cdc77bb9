import DistributedCompilation.Coordinator.Impl
import DistributedCompilation.Runtime.Eligibility

/-!
# Distributed Compilation — coordinator bookkeeping

The helpers of `coordinator.cpp` that the transactions share: violations, the
expectation a claim is checked against, worker selection, the cache, the
attempt lifecycle and fencing.

A C++ reference to a table entry is its key here: `with…` rewrites the entry a
reference names, `persist…` appends what it holds at that moment.
-/

namespace DistributedCompilation

open Program (forEach leave)

-- ---------------------------------------------------------------------------
-- Table entries
-- ---------------------------------------------------------------------------

namespace State

def withCompilation (s : State) (id : CompilationId)
    (f : CompilationRecord → CompilationRecord) : State :=
  { s with compilations := s.compilations.modify id f }

def withAttempt (s : State) (id : CompilationAttemptId)
    (f : CompilationAttempt → CompilationAttempt) : State :=
  { s with attempts := s.attempts.modify id f }

def withWorker (s : State) (id : WorkerId) (f : WorkerRecord → WorkerRecord) : State :=
  { s with workers := s.workers.modify id f }

def withLease (s : State) (id : LeaseId) (f : CompileLease → CompileLease) : State :=
  { s with leases := s.leases.modify id f }

def withSession (s : State) (id : SessionId) (f : SessionRecord → SessionRecord) : State :=
  { s with sessions := s.sessions.modify id f }

def withCommit (s : State) (id : ArtifactCommitId) (f : ArtifactCommit → ArtifactCommit) : State :=
  { s with commits := s.commits.modify id f }

def withCacheEntry (s : State) (id : CacheEntryId) (f : CacheEntry → CacheEntry) : State :=
  { s with cacheEntries := s.cacheEntries.modify id f }

def withJob (s : State) (identity : Digest256) (f : JobRecord → JobRecord) : State :=
  { s with jobs := s.jobs.modify identity f }

def control (s : State) (messages : List ControlMessage) : State :=
  { s with controls := s.controls ++ messages }

end State

def onCompilation (id : CompilationId) (f : CompilationRecord → CompilationRecord) : M Unit :=
  onState (·.withCompilation id f)

def onAttempt (id : CompilationAttemptId) (f : CompilationAttempt → CompilationAttempt) : M Unit :=
  onState (·.withAttempt id f)

def onWorker (id : WorkerId) (f : WorkerRecord → WorkerRecord) : M Unit :=
  onState (·.withWorker id f)

def persistCompilation (id : CompilationId) : M (Result Unit) := do
  let s ← getState
  match s.compilations[id]? with
  | some compilation => persist (.compilation compilation)
  | none => pure (.ok ())

def persistAttempt (id : CompilationAttemptId) : M (Result Unit) := do
  let s ← getState
  match s.attempts[id]? with
  | some attempt => persist (.attempt attempt)
  | none => pure (.ok ())

def persistWorker (id : WorkerId) : M (Result Unit) := do
  let s ← getState
  match s.workers[id]? with
  | some worker => persist (.worker worker)
  | none => pure (.ok ())

/-- `(void)persist(...)` of a referenced entry. -/
def ignoring (m : M (Result Unit)) : M Unit := do
  let _ ← m

/-- `if (!status.ok()) return status`. -/
def orReturn (m : M (Result Unit)) : M Unit := do
  let status ← m
  orLeave status

-- ---------------------------------------------------------------------------
-- Violations
-- ---------------------------------------------------------------------------

/-- `record_violation`: violations are diagnostic and bounded. -/
def recordViolation (operation : String) (code : ErrorCode) (session : SessionId)
    (worker : WorkerId) (detail : Bytes) : M Unit := do
  let s ← getState
  if 4096 < s.violations.length then pure ()
  else
    let at' ← now
    onState fun s => { s with
      violations := s.violations ++
        [{ at', operation := txt operation, code, session, worker, detail }] }

-- ---------------------------------------------------------------------------
-- Authority
-- ---------------------------------------------------------------------------

/-- `expectation_for`: assembled from the compilation's and the attempt's own
fields. -/
def State.expectationFor (s : State) (compilation : CompilationRecord)
    (attempt : CompilationAttempt) : AuthorityExpectation where
  epoch := s.header.epoch
  compilation := compilation.id
  compilationGeneration := compilation.generation
  unit := compilation.unit
  unitGeneration := compilation.unitGeneration
  attempt := attempt.id
  attemptGeneration := attempt.generation
  worker := attempt.worker
  workerBoot := attempt.workerBoot
  workerGeneration := attempt.workerGeneration
  lease := attempt.lease
  leaseGeneration := attempt.leaseGeneration
  sourceGeneration := compilation.sourceGeneration
  irGeneration := compilation.irGeneration
  dependencyGeneration := compilation.dependencyGeneration
  toolchainGeneration := compilation.toolchainGeneration
  targetGeneration := compilation.targetGeneration
  specializationGeneration := compilation.specializationGeneration
  policyGeneration := compilation.policyGeneration
  cacheGeneration := s.header.cacheGeneration
  requestIdentity := compilation.requestIdentity
  unitIdentity := compilation.unitIdentity

-- ---------------------------------------------------------------------------
-- Worker selection
-- ---------------------------------------------------------------------------

/-- A compilation whose artifact others may use. -/
def CompilationState.available : CompilationState → Bool
  | .committed | .cacheHit => true
  | _ => false

/-- The unit a compilation record resolves to: `find_request` and `find_unit`. -/
def State.resolve (s : State) (compilation : CompilationRecord) :
    Option (CompilationRequest × CompilationUnitSpec) := do
  let request ← s.requests[compilation.requestIdentity]?
  let unit ← request.findUnit compilation.unitIndex
  pure (request, unit)

/-- `requirements_for`. -/
def State.requirementsFor (s : State) (compilation : CompilationRecord) : HardRequirements :=
  let requirements : HardRequirements := match s.resolve compilation with
    | none => {}
    | some (request, unit) => deriveRequirements request unit
  { requirements with
    toolchainIdentity := some compilation.toolchainIdentity
    targetIdentity := some compilation.targetIdentity }

/-- A worker that may be given work now. -/
def State.isCandidate (s : State) (requirements : HardRequirements) (worker : WorkerRecord) : Bool :=
  !worker.session.isZero &&
    match s.sessions[worker.session]? with
    | none => false
    | some session =>
      session.isOpen && decide (worker.inFlight < session.maxInflight) &&
        eligible worker requirements

/-- `eligible_workers` for the empty list of busy compilations, the only one it
is called with. -/
def State.eligibleWorkers (s : State) (requirements : HardRequirements) : List WorkerRecord :=
  s.workers.values.filter (s.isCandidate requirements)

-- ---------------------------------------------------------------------------
-- Cache
-- ---------------------------------------------------------------------------

section Cache

/-- The decision of an entry that differs in one dimension. -/
def cacheMismatch (entry : CacheEntry) (outcome : CacheOutcome) (reason : Bytes)
    (dimension : String) (expected actual : Bytes) : CacheDecision where
  outcome := outcome
  reason := reason
  mismatches := [{ dimension := txt dimension, expected, actual }]
  entry := entry.id

/-- `evaluate_cache_metadata`. -/
def evaluateCacheMetadata (compilation : CompilationRecord) (entry : CacheEntry) : CacheDecision :=
  let differs (outcome : CacheOutcome) (reason dimension : String) (expected actual : Digest256) :=
    cacheMismatch entry outcome (txt reason) dimension expected.hex actual.hex
  if entry.invalidated then
    cacheMismatch entry .stale
      (txt "cache entry was explicitly invalidated: " ++ entry.invalidationReason)
      "invalidated" (txt "false") (txt "true")
  else if entry.unitIdentity ≠ compilation.unitIdentity then
    differs .incompatible "cache entry belongs to a different unit identity" "unit_identity"
      compilation.unitIdentity entry.unitIdentity
  else if entry.sourceIdentity ≠ compilation.sourceIdentity then
    differs .stale "source generation content changed since this cache entry was produced"
      "source_identity" compilation.sourceIdentity entry.sourceIdentity
  else if entry.dependencyIdentity ≠ compilation.dependencyIdentity then
    differs .stale "dependency content changed since this cache entry was produced"
      "dependency_identity" compilation.dependencyIdentity entry.dependencyIdentity
  else if entry.toolchainIdentity ≠ compilation.toolchainIdentity then
    differs .stale "toolchain identity changed since this cache entry was produced"
      "toolchain_identity" compilation.toolchainIdentity entry.toolchainIdentity
  else if entry.targetIdentity ≠ compilation.targetIdentity then
    differs .stale "target identity changed since this cache entry was produced"
      "target_identity" compilation.targetIdentity entry.targetIdentity
  else if entry.specializationIdentity ≠ compilation.specializationIdentity then
    differs .stale "specialization changed since this cache entry was produced"
      "specialization_identity" compilation.specializationIdentity entry.specializationIdentity
  else if entry.policyIdentity ≠ compilation.policyIdentity then
    differs .stale "compile policy changed since this cache entry was produced" "policy_identity"
      compilation.policyIdentity entry.policyIdentity
  else if entry.environmentIdentity ≠ compilation.environmentIdentity then
    differs .incompatible "compile environment contract changed" "environment_identity"
      compilation.environmentIdentity entry.environmentIdentity
  else
    { outcome := .reusable
      reason := txt "cache entry matches every identity dimension"
      entry := entry.id
      generationDrift := entry.toolchainGeneration ≠ compilation.toolchainGeneration ∨
        entry.targetGeneration ≠ compilation.targetGeneration }

/-- `evaluate_cache_blob`. -/
def evaluateCacheBlob (compilation : CompilationRecord) (entry : CacheEntry) (blobOk : Bool) :
    CacheDecision :=
  let decision := evaluateCacheMetadata compilation entry
  if !decision.reusable then decision
  else if !blobOk then
    { decision with
      outcome := .corrupt
      reason := txt "cached artifact is missing or does not match its digest"
      mismatches := decision.mismatches ++
        [{ dimension := txt "artifact", expected := entry.artifact.digest.hex
           actual := txt "missing" }] }
  else decision

def CacheEntry.touch (entry : CacheEntry) : CacheEntry :=
  if entry.hitCount < 0xFFFFFFFF then { entry with hitCount := entry.hitCount + 1 } else entry

/-- `touch_cache_entry` on an entry of the table. -/
def touchCacheEntry (id : CacheEntryId) : M Unit := do
  let s ← getState
  match s.cacheEntries[id]? with
  | none => pure ()
  | some entry =>
    onState (·.withCacheEntry id CacheEntry.touch)
    persistVoid (.cacheEntry entry.touch)

/-- The entry `record_cache_entry` builds for a committed artifact. -/
def cacheEntryFor (id : CacheEntryId) (generation : CacheGeneration) (createdAt : UnixMillis)
    (compilation : CompilationRecord) (commit : ArtifactCommit) (provenance : Provenance) :
    CacheEntry where
  id := id
  generation := generation
  unitIdentity := compilation.unitIdentity
  compilation := compilation.id
  compilationGeneration := compilation.generation
  artifact := provenance.artifact
  artifactId := commit.artifact
  provenance := provenance.id
  validation := commit.validation
  sourceIdentity := compilation.sourceIdentity
  dependencyIdentity := compilation.dependencyIdentity
  toolchainIdentity := compilation.toolchainIdentity
  toolchainGeneration := compilation.toolchainGeneration
  targetIdentity := compilation.targetIdentity
  targetGeneration := compilation.targetGeneration
  specializationIdentity := compilation.specializationIdentity
  policyIdentity := compilation.policyIdentity
  environmentIdentity := compilation.environmentIdentity
  commit := commit.id
  createdAt := createdAt

def CacheEntry.invalidate (entry : CacheEntry) : CacheEntry :=
  { entry with
    invalidated := true
    invalidationReason := txt "superseded by a newer cache generation" }

/-- `header.next_cache_entry_id++`. -/
def State.drawCacheEntryId (s : State) : State :=
  { s with header := { s.header with nextCacheEntryId := s.header.nextCacheEntryId + 1 } }

/-- `cache_index[entry.unit_identity] = entry.id; cache_entries[entry.id] = entry`. -/
def State.indexEntry (s : State) (entry : CacheEntry) : State :=
  { s with
    cacheIndex := s.cacheIndex.insert entry.unitIdentity entry.id
    cacheEntries := s.cacheEntries.insert entry.id entry }

/-- Invalidates what the index names for a unit identity. -/
def invalidateIndexed (unitIdentity : Digest256) : M Unit := do
  let s ← getState
  match s.cacheIndex[unitIdentity]? with
  | none => pure ()
  | some id =>
    match s.cacheEntries[id]? with
    | none => pure ()
    | some prior =>
      onState (·.withCacheEntry id CacheEntry.invalidate)
      persistVoid (.cacheEntry prior.invalidate)

/-- `record_cache_entry`. -/
def recordCacheEntry (compilation : CompilationRecord) (commit : ArtifactCommit)
    (provenance : Provenance) : M Unit := do
  let s ← getState
  onState State.drawCacheEntryId
  let createdAt ← now
  let entry := cacheEntryFor ⟨s.header.nextCacheEntryId⟩ s.header.cacheGeneration createdAt
    compilation commit provenance
  invalidateIndexed entry.unitIdentity
  onState (·.indexEntry entry)
  persistVoid (.cacheEntry entry)

end Cache

-- ---------------------------------------------------------------------------
-- Attempts
-- ---------------------------------------------------------------------------

/-- `transition_attempt` on an attempt by value. -/
def moveAttempt (attempt : CompilationAttempt) (next : AttemptState) :
    Result CompilationAttempt :=
  if attempt.state = next then .ok attempt
  else if isLegalTransition attempt.state next then .ok { attempt with state := next }
  else failure .illegalTransition
    (txt "attempt " ++ decimal attempt.id.value ++ txt " cannot move from " ++
      attempt.state.text ++ txt " to " ++ next.text)

theorem legal_of_moveAttempt {attempt moved : CompilationAttempt} {next : AttemptState}
    (h : moveAttempt attempt next = .ok moved) :
    moved = { attempt with state := next } ∧
      (next = attempt.state ∨ isLegalTransition attempt.state next = true) := by
  unfold moveAttempt at h
  split at h
  next hsame =>
    subst hsame
    exact ⟨(Except.ok.inj h).symm, .inl rfl⟩
  next =>
    split at h
    next hlegal => exact ⟨(Except.ok.inj h).symm, .inr hlegal⟩
    next => cases h

/-- `transition_attempt` on an entry of the table. -/
def transitionAttempt (id : CompilationAttemptId) (next : AttemptState) : M (Result Unit) := do
  let s ← getState
  match s.attempts[id]? with
  | none => pure (.ok ())
  | some attempt =>
    match moveAttempt attempt next with
    | .error status => pure (.error status)
    | .ok moved =>
      onAttempt id fun _ => moved
      pure (.ok ())

/-- What the end of an attempt changes on its worker. -/
def WorkerRecord.finished (worker : WorkerRecord) (attempt : CompilationAttempt)
    (lastSeen : UnixMillis) : WorkerRecord :=
  { worker with
    inFlight := if worker.inFlight = 0 then 0 else worker.inFlight - 1
    completedUnits := if attempt.state = .committed then worker.completedUnits + 1
      else worker.completedUnits
    totalCompileMillis := if attempt.state = .committed then
      worker.totalCompileMillis + attempt.compilerWallMillis else worker.totalCompileMillis
    failedUnits := if attempt.state = .committed then worker.failedUnits
      else worker.failedUnits + 1
    activeLeases := worker.activeLeases.filter (· ≠ attempt.lease)
    lastSeen := lastSeen }

def CompileLease.revoke (lease : CompileLease) (reason : Bytes) : CompileLease :=
  { lease with
    revoked := true
    revocationReason := if lease.revocationReason.isEmpty then reason else lease.revocationReason }

/-- `finish_attempt_bookkeeping`. -/
def finishAttemptBookkeeping (id : CompilationAttemptId) : M Unit := do
  let finishedAt ← now
  onAttempt id fun attempt => { attempt with finishedAt }
  let s ← getState
  match s.attempts[id]? with
  | none => pure ()
  | some attempt =>
    if s.workers.contains attempt.worker then
      let lastSeen ← now
      onWorker attempt.worker (·.finished attempt lastSeen)
    onState (·.withLease attempt.lease fun lease =>
      lease.revoke (txt "attempt reached " ++ attempt.state.text))

/-- The message that tells a worker to stop an attempt. -/
def cancelMessage (s : State) (compilation : CompilationRecord) (attempt : CompilationAttempt)
    (reason : Bytes) : ControlMessage where
  session := match s.workers[attempt.worker]? with
    | some worker => worker.session
    | none => {}
  kind := .cancelAttempt
  compilation := compilation.id
  compilationGeneration := compilation.generation
  attempt := attempt.id
  attemptGeneration := attempt.generation
  lease := attempt.lease
  leaseGeneration := attempt.leaseGeneration
  reason := reason

/-- `enqueue_cancel_losers`. -/
def State.cancelLosers (s : State) (compilation : CompilationRecord)
    (winner : CompilationAttemptId) : List ControlMessage :=
  compilation.attempts.filterMap fun id => do
    let other ← s.attempts[id]?
    if id ≠ winner ∧ holdsCommitAuthority other.state then
      some (cancelMessage s compilation other
        (txt "logical compilation already committed by attempt " ++ decimal winner.value))
    else none

-- ---------------------------------------------------------------------------
-- Fencing
-- ---------------------------------------------------------------------------

/-- `revoke_leases_for`. -/
def State.revokeLeasesFor (s : State) (worker : WorkerId) (reason : Bytes) : State :=
  { s with leases := s.leases.map fun _ lease =>
      if lease.worker = worker ∧ lease.revoked = false then
        { lease with revoked := true, revocationReason := reason }
      else lease }

section Fencing

variable [HashFunction]

/-- Capabilities nobody vouches for. The digest is recomputed last, so it stays
as it was when its computation throws. -/
def WorkerCapabilities.distrusted (caps : WorkerCapabilities) : WorkerCapabilities :=
  match tryCanonicalizeCapabilities { caps with evidence := .unknown } with
  | .ok caps => caps
  | .error _ => { caps with evidence := .unknown }

/-- `mark_capabilities_unknown` on an entry of the worker table. -/
def markCapabilitiesUnknown (id : WorkerId) : M Unit := do
  let s ← getState
  match s.workers[id]? with
  | none => pure ()
  | some worker =>
    onWorker id fun worker => { worker with capabilities := worker.capabilities.distrusted }
    match tryCanonicalizeCapabilities { worker.capabilities with evidence := .unknown } with
    | .ok _ => pure ()
    | .error fault => leave fault

/-- The fields a fence resets. -/
def WorkerRecord.unseated (worker : WorkerRecord) : WorkerRecord :=
  { worker with
    fenced := true
    ready := false
    health := .fenced
    inFlight := 0
    session := {}
    activeLeases := []
    trustedEvidenceFresh := false }

/-- `fence_worker`. -/
def fenceWorker (id : WorkerId) (reason : Bytes) : M Unit := do
  onWorker id fun worker => { worker.unseated with generation := worker.generation.next }
  markCapabilitiesUnknown id
  onState (·.revokeLeasesFor id reason)

end Fencing

end DistributedCompilation
