import DistributedCompilation.Coordinator.Failure
import DistributedCompilation.Runtime.Validate

/-!
# Distributed Compilation — reports and commits

`report_output` in its three phases and `commit_locked`. A phase holds the
mutex; between two phases any other operation may run, so what phase one leaves
in local variables is a value (`Reservation`) that the next phases take.
-/

namespace DistributedCompilation

-- ---------------------------------------------------------------------------
-- Phase 1: reservation
-- ---------------------------------------------------------------------------

/-- The local variables of a report between its phases. -/
structure Reservation where
  session : SessionId
  output : ReportOutput
  candidateDigest : Digest256
  target : TargetIdentity
  requirements : ValidationRequirements
  outputKind : OutputKind

/-- What the report leaves on its attempt before the attempt is `Produced`. -/
def CompilationAttempt.withCandidate (attempt : CompilationAttempt) (output : ReportOutput)
    (candidateDigest : Digest256) : CompilationAttempt :=
  { attempt with
    candidate := { digest := candidateDigest, size := UInt64.ofNat output.bytes.length }
    candidateDigest := candidateDigest
    compilerInvocation := output.compilerInvocation
    compilerVersionString := output.compilerVersionString
    compilerWallMillis := output.compilerWallMillis }

/-- Target, requirements and output kind the candidate is validated against. -/
def State.reservationFor (s : State) (session : SessionId) (output : ReportOutput)
    (candidateDigest : Digest256) (compilation : CompilationRecord) : Reservation :=
  match s.requests[compilation.requestIdentity]? with
  | none =>
    { session, output, candidateDigest
      target := {}, requirements := {}, outputKind := .object }
  | some request =>
    { session, output, candidateDigest
      target := request.target
      requirements := request.validation
      outputKind := ((request.findUnit compilation.unitIndex).map (·.outputKind)).getD output.kind }

section

variable [HashFunction]

/-- Phase 1 of `report_output`. -/
def reserveOutput (sessionId : SessionId) (output : ReportOutput) : M Reservation := do
  ensureOpen
  let i ← Program.read
  let s := i.state
  match s.attempts[output.claim.attempt]? with
  | none =>
    recordViolation "report_output" .staleAttempt sessionId {}
      (txt "report for an unknown attempt")
    refused .staleAttempt (txt "unknown attempt")
  | some attempt =>
  match s.compilations[output.claim.compilation]? with
  | none => refused .staleCompilation (txt "unknown compilation")
  | some compilation =>
  match s.sessions[sessionId]? with
  | none => refused .unauthorized (txt "session is not a worker session")
  | some session =>
    if ¬session.isWorker then refused .unauthorized (txt "session is not a worker session")
    else if ¬session.owns attempt then
      recordViolation "report_output" .staleWorkerBoot sessionId session.worker
        (txt "report from a session that does not own the attempt")
      refused .staleWorkerBoot (txt "session does not own this attempt")
    else
    match validateAuthority output.claim (s.expectationFor compilation attempt) with
    | .error status =>
      recordViolation "report_output" status.code sessionId session.worker status.detail
      refused status.code status.detail
    | .ok () =>
      let candidateDigest := sha256 output.bytes
      if attempt.state ≠ .running ∧ attempt.state ≠ .preparing then
        refused .staleAttempt (txt "attempt is in state " ++ attempt.state.text)
      else if i.config.maxArtifactBytes < output.bytes.length then
        refused .limitExceeded (txt "reported artifact exceeds the configured bound")
      else if ¬output.declaredDigest.isZero ∧ candidateDigest ≠ output.declaredDigest then
        refused .integrityFailure (txt "reported artifact does not match its declared digest")
      else
        onAttempt output.claim.attempt (·.withCandidate output candidateDigest)
        orReturn (transitionAttempt output.claim.attempt .produced)
        let updatedAt ← now
        -- a duplicate report must not drag a committed compilation backwards
        onCompilation output.claim.compilation fun record =>
          { record with
            state := if record.state ≠ .committed ∧ ¬s.authoritative.contains output.claim.compilation
              then .producing else record.state
            updatedAt }
        orReturn (persistAttempt output.claim.attempt)
        ignoring (persistCompilation output.claim.compilation)
        pure (s.reservationFor sessionId output candidateDigest compilation)

-- ---------------------------------------------------------------------------
-- Phase 2: validation and storage
-- ---------------------------------------------------------------------------

/-- What running the artifact on the coordinator gave: no check when the scratch
workspace could not be written, else the check of `run_smoke_test` or the one
that reports the missing workspace. -/
abbrev SmokeTest := Option ValidationCheck

/-- The aggregate after a smoke test: nothing but a failing check matters. -/
def smokeAggregate (checks : List ValidationCheck) : ValidationOutcome :=
  if checks.any (·.outcome == .fail) then .fail else .pass

def Reservation.wantsSmokeTest (r : Reservation) (report : ValidationReport) : Bool :=
  r.requirements.requireSmokeTest && r.outputKind == .executable && report.aggregate == .pass

/-- The validation of the reported bytes. -/
def Reservation.validate (r : Reservation) (smoke : SmokeTest) : ValidationReport :=
  let report := validateArtifactBytes r.output.bytes r.outputKind r.target r.requirements
    r.candidateDigest
  match smoke with
  | some check =>
    if r.wantsSmokeTest report then
      { report with
        checks := report.checks ++ [check]
        aggregate := smokeAggregate (report.checks ++ [check]) }
    else report
  | none => report

/-- The locked part of phase 2. The digest of the bytes is the one phase 1
computed: the report is owned by the call. -/
def storeOutput (r : Reservation) : M Unit := orReturn (storeBlob r.output.bytes)

end

-- ---------------------------------------------------------------------------
-- Outcomes without a new commit
-- ---------------------------------------------------------------------------

/-- The candidate failed validation: the compilation fails with it. -/
def refuseCandidate (claim : AuthorityClaim) (validation : ValidationReport) :
    M CommitDecision := do
  let detail := txt "candidate artifact failed validation: " ++ validation.summary
  ignoring (failAttemptLocked claim.attempt .validationFailure detail)
  let updatedAt ← now
  onCompilation claim.compilation fun record =>
    { record with
      state := .failed
      failure := .validationFailure
      failureDetail := detail
      updatedAt }
  ignoring (persistCompilation claim.compilation)
  pure { outcome := .refused, error := .validationFailure, detail, validation }

/-- The legal walk of a duplicate to `Committed`. -/
def walkToCommitted (id : CompilationAttemptId) (state : AttemptState) : M (Result Unit) := do
  let moved ← if state = .produced then transitionAttempt id .validating else pure (.ok ())
  let s ← getState
  let validating := (s.attempts[id]?).any (·.state == .validating)
  let moved ← if moved.isOk ∧ validating then transitionAttempt id .commitReady else pure moved
  if moved.isOk then transitionAttempt id .committed else pure moved

/-- An equivalent candidate converges on the existing commit. -/
def deduplicate (claim : AuthorityClaim) (state : AttemptState) (prior : ArtifactCommit)
    (validation : ValidationReport) : M CommitDecision := do
  let moved ← walkToCommitted claim.attempt state
  match moved with
  | .error status =>
    ignoring (failAttemptLocked claim.attempt .illegalTransition status.detail)
    refused status.code status.detail
  | .ok () =>
    onAttempt claim.attempt fun attempt =>
      { attempt with
        failure := .ok
        failureDetail := txt "deduplicated into authoritative commit " ++ decimal prior.id.value }
    finishAttemptBookkeeping claim.attempt
    ignoring (persistAttempt claim.attempt)
    let s ← getState
    if (s.compilations[claim.compilation]?).any (·.state != .committed) then
      let updatedAt ← now
      onCompilation claim.compilation fun record => { record with state := .committed, updatedAt }
      ignoring (persistCompilation claim.compilation)
    pure {
      outcome := .deduplicated
      commit := prior
      validation
      artifactAuthoritative := true
      detail := txt "equivalent candidate deduplicated onto the existing authoritative commit" }

/-- A candidate that differs from the authoritative artifact is refused; no
winner is selected. -/
def refuseDivergent (claim : AuthorityClaim) (candidate : ContentRef)
    (reproducibility : ReproducibilityRequirement) : M CommitDecision := do
  onCompilation claim.compilation fun record =>
    { record with divergentCandidates := record.divergentCandidates ++ [candidate] }
  if reproducibility = .required then
    let detail := txt ("reproducibility is REQUIRED but two workers produced different digests " ++
      "for one logical compilation")
    onCompilation claim.compilation fun record => { record with reproducibilityViolation := true }
    ignoring (failAttemptLocked claim.attempt .reproducibilityViolation detail)
    ignoring (persistCompilation claim.compilation)
    pure { outcome := .reproducibilityViolation, error := .reproducibilityViolation, detail }
  else
    let detail := txt ("candidate digest differs from the authoritative artifact; refusing to " ++
      "select a winner silently")
    ignoring (failAttemptLocked claim.attempt .artifactMismatch detail)
    ignoring (persistCompilation claim.compilation)
    pure { outcome := .refused, error := .artifactMismatch, detail }

-- ---------------------------------------------------------------------------
-- The first authoritative commit
-- ---------------------------------------------------------------------------

def State.provenanceFor (s : State) (compilation : CompilationRecord)
    (attempt : CompilationAttempt) (producedAt : UnixMillis) : Provenance where
  id := ⟨s.header.nextProvenanceId⟩
  generation := ⟨1⟩
  compilation := compilation.id
  compilationGeneration := compilation.generation
  unit := compilation.unit
  attempt := attempt.id
  attemptGeneration := attempt.generation
  epoch := s.header.epoch
  worker := attempt.worker
  workerBoot := attempt.workerBoot
  workerGeneration := attempt.workerGeneration
  lease := attempt.lease
  leaseGeneration := attempt.leaseGeneration
  requestId := compilation.requestId
  requestIdentity := compilation.requestIdentity
  unitIdentity := compilation.unitIdentity
  artifact := { digest := attempt.candidate.digest, size := attempt.candidate.size }
  sourceIdentity := compilation.sourceIdentity
  dependencyIdentity := compilation.dependencyIdentity
  toolchainIdentity := compilation.toolchainIdentity
  targetIdentity := compilation.targetIdentity
  specializationIdentity := compilation.specializationIdentity
  policyIdentity := compilation.policyIdentity
  validation := ⟨s.header.nextValidationId⟩
  evidence := .real
  compilerInvocation := attempt.compilerInvocation
  compilerVersionString := attempt.compilerVersionString
  compilerWallMillis := attempt.compilerWallMillis
  producedAt := producedAt

def State.commitFor (s : State) (compilation : CompilationRecord) (attempt : CompilationAttempt)
    (committedAt : UnixMillis) : ArtifactCommit where
  id := ⟨s.header.nextCommitId⟩
  generation := ⟨1⟩
  compilation := compilation.id
  compilationGeneration := compilation.generation
  unit := compilation.unit
  artifact := ⟨s.header.nextArtifactId⟩
  artifactGeneration := ⟨1⟩
  artifactDigest := attempt.candidate.digest
  provenance := ⟨s.header.nextProvenanceId⟩
  validation := ⟨s.header.nextValidationId⟩
  epoch := s.header.epoch
  worker := attempt.worker
  workerBoot := attempt.workerBoot
  attempt := attempt.id
  committedAt := committedAt

/-- A commit becomes the authority of its compilation, with the validation
report and the provenance it refers to. The counters of the four identifiers
move with it: the code draws them a little earlier, at a point from which it
always gets here. -/
def State.publish (s : State) (compilation : CompilationId) (validation : ValidationReport)
    (provenance : Provenance) (commit : ArtifactCommit) : State :=
  { s with
    header := { s.header with
      nextValidationId := s.header.nextValidationId + 1
      nextProvenanceId := s.header.nextProvenanceId + 1
      nextArtifactId := s.header.nextArtifactId + 1
      nextCommitId := s.header.nextCommitId + 1 }
    validations := s.validations.insert validation.id validation
    provenances := s.provenances.insert provenance.id provenance
    commits := s.commits.insert commit.id commit
    authoritative := s.authoritative.insert compilation commit.id }

def CompilationRecord.commitWith (record : CompilationRecord) (commit : ArtifactCommit)
    (updatedAt : UnixMillis) : CompilationRecord :=
  { record with
    state := .committed
    commit := some commit
    failure := .ok
    failureDetail := []
    updatedAt := updatedAt }

def intermediateFor (id : IntermediateId) (compilation : CompilationRecord)
    (provenance : Provenance) : IntermediateArtifact where
  id := id
  generation := ⟨1⟩
  kind := .objectFile
  content := provenance.artifact
  -- bound to the unit identity as well as to toolchain and target, so a
  -- filename match alone never justifies reuse
  provenanceIdentity := provenance.unitIdentity
  toolchainIdentity := compilation.toolchainIdentity
  targetIdentity := compilation.targetIdentity
  dependencyIdentity := compilation.dependencyIdentity
  compilation := compilation.id
  compilationGeneration := compilation.generation
  authoritative := true

def State.addIntermediate (s : State) (artifact : IntermediateArtifact) : State :=
  { s with
    header := { s.header with nextIntermediateId := s.header.nextIntermediateId + 1 }
    intermediates := s.intermediates.insert artifact.id artifact }

/-- An object is also recorded as an intermediate. -/
def recordIntermediate (compilation : CompilationRecord) (provenance : Provenance) : M Unit :=
  if compilation.outputKind = .object then do
    let s ← getState
    let artifact := intermediateFor ⟨s.header.nextIntermediateId⟩ compilation provenance
    onState (·.addIntermediate artifact)
    persistVoid (.intermediate artifact)
  else pure ()

/-- Whether every unit of the job is available; units without an id do not
count. -/
def State.jobDone (s : State) (job : JobRecord) : Bool :=
  job.units.all fun unit => unit.isZero || (s.compilations[unit]?).any (·.state.available)

/-- `mark_job_progress`. -/
def markJobProgress (requestIdentity : Digest256) : M Unit := do
  let s ← getState
  match s.jobs[requestIdentity]? with
  | none => pure ()
  | some job =>
    let done := s.jobDone job
    let job := { job with
      committed := done
      committedUnit := if done then
          (if job.units.isEmpty then {} else job.units.getD job.rootIndex.toNat {})
        else job.committedUnit }
    onState (·.withJob requestIdentity fun _ => job)
    persistVoid (.job job)

/-- The message that tells the winning worker its output became authoritative. -/
def commitMessage (session : SessionId) (compilation : CompilationRecord)
    (attempt : CompilationAttempt) (commit : ArtifactCommit) : ControlMessage where
  session := session
  kind := .commitNotification
  compilation := compilation.id
  compilationGeneration := compilation.generation
  attempt := attempt.id
  attemptGeneration := attempt.generation
  commit := commit.id
  artifactDigest := commit.artifactDigest

/-- The records of a commit in the order `commit_locked` appends them after the
cache entry and the job. Only the commit record's own append is checked. -/
def persistCommit (workerId : WorkerId) (claim : AuthorityClaim) (validation : ValidationReport)
    (provenance : Provenance) (commit : ArtifactCommit) : M Unit := do
  persistVoid (.validation validation)
  persistVoid (.provenance provenance)
  persistOrLeave (.commit commit)
  ignoring (persistAttempt claim.attempt)
  ignoring (persistCompilation claim.compilation)
  ignoring (persistWorker workerId)

/-- The commit of a compilation that holds no live one. -/
def commitFirst (session : SessionId) (workerId : WorkerId) (claim : AuthorityClaim)
    (validation : ValidationReport) (compilation : CompilationRecord) : M CommitDecision := do
  orReturn (transitionAttempt claim.attempt .validating)
  let validatingAt ← now
  onCompilation claim.compilation fun record =>
    { record with state := .validating, updatedAt := validatingAt }
  let s ← getState
  let attempt := (s.attempts[claim.attempt]?).getD {}
  let stored := { validation with id := ⟨s.header.nextValidationId⟩ }
  let producedAt ← now
  let provenance := s.provenanceFor compilation attempt producedAt
  let committedAt ← now
  let commit := s.commitFor compilation attempt committedAt
  onAttempt claim.attempt fun attempt => { attempt with artifact := commit.artifact }
  orReturn (transitionAttempt claim.attempt .commitReady)
  onCompilation claim.compilation fun record => { record with state := .commitReady }
  orReturn (transitionAttempt claim.attempt .committed)
  let updatedAt ← now
  onCompilation claim.compilation (·.commitWith commit updatedAt)
  finishAttemptBookkeeping claim.attempt
  onState (·.publish claim.compilation stored provenance commit)
  recordIntermediate compilation provenance
  recordCacheEntry compilation commit provenance
  markJobProgress compilation.requestIdentity
  let s ← getState
  onState (·.control (s.cancelLosers compilation claim.attempt))
  persistCommit workerId claim stored provenance commit
  onState (·.control [commitMessage session compilation attempt commit])
  pure {
    outcome := .committed
    commit
    validation := stored
    artifactAuthoritative := true
    detail := txt "authoritative artifact committed" }

-- ---------------------------------------------------------------------------
-- Commit
-- ---------------------------------------------------------------------------

/-- The commit a compilation holds and that is not superseded. -/
def State.liveCommit (s : State) (id : CompilationId) : Option ArtifactCommit := do
  let commitId ← s.authoritative[id]?
  let commit ← s.commits[commitId]?
  if commit.superseded then none else some commit

/-- `commit_locked`. -/
def commitLocked (session : SessionId) (claim : AuthorityClaim) (validation : ValidationReport) :
    M CommitDecision := do
  let s ← getState
  match s.attempts[claim.attempt]?, s.compilations[claim.compilation]? with
  | some attempt, some compilation =>
    let workerId := match s.sessions[session]? with
      | some record => record.worker
      | none => attempt.worker
    if attempt.candidate.digest.isZero then
      refused .integrityFailure (txt "candidate digest is absent")
    else if validation.aggregate ≠ .pass then refuseCandidate claim validation
    else match s.liveCommit claim.compilation with
      | some prior =>
        if prior.artifactDigest = attempt.candidate.digest then
          deduplicate claim attempt.state prior validation
        else
          refuseDivergent claim
            { digest := attempt.candidate.digest, size := attempt.candidate.size }
            compilation.reproducibility
      | none => commitFirst session workerId claim validation compilation
  | _, _ => refused .staleAttempt (txt "attempt or compilation vanished")

/-- Phase 3 of `report_output`. It does not ask whether the coordinator is
open. -/
def commitOutput (session : SessionId) (output : ReportOutput) (validation : ValidationReport) :
    M CommitDecision := do
  let s ← getState
  match s.attempts[output.claim.attempt]? with
  | none => refused .staleAttempt (txt "attempt disappeared")
  | some attempt =>
  match s.compilations[output.claim.compilation]? with
  | none => refused .staleCompilation (txt "compilation disappeared")
  | some compilation =>
  match validateAuthority output.claim (s.expectationFor compilation attempt) with
  | .ok () => commitLocked session output.claim validation
  | .error status =>
    recordViolation "commit_revalidate" status.code session attempt.worker status.detail
    let moved ← transitionAttempt output.claim.attempt .fenced
    if moved.isOk then
      finishAttemptBookkeeping output.claim.attempt
      ignoring (persistAttempt output.claim.attempt)
    pure {
      outcome := .refused
      error := status.code
      detail := txt "authority moved while the candidate was being validated: " ++ status.detail }

end DistributedCompilation
