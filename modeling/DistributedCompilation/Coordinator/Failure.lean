import DistributedCompilation.Coordinator.Bookkeeping

/-!
# Distributed Compilation — failures

`fail_attempt_locked`, `schedule_retry_or_fail`, `propagate_fan_in_failure` and
the operations that end attempts: `fail_attempt`, `disconnect_session` and
`cancel`.
-/

namespace DistributedCompilation

open Program (forEach)

-- ---------------------------------------------------------------------------
-- Attempts
-- ---------------------------------------------------------------------------

/-- Where a failing attempt goes. -/
def failedState (code : ErrorCode) : AttemptState :=
  if code ∈ [ErrorCode.fenced, .staleWorkerBoot, .staleWorkerGeneration] then .fenced
  else if code = .cancelled then .cancelled
  else if code = .ambiguous then .ambiguous
  else .failed

/-- `fail_attempt_locked`. -/
def failAttemptLocked (id : CompilationAttemptId) (code : ErrorCode) (detail : Bytes) :
    M (Result Unit) := do
  let moved ← transitionAttempt id (failedState code)
  let s ← getState
  -- an attempt that is over keeps its state and still records the failure
  let ended := (s.attempts[id]?).any (isTerminalState ·.state)
  match moved with
  | .error status =>
    if ended then
      onAttempt id fun attempt => { attempt with failure := code, failureDetail := detail }
      finishAttemptBookkeeping id
      persistAttempt id
    else pure (.error status)
  | .ok () =>
    onAttempt id fun attempt => { attempt with failure := code, failureDetail := detail }
    finishAttemptBookkeeping id
    persistAttempt id

-- ---------------------------------------------------------------------------
-- Compilations
-- ---------------------------------------------------------------------------

/-- A failed child that will never become authoritative. -/
def CompilationState.lost : CompilationState → Bool
  | .failed | .cancelled | .ambiguous | .fenced => true
  | _ => false

/-- A parent whose outcome stands. -/
def CompilationState.settled : CompilationState → Bool
  | .committed | .cacheHit | .failed | .cancelled => true
  | _ => false

/-- Whether the unit is a mandatory link over `failed` in this job. -/
def linksTo (job : JobRecord) (unit : CompilationUnitSpec) (failed : CompilationId) : Bool :=
  unit.kind == .link && unit.mandatory &&
    unit.childUnits.any fun child => job.units[child.toNat]? == some failed

/-- The parent that fails with its child, if the unit of the job is one. -/
def State.brokenParent (s : State) (failed : CompilationId) (job : JobRecord)
    (request : CompilationRequest) (unitId : CompilationId) : Option CompilationState := do
  if unitId.isZero ∨ unitId = failed then none
  let parent ← s.compilations[unitId]?
  if parent.state.settled then none
  let unit ← request.findUnit parent.unitIndex
  if ¬linksTo job unit failed then none
  let child ← s.compilations[failed]?
  if child.state.lost then some child.state else none

/-- The inner loop body of `propagate_fan_in_failure`. -/
def propagateTo (failed : CompilationId) (identity : Digest256) (request : CompilationRequest)
    (unitId : CompilationId) : M Unit := do
  let s ← getState
  match s.jobs[identity]? with
  | none => pure ()
  | some job =>
    match s.brokenParent failed job request unitId with
    | none => pure ()
    | some childState =>
      let failureDetail := txt "mandatory child compilation " ++ decimal failed.value ++
        txt " cannot become authoritative (state " ++ childState.text ++ txt ")"
      let updatedAt ← now
      onState (·.withCompilation unitId fun parent =>
        { parent with state := .failed, failure := .fanInIncomplete, failureDetail, updatedAt })
      ignoring (persistCompilation unitId)
      onState (·.withJob identity fun job =>
        { job with failure := .fanInIncomplete, failureDetail })
      persistVoid (.job { job with failure := .fanInIncomplete, failureDetail })

/-- `propagate_fan_in_failure`. -/
def propagateFanInFailure (failed : CompilationId) : M Unit := do
  let s ← getState
  forEach s.jobs.toList fun (identity, job) =>
    match s.requests[job.requestIdentity]? with
    | none => pure ()
    | some request => forEach job.units (propagateTo failed identity request)

/-- How many attempts a unit of the request may have. -/
def maxAttempts (config : CoordinatorConfig) : Option CompilationRequest → UInt32
  | none => 1
  | some request => max 1 (min request.policy.maxAttemptsPerUnit config.maxAttemptsHardCap)

/-- The state a failure leaves a compilation in. It looks at the failure and at
the attempts made, not at a commit the compilation may already have. -/
def retryState (limit : UInt32) (compilation : CompilationRecord) (code : ErrorCode) :
    CompilationState :=
  let failureClass := classifyFailure code
  if failureClass ≠ .nonRetryable ∧ compilation.attemptOrdinalCounter < limit then .eligible
  else if failureClass = .ambiguous then .ambiguous
  else .failed

/-- `schedule_retry_or_fail`. -/
def scheduleRetryOrFail (id : CompilationId) (code : ErrorCode) (detail : Bytes) : M Unit := do
  let i ← Program.read
  match i.state.compilations[id]? with
  | none => pure ()
  | some compilation =>
    let limit := maxAttempts i.config (i.state.requests[compilation.requestIdentity]?)
    let updatedAt ← now
    onCompilation id fun record =>
      { record with
        state := retryState limit compilation code
        failure := code
        failureDetail := detail
        updatedAt }
    propagateFanInFailure id

-- ---------------------------------------------------------------------------
-- Failure reports
-- ---------------------------------------------------------------------------

/-- Whether the session belongs to the worker boot an attempt is bound to. -/
def SessionRecord.owns (session : SessionRecord) (attempt : CompilationAttempt) : Bool :=
  session.worker == attempt.worker && session.boot == attempt.workerBoot

/-- `Coordinator::fail_attempt`. -/
def failAttempt (sessionId : SessionId) (report : AttemptFailure) : M Unit := do
  ensureOpen
  let s ← getState
  match s.attempts[report.claim.attempt]? with
  | none =>
    recordViolation "fail_attempt" .staleAttempt sessionId {}
      (txt "failure report for an unknown attempt")
    refused .staleAttempt (txt "unknown attempt")
  | some attempt =>
  match s.compilations[report.claim.compilation]? with
  | none => refused .staleCompilation (txt "unknown compilation")
  | some compilation =>
    let session := s.sessions[sessionId]?
    let reporter : WorkerId := (session.map (·.worker)).getD {}
    if session.all (fun session => !session.isWorker || !session.owns attempt) then
      recordViolation "fail_attempt" .staleWorkerBoot sessionId reporter
        (txt "failure report from a session that does not own the attempt")
      refused .staleWorkerBoot (txt "session does not own this attempt")
    else
    match validateAuthority report.claim (s.expectationFor compilation attempt) with
    | .error status =>
      recordViolation "fail_attempt" status.code sessionId reporter status.detail
      refused status.code status.detail
    | .ok () =>
      if isTerminalState attempt.state then pure ()
      else
        orReturn (failAttemptLocked report.claim.attempt report.code report.detail)
        scheduleRetryOrFail report.claim.compilation report.code report.detail
        orReturn (persistCompilation report.claim.compilation)

-- ---------------------------------------------------------------------------
-- Lost sessions
-- ---------------------------------------------------------------------------

/-- A running attempt may have produced a result the coordinator never saw. -/
def lossCode : AttemptState → ErrorCode
  | .running | .preparing | .produced | .validating => .ambiguous
  | _ => .fenced

/-- What the loss of a session does to one attempt. -/
def loseAttempt (session : SessionRecord) (detail : Bytes) (id : CompilationAttemptId) :
    M Unit := do
  let s ← getState
  match s.attempts[id]? with
  | none => pure ()
  | some attempt =>
    if ¬session.owns attempt ∨ isTerminalState attempt.state then pure ()
    else
      ignoring (failAttemptLocked id (lossCode attempt.state) detail)
      let s ← getState
      if s.compilations.contains attempt.compilation then
        scheduleRetryOrFail attempt.compilation (lossCode attempt.state) detail
        ignoring (persistCompilation attempt.compilation)

section

variable [HashFunction]

/-- `Coordinator::disconnect_session`. -/
def disconnectSession (sessionId : SessionId) (reason : Bytes) : M Unit := do
  let i ← Program.read
  if ¬i.opened then pure ()
  else match i.state.sessions[sessionId]? with
    | none => pure ()
    | some session =>
      onState (·.withSession sessionId fun session => { session with isOpen := false })
      if ¬session.isWorker then pure ()
      else match i.state.workers[session.worker]? with
        | none => pure ()
        | some worker =>
          -- a reconnect already replaced this session
          if worker.boot ≠ session.boot then pure ()
          else
            let detail := txt "worker session lost: " ++ reason
            forEach i.state.attempts.keys (loseAttempt session detail)
            fenceWorker session.worker detail
            ignoring (persistWorker session.worker)

end

-- ---------------------------------------------------------------------------
-- Cancellation
-- ---------------------------------------------------------------------------

/-- What a cancellation does to one attempt. -/
def cancelAttempt (compilation : CompilationRecord) (reason : Bytes) (id : CompilationAttemptId) :
    M Unit := do
  let s ← getState
  match s.attempts[id]? with
  | none => pure ()
  | some attempt =>
    if isTerminalState attempt.state then pure ()
    else
      onState (·.control [cancelMessage s compilation attempt reason])
      ignoring (failAttemptLocked id .cancelled reason)

/-- What a cancellation does to one lease. -/
def cancelLease (compilation : CompilationId) (reason : Bytes) (id : LeaseId) : M Unit := do
  let s ← getState
  match s.leases[id]? with
  | none => pure ()
  | some lease =>
    if lease.compilation ≠ compilation ∨ lease.revoked then pure ()
    else
      let revoked := { lease with
        revoked := true
        revocationReason := txt "compilation cancelled: " ++ reason }
      onState (·.withLease id fun _ => revoked)
      persistVoid (.lease revoked)

/-- `Coordinator::cancel`. -/
def cancel (id : CompilationId) (reason : Bytes) : M Unit := do
  ensureOpen
  let s ← getState
  match s.compilations[id]? with
  | none => refused .notFound (txt "unknown compilation")
  | some compilation =>
    if compilation.state = .committed then
      refused .artifactAlreadyCommitted (txt "compilation already has an authoritative artifact")
    else
      forEach compilation.attempts (cancelAttempt compilation reason)
      forEach s.leases.keys (cancelLease id reason)
      let updatedAt ← now
      onCompilation id fun record =>
        { record with
          state := .cancelled
          failure := .cancelled
          failureDetail := reason
          updatedAt }
      orReturn (persistCompilation id)

end DistributedCompilation
