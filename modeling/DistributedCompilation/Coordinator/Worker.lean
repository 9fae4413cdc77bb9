import DistributedCompilation.Coordinator.Bookkeeping

/-!
# Distributed Compilation — worker lifecycle

Registration, capability advertisement, readiness, heartbeats, the start of an
attempt, evidence revalidation and shutdown.
-/

namespace DistributedCompilation

section Registration

variable [HashFunction]

/-- The bounds on an advertisement at registration. -/
def WorkerCapabilities.withinBounds (caps : WorkerCapabilities) : Bool :=
  decide (caps.toolchains.length ≤ 64) && decide (caps.targets.length ≤ 64) &&
    decide (caps.inputFormats.length ≤ 64) && decide (caps.plugins.length ≤ 256) &&
    decide (caps.sdks.length ≤ 64)

/-- A fresh boot always gets a fresh generation, and so does a reconnect with
the same boot id. -/
def nextWorkerGeneration : Option WorkerRecord → WorkerGeneration
  | none => ⟨1⟩
  | some worker => if worker.generation.isZero then ⟨1⟩ else worker.generation.next

def healthOf (evidence : EvidenceClass) : WorkerHealth :=
  if evidence = .unknown then .unknown else .healthy

/-- The worker record a registration leaves. -/
def registeredRecord (existing : Option WorkerRecord) (registration : WorkerRegistration)
    (capabilities : WorkerCapabilities) (session : SessionId) (registeredAt : UnixMillis) :
    WorkerRecord :=
  let host := if registration.host.isEmpty then capabilities.host else registration.host
  { existing.getD { id := registration.workerId } with
    boot := registration.bootId
    generation := nextWorkerGeneration existing
    session := session
    endpoint := registration.endpoint
    host := host
    capabilities := { capabilities with host }
    health := healthOf capabilities.evidence
    ready := false
    fenced := false
    inFlight := 0
    queueDepth := 0
    activeLeases := []
    registeredAt := registeredAt
    lastSeen := registeredAt
    trustedEvidenceFresh := capabilities.evidence = .real }

def sessionOf (registration : WorkerRegistration) (epoch : CoordinatorEpoch)
    (worker : WorkerRecord) : SessionRecord where
  id := worker.session
  isWorker := true
  worker := worker.id
  boot := worker.boot
  epoch := epoch
  peer := registration.endpoint
  host := worker.host
  connectedAt := worker.registeredAt
  lastSeen := worker.registeredAt
  isOpen := true
  maxInflight := max 1 (min registration.maxInflight 64)

/-- The worker and its session enter the tables; no attempt is looked at. -/
def State.enroll (s : State) (worker : WorkerRecord) (session : SessionRecord) : State :=
  { s with
    header := { s.header with nextSessionId := s.header.nextSessionId + 1 }
    sessions := s.sessions.insert session.id session
    workers := s.workers.insert worker.id worker }

/-- `Coordinator::register_worker`. -/
def registerWorker (registration : WorkerRegistration) : M RegisteredWorker := do
  ensureOpen
  if registration.workerId.isZero ∨ registration.bootId.isZero then
    refused .invalidArgument (txt "worker id and boot id are required")
  else if ¬registration.capabilities.withinBounds then
    refused .limitExceeded (txt "worker capability advertisement exceeds bounds")
  else
    let capabilities ← orThrow (tryCanonicalizeCapabilities registration.capabilities)
    let capabilities := if capabilities.host.isEmpty then
        { capabilities with host := registration.host }
      else capabilities
    let i ← Program.read
    let existing := i.state.workers[registration.workerId]?
    if i.config.maxWorkers ≤ i.state.workers.size ∧ existing.isNone then
      refused .limitExceeded (txt "worker table is full")
    else
      let registeredAt ← now
      let worker := registeredRecord existing registration capabilities
        ⟨i.state.header.nextSessionId⟩ registeredAt
      onState (·.enroll worker (sessionOf registration i.state.header.epoch worker))
      orReturn (persistEntity (.worker worker))
      pure {
        session := worker.session
        worker := worker.id
        boot := worker.boot
        generation := worker.generation
        epoch := i.state.header.epoch
        detail := if existing.isSome then txt "reconnect with a fresh boot identity"
          else txt "admitted" }

/-- The worker a worker session speaks for, with the boot check left to the
caller. -/
def sessionWorker (sessionId : SessionId) : M (SessionRecord × WorkerRecord) := do
  let s ← getState
  match s.sessions[sessionId]? with
  | none => refused .unauthorized (txt "session is not a worker session")
  | some session =>
    if ¬session.isWorker then refused .unauthorized (txt "session is not a worker session")
    else match s.workers[session.worker]? with
      | none => refused .notFound (txt "unknown worker")
      | some worker => pure (session, worker)

/-- `Coordinator::advertise_capabilities`. -/
def advertiseCapabilities (sessionId : SessionId) (capabilities : WorkerCapabilities) :
    M Unit := do
  ensureOpen
  let (session, worker) ← sessionWorker sessionId
  if worker.boot ≠ session.boot then
    recordViolation "advertise_capabilities" .staleWorkerBoot sessionId session.worker
      (txt "capability advertisement from a superseded boot")
    refused .staleWorkerBoot (txt "worker boot identity has been superseded")
  else
    let updated ← orThrow (tryCanonicalizeCapabilities capabilities)
    let lastSeen ← now
    let worker := { worker with
      capabilities := { updated with host := worker.host }
      health := healthOf updated.evidence
      trustedEvidenceFresh := updated.evidence = .real
      lastSeen }
    onWorker session.worker fun _ => worker
    orReturn (persistEntity (.worker worker))

end Registration

/-- `Coordinator::mark_ready`: no readiness without capability evidence. -/
def markReady (sessionId : SessionId) : M Unit := do
  ensureOpen
  let (session, worker) ← sessionWorker sessionId
  if worker.boot ≠ session.boot then
    refused .staleWorkerBoot (txt "worker boot identity has been superseded")
  else if worker.capabilities.evidence = .unknown then
    refused .unknown (txt "worker cannot become ready without evidence-backed capabilities")
  else
    let lastSeen ← now
    onWorker session.worker fun worker => { worker with ready := true, health := .healthy, lastSeen }
    orReturn (persistWorker session.worker)

/-- `Coordinator::heartbeat`. -/
def heartbeat (sessionId : SessionId) : M Unit := do
  ensureOpen
  let s ← getState
  match s.sessions[sessionId]? with
  | none => refused .staleSession (txt "session is not open at this epoch")
  | some session =>
    if ¬session.isOpen then refused .staleSession (txt "session is not open at this epoch")
    else
      let lastSeen ← now
      onState (·.withSession sessionId fun session => { session with lastSeen })
      if ¬session.isWorker then pure ()
      else match s.workers[session.worker]? with
        | none => refused .notFound (txt "unknown worker")
        | some worker =>
          if worker.boot ≠ session.boot then
            refused .staleWorkerBoot (txt "worker boot identity has been superseded")
          else
            onWorker session.worker fun worker =>
              { worker with
                lastSeen
                health := if worker.health = .suspect then .healthy else worker.health }

/-- `Coordinator::begin_compile`. -/
def beginCompile (claim : AuthorityClaim) : M Unit := do
  ensureOpen
  let s ← getState
  match s.attempts[claim.attempt]? with
  | none =>
    recordViolation "begin_compile" .staleAttempt {} {} (txt "begin for an unknown attempt")
    refused .staleAttempt (txt "unknown attempt")
  | some attempt =>
  match s.compilations[claim.compilation]? with
  | none => refused .staleCompilation (txt "unknown compilation")
  | some compilation =>
  match validateAuthority claim (s.expectationFor compilation attempt) with
  | .error status =>
    recordViolation "begin_compile" status.code {} attempt.worker status.detail
    refused status.code status.detail
  | .ok () =>
    if attempt.state ≠ .assigned ∧ attempt.state ≠ .preparing ∧ attempt.state ≠ .running then
      refused .staleAttempt (txt "attempt is in state " ++ attempt.state.text)
    else
      if attempt.state = .assigned then
        orReturn (transitionAttempt claim.attempt .preparing)
        let startedAt ← now
        onAttempt claim.attempt fun attempt => { attempt with startedAt }
        -- a speculative sibling must not drag a committed compilation back
        onCompilation claim.compilation fun record =>
          { record with
            state := if record.state = .committed then .committed else .running
            updatedAt := startedAt }
      orReturn (persistAttempt claim.attempt)
      orReturn (persistCompilation claim.compilation)

/-- `Coordinator::handle_validate_response`. -/
def handleValidateResponse (sessionId : SessionId) (mode : UInt32) (evidence : EvidenceClass)
    (capabilitiesDigest : Digest256) (detail : Bytes) : M Unit := do
  ensureOpen
  let (session, worker) ← sessionWorker sessionId
  if worker.boot ≠ session.boot then
    refused .staleWorkerBoot (txt "validate response from a superseded boot")
  else if mode ≠ 0 then pure ()
  else if capabilitiesDigest ≠ worker.capabilities.digest then
    onWorker session.worker fun worker =>
      { worker with trustedEvidenceFresh := false, ready := false, health := .suspect }
    recordViolation "validate_output" .staleToolchain sessionId worker.id
      (txt "evidence revalidation produced a different capability digest: " ++ detail)
    orReturn (persistWorker session.worker)
  else
    let lastSeen ← now
    onWorker session.worker fun worker =>
      { worker with trustedEvidenceFresh := evidence = .real, lastSeen }
    orReturn (persistWorker session.worker)

/-- `Coordinator::shutdown_sessions`. -/
def shutdownSessions : M Unit := do
  let i ← Program.read
  if i.opened then
    onState (·.control <|
      (i.state.sessions.toList.filter fun kv => kv.2.isOpen && kv.2.isWorker).map fun kv =>
        { session := kv.1, kind := .shutdown, reason := txt "coordinator shutdown" })

/-- `Coordinator::drain_controls`. -/
def drainControls : M (List ControlMessage) := do
  let s ← getState
  onState fun s => { s with controls := [] }
  pure s.controls

end DistributedCompilation
