import DistributedCompilation.Coordinator.Audit
import DistributedCompilation.Coordinator.System
import DistributedCompilation.Lib.Outcome
import DistributedCompilation.Wire.Payload

/-!
# Distributed Compilation — what the server does with a frame

The connections of `dc_coordinator` and the switch over the op of a frame. A
handler is a section of the coordinator: it ends with a reply, with the status
that is sent in its place, or with the `std::length_error` of an encoder, which
nothing catches.

The texts a query is answered with are a parameter: nothing reads them again.
-/

namespace DistributedCompilation

open Program (leave)

/-- `to_string(Op)`. -/
def Wire.Op.text (op : Wire.Op) : Bytes := txt <|
  match op with
  | invalid => "INVALID"
  | hello => "HELLO"
  | registerWorker => "REGISTER_WORKER"
  | advertiseToolchain => "ADVERTISE_TOOLCHAIN"
  | submitCompilation => "SUBMIT_COMPILATION"
  | query => "QUERY"
  | assign => "ASSIGN"
  | beginCompile => "BEGIN_COMPILE"
  | reportOutput => "REPORT_OUTPUT"
  | validateOutput => "VALIDATE_OUTPUT"
  | commitArtifact => "COMMIT_ARTIFACT"
  | failAttempt => "FAIL_ATTEMPT"
  | cancelAttempt => "CANCEL_ATTEMPT"
  | cacheQuery => "CACHE_QUERY"
  | cacheReport => "CACHE_REPORT"
  | snapshot => "SNAPSHOT"
  | audit => "AUDIT"
  | shutdown => "SHUTDOWN"
  | response => "RESPONSE"
  | error => "ERROR"
  | heartbeat => "HEARTBEAT"
  | workerReady => "WORKER_READY"
  | validateResponse => "VALIDATE_RESPONSE"

-- ---------------------------------------------------------------------------
-- Connections
-- ---------------------------------------------------------------------------

/-- What went over a socket in either direction. -/
structure Socket where
  sent : Bytes := []
  received : Bytes := []
deriving DecidableEq

/-- `struct Connection`. -/
structure Connection where
  socket : Socket := {}
  reader : Wire.FrameReader := { maxFrameBytes := Wire.kMaxFrameBytes }
  outgoing : Bytes := []
  outgoingSent : Nat := 0
  session : SessionId := {}
  role : SessionRole := .client
  handshaked : Bool := false
  closing : Bool := false

/-- `kMaxOutboundBytes`. -/
def maxOutboundBytes : Nat := 64 * 1024 * 1024

namespace Connection

/-- What is queued and not yet sent. -/
def pending (connection : Connection) : Bytes := connection.outgoing.drop connection.outgoingSent

/-- `queue_frame`: a frame that cannot be encoded is dropped. -/
def queueFrame (connection : Connection) (op : Wire.Op) (requestId : UInt64) (payload : Bytes) :
    Connection :=
  match Wire.encodeFrame { op, requestId, payload } with
  | .ok encoded => { connection with outgoing := connection.outgoing ++ encoded }
  | .error _ => connection

end Connection

/-- The texts of `wire.cpp` and `coordinator.cpp` that answer a query. -/
structure Texts where
  compilation : CompilationRecord → Bytes
  attempt : CompilationAttempt → Bytes
  worker : WorkerRecord → Bytes
  cacheDecision : CacheDecision → Bytes
  provenance : Provenance → Bytes
  commit : ArtifactCommit → Bytes
  audit : AuditReport → Bytes
  explain : Impl → CompilationId → Bytes

/-- The status and the payload of a response. -/
structure Reply where
  status : Result Unit := .ok ()
  payload : Bytes := []

namespace Server

/-- What an encoder leaves in its buffer, unless a call of its writer throws. -/
def finish (payload : Payload) : M Bytes :=
  if payload.fits then pure payload.bytes else leave .lengthError

/-- The message of a payload. -/
def decoded {α : Type} (subject : String) (message : Option α) : M α :=
  match message with
  | some message => pure message
  | none => refused .malformed (txt "malformed " ++ txt subject)

/-- `(void)call`: the status is dropped. -/
def discard (call : M Unit) : M Unit := do
  let outcome ← Program.caught call
  match outcome with
  | .error .lengthError => leave .lengthError
  | _ => pure ()

/-- `send_response`. -/
def sendResponse (connection : Connection) (requestId : UInt64) (op : Wire.Op) (reply : Reply) :
    M Connection := do
  let encoded ← finish (Wire.encodeResponse {
    op
    code := match reply.status with
      | .ok () => .ok
      | .error status => status.code
    detail := match reply.status with
      | .ok () => []
      | .error status => status.detail
    payload := reply.payload })
  pure (connection.queueFrame .response requestId encoded)

-- ---------------------------------------------------------------------------
-- Queries of the coordinator
-- ---------------------------------------------------------------------------

/-- What a table holds under a key. -/
def lookUp {α : Type} (found : Option α) (detail : String) : M α :=
  match found with
  | some value => pure value
  | none => refused .notFound (txt detail)

section

variable [HashFunction]

/-- `Coordinator::report_output`, with the outcome of the smoke test. -/
def reportOutput (session : SessionId) (output : ReportOutput) (smoke : SmokeTest) :
    M CommitDecision := do
  let reservation ← reserveOutput session output
  storeOutput reservation
  commitOutput reservation.session reservation.output (reservation.validate smoke)

/-- `Coordinator::artifact_bytes`. -/
def artifactBytes (id : CompilationId) : M Bytes := do
  let s ← getState
  match s.authoritative[id]? with
  | none => refused .artifactMissing (txt "compilation has no authoritative artifact")
  | some key =>
    match s.commits[key]? with
    | none => refused .integrityFailure (txt "authoritative commit record is missing")
    | some commit => do
      let bytes ← loadBlob commit.artifactDigest
      orLeave bytes

end

-- ---------------------------------------------------------------------------
-- Handlers
-- ---------------------------------------------------------------------------

section Handlers

variable [HashFunction]

/-- `case Op::Hello`. -/
def hello (connection : Connection) (payload : Bytes) : M (Connection × Reply) := do
  let hello ← decoded "HELLO" (Wire.decodeHello payload)
  pure ({ connection with role := hello.role, handshaked := true }, {})

/-- `case Op::RegisterWorker`. -/
def register (connection : Connection) (payload : Bytes) : M (Connection × Reply) := do
  let message ← decoded "REGISTER_WORKER" (Wire.decodeRegisterWorker payload)
  let registered ← registerWorker {
    endpoint := message.endpoint, host := message.host, workerId := message.workerId
    bootId := message.bootId, capabilities := message.capabilities
    maxInflight := message.maxInflight }
  let ready ← finish (Wire.encodeReady registered)
  pure ({ connection with session := registered.session }, { payload := ready })

/-- `case Op::AdvertiseToolchain`; what follows the capabilities is not looked at. -/
def advertise (connection : Connection) (payload : Bytes) : M Reply := do
  if connection.session.isZero then
    refused .unauthorized (txt "ADVERTISE_TOOLCHAIN before registration")
  else do
    let capabilities ← decoded "capabilities" ((decodeCapabilities.parse payload).map Prod.fst)
    advertiseCapabilities connection.session capabilities
    pure {}

/-- `case Op::WorkerReady`. -/
def workerReady (connection : Connection) : M Reply := do
  if connection.session.isZero then refused .unauthorized (txt "WORKER_READY before registration")
  else do
    markReady connection.session
    pure {}

/-- `case Op::Heartbeat`: whatever comes of it, the worker hears success. -/
def beat (connection : Connection) : M Reply := do
  if connection.session.isZero then pure {}
  else do
    discard (heartbeat connection.session)
    pure {}

/-- `case Op::BeginCompile`. -/
def begin (payload : Bytes) : M Reply := do
  let claim ← decoded "BEGIN_COMPILE" (Wire.decodeAuthorityClaim payload)
  beginCompile claim
  pure {}

/-- `case Op::ReportOutput`. -/
def report (connection : Connection) (smoke : SmokeTest) (payload : Bytes) : M Reply := do
  let message ← decoded "REPORT_OUTPUT" (Wire.decodeReportOutput payload)
  let decision ← reportOutput connection.session message.toReportOutput smoke
  let response ← finish [.record (Wire.encodeCommitResponse (Wire.commitResponse decision))]
  pure { payload := response }

/-- `case Op::FailAttempt`. -/
def fail (connection : Connection) (payload : Bytes) : M Reply := do
  let message ← decoded "FAIL_ATTEMPT" (Wire.decodeFailAttempt payload)
  failAttempt connection.session message.toAttemptFailure
  pure {}

/-- `case Op::ValidateResponse`. -/
def validateResponse (connection : Connection) (payload : Bytes) : M Reply := do
  let message ← decoded "VALIDATE_RESPONSE" (Wire.decodeValidateResponse payload)
  handleValidateResponse connection.session message.mode message.evidence
    message.capabilitiesDigest message.detail
  pure {}

/-- `case Op::SubmitCompilation`. -/
def submission (payload : Bytes) : M Reply := do
  let message ← decoded "SUBMIT_COMPILATION" (Wire.decodeSubmit payload)
  let i ← Program.read
  if i.config.maxUnits < message.request.units.length then
    refused .limitExceeded (txt "unit count exceeds the configured bound")
  else do
    let submitted ← submit {
      request := message.request, blobs := message.blobs, forceRebuild := message.forceRebuild }
    let response ← finish (Wire.encodeSubmissionResponse submitted)
    pure { payload := response }

/-- `case Op::Audit`. -/
def audit (texts : Texts) : M Reply := do
  let i ← Program.read
  pure {
    payload := texts.audit i.audit
    status := if i.audit.clean then .ok ()
      else failure .validationFailure (txt "audit findings present") }

/-- `case Op::CancelAttempt`. -/
def cancelRequest (payload : Bytes) : M Reply := do
  let control ← decoded "CANCEL_ATTEMPT" (Wire.decodeControl payload)
  cancel control.compilation control.reason
  pure {}

/-- The line that describes a job. -/
def jobText (job : JobRecord) : Bytes :=
  txt "job " ++ job.requestIdentity.hex ++ txt " units " ++ decimal job.units.length ++
    txt " committed " ++ txt (if job.committed then "yes" else "no") ++ txt "\n"

/-- `switch (message.kind)`. -/
def answer (texts : Texts) (message : Wire.QueryMessage) : M Bytes := do
  let i ← Program.read
  match message.kind.toNat with
  | 0 => do
    let record ← lookUp (i.state.compilations[(⟨message.id.toNat⟩ : CompilationId)]?) "unknown compilation"
    pure (texts.compilation record)
  | 1 => do
    let record ← lookUp (i.state.attempts[(⟨message.id.toNat⟩ : CompilationAttemptId)]?) "unknown attempt"
    pure (texts.attempt record)
  | 2 => pure (texts.audit i.audit)
  | 3 => pure (i.state.workers.values.flatMap texts.worker)
  | 4 => pure (texts.cacheDecision (Wire.cacheQuery i message.identity))
  | 5 => do
    let record ← lookUp i.state.jobs[message.identity]? "unknown job"
    pure (jobText record)
  | 6 => pure (i.state.provenances.values.flatMap texts.provenance)
  | 7 => pure (i.state.commits.values.flatMap texts.commit)
  | 8 => artifactBytes ⟨message.id.toNat⟩
  | 9 => pure (texts.explain i ⟨message.id.toNat⟩)
  | _ => refused .unsupported (txt "unsupported query kind")

/-- `case Op::Query`. -/
def query (texts : Texts) (payload : Bytes) : M Reply := do
  let message ← decoded "QUERY" (Wire.decodeQuery payload)
  let text ← answer texts message
  pure { payload := text }

/-- `case Op::CacheQuery`: the report goes out as a frame of its own and no response
follows. -/
def cacheRequest (connection : Connection) (requestId : UInt64) (payload : Bytes) : M Connection := do
  let message ← decoded "CACHE_QUERY" (Wire.decodeCacheQuery payload)
  let i ← Program.read
  let inner ← finish [.record (Wire.encodeCacheReport (Wire.cacheReport i message.unitIdentity))]
  pure (connection.queueFrame .cacheReport requestId inner)

/-- The switch over the op. A connection that is left as it is comes with the reply to
send on it, a queued cache report without one. -/
def dispatch (texts : Texts) (smoke : SmokeTest) (connection : Connection) (frame : Wire.Frame) :
    M (Connection × Option Reply) :=
  let replying (m : M Reply) : M (Connection × Option Reply) := do
    let reply ← m
    pure (connection, some reply)
  let changing (m : M (Connection × Reply)) : M (Connection × Option Reply) := do
    let (connection, reply) ← m
    pure (connection, some reply)
  match frame.op with
  | .hello => changing (hello connection frame.payload)
  | .registerWorker => changing (register connection frame.payload)
  | .advertiseToolchain => replying (advertise connection frame.payload)
  | .workerReady => replying (workerReady connection)
  | .heartbeat => replying (beat connection)
  | .beginCompile => replying (begin frame.payload)
  | .reportOutput => replying (report connection smoke frame.payload)
  | .failAttempt => replying (fail connection frame.payload)
  | .validateResponse => replying (validateResponse connection frame.payload)
  | .submitCompilation => replying (submission frame.payload)
  | .cacheQuery => do
    let connection ← cacheRequest connection frame.requestId frame.payload
    pure (connection, none)
  | .audit => replying (audit texts)
  | .snapshot => replying (do snapshotCoordinator; pure {})
  | .cancelAttempt => replying (cancelRequest frame.payload)
  | .shutdown => replying (do discard shutdownSessions; pure {})
  | .query => replying (query texts frame.payload)
  | .assign | .commitArtifact | .validateOutput | .cacheReport | .response | .error | .invalid =>
    refused .protocolViolation
      (txt "op " ++ frame.op.text ++ txt " is not accepted by the coordinator")

/-- One frame: what is sent back, and whether the server is to stop. -/
def handleFrame (texts : Texts) (smoke : SmokeTest) (connection : Connection) (frame : Wire.Frame) :
    M (Connection × Bool) := do
  let outcome ← Program.caught (dispatch texts smoke connection frame)
  match outcome with
  | .ok (connection, none) => pure (connection, false)
  | .ok (connection, some reply) => do
    let connection ← sendResponse connection frame.requestId frame.op reply
    pure (connection, frame.op == .shutdown)
  | .error (.status status) => do
    let connection ← sendResponse connection frame.requestId frame.op { status := .error status }
    pure (connection, false)
  | .error .lengthError => leave .lengthError

/-- The loop over the frames of one feed, the `n`-th of them with the `n`-th outcome of
a smoke test. A shutdown ends it. -/
def handleFrames (texts : Texts) : List SmokeTest → Connection → List Bytes → M (Connection × Bool)
  | _, connection, [] => pure (connection, false)
  | smoke, connection, raw :: frames =>
    match Wire.decodeFrame raw with
    | .error status => do
      let connection ← sendResponse connection 0 .error { status := .error status }
      handleFrames texts smoke.tail connection frames
    | .ok frame => do
      let (connection, stops) ← handleFrame texts (smoke.headD none) connection frame
      if stops then pure (connection, true)
      else handleFrames texts smoke.tail connection frames

end Handlers

end Server

end DistributedCompilation
