import DistributedCompilation.Codec.ClaimCodec
import DistributedCompilation.Wire.Frame
import DistributedCompilation.Wire.Messages

/-!
# Distributed Compilation — payloads

The other message payloads of `wire.cpp`: what a client or a worker sends, and
what the coordinator answers with. Sources, dependencies, children, reported
artifacts and answers travel as blobs between the fields of a record, so what
a writer receives for such a message is a list of records and blobs.
-/

namespace DistributedCompilation

/-- `enum class SessionRole`. -/
inductive SessionRole | client | worker | admin
deriving DecidableEq

instance : WireEnum SessionRole where
  values := [.client, .worker, .admin]
  complete a := by cases a <;> decide
  small := by decide

/-- `CanonicalLimits::max_blob_bytes`. -/
def maxBlobBytes : Nat := 64 <<< 20

/-- Calls on a `CanonicalWriter`, the calls of `blob` apart from the others. -/
inductive Part
  | record (calls : Record)
  | blob (value : Bytes)

def Part.bytes : Part → Bytes
  | record calls => calls.bytes
  | blob value => LittleEndian.encode 4 value.length ++ value

def Part.eachFits : Part → Bool
  | record calls => calls.eachFits
  | blob value => value.length ≤ maxBlobBytes

abbrev Payload := List Part

namespace Payload

/-- The writer's buffer. -/
def bytes (p : Payload) : Bytes := p.flatMap Part.bytes

/-- Each call respects its own limit. -/
def eachFits (p : Payload) : Bool := p.all Part.eachFits

/-- No call throws. -/
def fits (p : Payload) : Bool := p.eachFits && p.bytes.length ≤ maxTotalBytes

end Payload

/-- `w.list(items.size())` and what is written for each item. -/
def writeParts {α : Type} (items : List α) (write : α → Payload) : Payload :=
  .record [.count items] :: items.flatMap write

/-- `CanonicalReader::read_blob`. -/
def Reader.readBlob : Reader Bytes := do
  let length ← readU32
  if length.toNat > maxBlobBytes then
    fail .limitExceeded (txt "canonical blob exceeds configured limit")
  else need length.toNat

namespace Wire

open Reader

-- ---------------------------------------------------------------------------
-- Messages
-- ---------------------------------------------------------------------------

structure HelloMessage where
  role : SessionRole := .client
  name : Bytes := []
  protocolVersion : UInt32 := 1

structure RegisterWorkerMessage where
  endpoint : Bytes := []
  host : Bytes := []
  workerId : WorkerId := {}
  bootId : WorkerBootId := {}
  maxInflight : UInt32 := 4
  capabilities : WorkerCapabilities := {}

/-- `ReadyMessage`, which has the fields of a registered worker. -/
abbrev ReadyMessage := RegisteredWorker

structure SubmitMessage where
  request : CompilationRequest
  blobs : List Blob := []
  dryRun : Bool := false
  forceRebuild : Bool := false

/-- A report as a worker sends it. The coordinator reads neither what the worker
found out about its own output nor the exit code. -/
structure ReportOutputMessage extends ReportOutput where
  workerValidation : ValidationReport := {}
  exitCode : Int32 := 0

/-- A failure as a worker sends it. -/
structure FailAttemptMessage extends AttemptFailure where
  producedCandidate : Bool := false

structure CacheQueryMessage where
  unitIdentity : Digest256 := default

structure ValidateMessage where
  /-- 0: revalidate evidence, 1: confirm the digest of an artifact -/
  mode : UInt32 := 0
  subject : Digest256 := default
  nonce : Bytes := []

structure ValidateResponseMessage where
  mode : UInt32 := 0
  evidence : EvidenceClass := .unknown
  capabilitiesDigest : Digest256 := default
  subject : Digest256 := default
  detail : Bytes := []

structure ResponseMessage where
  op : Op := .invalid
  code : ErrorCode := .ok
  detail : Bytes := []
  payload : Bytes := []
deriving DecidableEq

/-- `SubmissionResponse`, which has the fields of a submission's result. -/
abbrev SubmissionResponse := SubmissionResult

structure QueryMessage where
  kind : UInt32 := 0
  id : UInt64 := 0
  identity : Digest256 := default

-- ---------------------------------------------------------------------------
-- Encoders
-- ---------------------------------------------------------------------------

def encodeHello (message : HelloMessage) : Payload := [.record [
  .domain (txt "dc.msg.hello.v1"), .enum message.role, .str message.name,
  .u32 message.protocolVersion]]

def encodeRegisterWorker (message : RegisterWorkerMessage) : Payload := [.record (.join [
  [.domain (txt "dc.msg.register-worker.v1"), .str message.endpoint, .str message.host,
   .id message.workerId, .id message.bootId, .u32 message.maxInflight],
  encodeCapabilities message.capabilities])]

def encodeReady (message : ReadyMessage) : Payload := [.record [
  .domain (txt "dc.msg.ready.v1"), .id message.session, .id message.worker, .id message.boot,
  .gen message.generation, .gen message.epoch, .str message.detail]]

def writeBlob (blob : Blob) : Payload := [.record [.digest blob.digest], .blob blob.bytes]

def encodeSubmit (message : SubmitMessage) : Payload :=
  .record (.join [
    [.domain (txt "dc.msg.submit.v1")], encodeRequest message.request,
    [.boolean message.dryRun, .boolean message.forceRebuild]]) ::
  writeParts message.blobs writeBlob

def encodeAuthorityClaim (claim : AuthorityClaim) : Payload := [.record (writeAuthorityClaim claim)]

def writeAssignmentSource (source : AssignmentSource) : Payload :=
  [.record [.str source.logicalName, .enum source.format, .str source.languageMode],
   .blob source.bytes]

def writeAssignmentDependency (dep : AssignmentDependency) : Payload :=
  [.record [.str dep.name, .enum dep.kind], .blob dep.bytes]

def writeAssignmentChild (child : AssignmentChild) : Payload :=
  [.record [.str child.logicalName, .enum child.kind], .blob child.bytes]

def encodeAssignment (assignment : Assignment) : Payload :=
  .record (.join [
    [.domain (txt "dc.msg.assign.v1"), .id assignment.session, .id assignment.worker,
     .id assignment.workerBoot, .gen assignment.workerGeneration],
    writeAuthorityClaim assignment.claim,
    [.id assignment.compilation, .gen assignment.compilationGeneration, .id assignment.unit,
     .gen assignment.unitGeneration, .id assignment.attempt, .gen assignment.attemptGeneration,
     .u32 assignment.unitIndex, .enum assignment.kind, .enum assignment.outputKind,
     .str assignment.logicalName]]) ::
  writeParts assignment.sources writeAssignmentSource ++
  writeParts assignment.dependencies writeAssignmentDependency ++
  .record (writeStringList assignment.flags) ::
  writeParts assignment.children writeAssignmentChild ++
  [.record (.join [
    encodeToolchain assignment.toolchain, encodeTarget assignment.target,
    encodeSpecialization assignment.specialization, encodePolicy assignment.policy,
    encodeEnvironment assignment.environment, encodeValidationRequirements assignment.validation,
    [.u64 assignment.maxCompileMillis, .boolean assignment.speculative],
    encodeLease assignment.lease])]

def encodeReportOutput (output : ReportOutputMessage) : Payload := [
  .record (.join [
    [.domain (txt "dc.msg.report-output.v1")], writeAuthorityClaim output.claim,
    [.enum output.kind, .str output.logicalName, .digest output.declaredDigest]]),
  .blob output.bytes,
  .record (.join [
    encodeValidationReport output.workerValidation,
    [.str output.compilerInvocation, .str output.compilerVersionString,
     .u64 output.compilerWallMillis, .u32 output.exitCode.toUInt32]])]

def encodeFailAttempt (failure : FailAttemptMessage) : Payload := [.record (.join [
  [.domain (txt "dc.msg.fail-attempt.v1")], writeAuthorityClaim failure.claim,
  [.u16 failure.code.value, .str failure.detail, .boolean failure.producedCandidate]])]

def encodeCacheQuery (message : CacheQueryMessage) : Payload := [.record [
  .domain (txt "dc.msg.cache-query.v1"), .digest message.unitIdentity]]

def encodeValidate (message : ValidateMessage) : Payload := [.record [
  .domain (txt "dc.msg.validate.v1"), .u32 message.mode, .digest message.subject,
  .str message.nonce]]

def encodeValidateResponse (message : ValidateResponseMessage) : Payload := [.record [
  .domain (txt "dc.msg.validate-response.v1"), .u32 message.mode, .enum message.evidence,
  .digest message.capabilitiesDigest, .digest message.subject, .str message.detail]]

def encodeResponse (message : ResponseMessage) : Payload := [
  .record [.domain (txt "dc.msg.response.v1"), .u16 (UInt16.ofNat message.op.code),
    .u16 message.code.value, .str message.detail],
  .blob message.payload]

def writeUnitSubmission (unit : UnitSubmission) : Record := .join [
  [.u32 unit.index, .id unit.compilation, .id unit.unit, .gen unit.unitGeneration,
   .digest unit.unitIdentity, .enum unit.state, .enum unit.cache.outcome, .str unit.cache.reason,
   .boolean unit.committed, .boolean unit.scheduled, .str unit.detail],
  writePresent (!unit.commit.id.isZero) (encodeCommit unit.commit)]

def encodeSubmissionResponse (message : SubmissionResponse) : Payload := [.record (.join [
  [.domain (txt "dc.msg.submission-response.v1"), .id message.requestId,
   .digest message.requestIdentity, .boolean message.allCommitted,
   .boolean message.servedFromCache, .boolean message.duplicateRequest],
  writeList message.units writeUnitSubmission])]

def encodeQuery (message : QueryMessage) : Payload := [.record [
  .domain (txt "dc.msg.query.v1"), .u32 message.kind, .u64 message.id, .digest message.identity]]

-- ---------------------------------------------------------------------------
-- Decoders
-- ---------------------------------------------------------------------------

/-- A count that `limit` bounds, and that many items. -/
def readAtMost {α : Type} (limit : Nat) (subject : String) (read : Reader α) : Reader (List α) := do
  let count ← readList
  if limit < count then fail .limitExceeded (txt subject ++ txt " count out of bounds")
  else Decoder.replicate read count

def readHello : Reader HelloMessage := do
  readDomain (txt "dc.msg.hello.v1")
  let role ← readEnum
  let name ← readStr
  let protocolVersion ← readU32
  if protocolVersion ≠ 1 then fail .unsupported (txt "hello protocol version mismatch")
  else pure { role, name, protocolVersion }

def readRegisterWorker [HashFunction] : Reader RegisterWorkerMessage := do
  readDomain (txt "dc.msg.register-worker.v1")
  let endpoint ← readStr
  let host ← readStr
  let workerId ← readId
  let bootId ← readId
  let maxInflight ← readU32
  if maxInflight = 0 ∨ 64 < maxInflight then
    fail .limitExceeded (txt "max_inflight out of bounds")
  else do
    let capabilities ← decodeCapabilities
    pure { endpoint, host, workerId, bootId, maxInflight, capabilities }

def readReady : Reader ReadyMessage := do
  readDomain (txt "dc.msg.ready.v1")
  let session ← readId
  let worker ← readId
  let boot ← readId
  let generation ← readGen
  let epoch ← readGen
  let detail ← readStr
  pure { session, worker, boot, generation, epoch, detail }

/-- A blob of a submission must have the digest it declares. -/
def readSubmittedBlob [HashFunction] : Reader Blob := do
  let digest ← readDigest
  let bytes ← readBlob
  if sha256 bytes ≠ digest then
    fail .integrityFailure (txt "submitted blob does not match its declared digest")
  else pure { digest, bytes }

def readSubmit [HashFunction] : Reader SubmitMessage := do
  readDomain (txt "dc.msg.submit.v1")
  let request ← decodeRequest
  let dryRun ← readBool
  let forceRebuild ← readBool
  let blobs ← readAtMost 65536 "submission blob" readSubmittedBlob
  pure { request, dryRun, forceRebuild, blobs }

def readAssignmentSource : Reader AssignmentSource := do
  let logicalName ← readStr
  let format ← readEnum
  let languageMode ← readStr
  let bytes ← readBlob
  pure { logicalName, format, languageMode, bytes }

def readAssignmentDependency : Reader AssignmentDependency := do
  let name ← readStr
  let kind ← readEnum
  let bytes ← readBlob
  pure { name, kind, bytes }

def readAssignmentChild : Reader AssignmentChild := do
  let logicalName ← readStr
  let kind ← readEnum
  let bytes ← readBlob
  pure { logicalName, kind, bytes }

def readAssignment [HashFunction] : Reader Assignment := do
  readDomain (txt "dc.msg.assign.v1")
  let session ← readId
  let worker ← readId
  let workerBoot ← readId
  let workerGeneration ← readGen
  let claim ← readAuthorityClaim
  let compilation ← readId
  let compilationGeneration ← readGen
  let unit ← readId
  let unitGeneration ← readGen
  let attempt ← readId
  let attemptGeneration ← readGen
  let unitIndex ← readU32
  let kind ← readEnum
  let outputKind ← readEnum
  let logicalName ← readStr
  let sources ← readAtMost 4096 "assignment source" readAssignmentSource
  let dependencies ← readAtMost 65536 "assignment dependency" readAssignmentDependency
  let flags ← readStringList
  let children ← readAtMost 4096 "assignment child" readAssignmentChild
  let toolchain ← decodeToolchain
  let target ← decodeTarget
  let specialization ← decodeSpecialization
  let policy ← decodePolicy
  let environment ← decodeEnvironment
  let validation ← decodeValidationRequirements
  let maxCompileMillis ← readU64
  let speculative ← readBool
  let lease ← decodeLease
  pure {
    session, worker, workerBoot, workerGeneration, lease, claim, compilation,
    compilationGeneration, unit, unitGeneration, attempt, attemptGeneration, unitIndex, kind,
    outputKind, logicalName, sources, dependencies, flags, children, toolchain, target,
    specialization, policy, environment, validation, maxCompileMillis, speculative }

def readReportOutput : Reader ReportOutputMessage := do
  readDomain (txt "dc.msg.report-output.v1")
  let claim ← readAuthorityClaim
  let kind ← readEnum
  let logicalName ← readStr
  let declaredDigest ← readDigest
  let bytes ← readBlob
  let workerValidation ← decodeValidationReport
  let compilerInvocation ← readStr
  let compilerVersionString ← readStr
  let compilerWallMillis ← readU64
  let exitCode ← readU32
  pure {
    claim, kind, logicalName, declaredDigest, bytes, workerValidation, compilerInvocation,
    compilerVersionString, compilerWallMillis, exitCode := exitCode.toInt32 }

def readFailAttempt : Reader FailAttemptMessage := do
  readDomain (txt "dc.msg.fail-attempt.v1")
  let claim ← readAuthorityClaim
  let code ← readCode "attempt"
  let detail ← readStr
  let producedCandidate ← readBool
  pure { claim, code, detail, producedCandidate }

def readCacheQuery : Reader CacheQueryMessage := do
  readDomain (txt "dc.msg.cache-query.v1")
  let unitIdentity ← readDigest
  pure { unitIdentity }

/-- The check of `decode_validate` and `decode_validate_response`. -/
def readMode : Reader UInt32 := do
  let mode ← readU32
  if 1 < mode then fail .malformed (txt "validate mode out of domain") else pure mode

def readValidate : Reader ValidateMessage := do
  readDomain (txt "dc.msg.validate.v1")
  let mode ← readMode
  let subject ← readDigest
  let nonce ← readStr
  pure { mode, subject, nonce }

def readValidateResponse : Reader ValidateResponseMessage := do
  readDomain (txt "dc.msg.validate-response.v1")
  let mode ← readMode
  let evidence ← readEnum
  let capabilitiesDigest ← readDigest
  let subject ← readDigest
  let detail ← readStr
  pure { mode, evidence, capabilitiesDigest, subject, detail }

/-- The checked casts of a response header. -/
def headerOf (op code : UInt16) : Option (Op × ErrorCode) :=
  if inDomain : code ≤ 94 then (Op.all[op.toNat]?).map (·, ⟨code, inDomain⟩) else none

def readHeader : Reader (Op × ErrorCode) := do
  let op ← readU16
  let code ← readU16
  match headerOf op code with
  | some header => pure header
  | none => fail .malformed (txt "response header out of domain")

def readResponse : Reader ResponseMessage := do
  readDomain (txt "dc.msg.response.v1")
  let (op, code) ← readHeader
  let detail ← readStr
  let payload ← readBlob
  pure { op, code, detail, payload }

def readUnitSubmission : Reader UnitSubmission := do
  let index ← readU32
  let compilation ← readId
  let unit ← readId
  let unitGeneration ← readGen
  let unitIdentity ← readDigest
  let state ← readEnum
  let outcome ← readEnum
  let reason ← readStr
  let committed ← readBool
  let scheduled ← readBool
  let detail ← readStr
  let commit ← readPresent {} decodeCommit
  pure {
    index, compilation, unit, unitGeneration, unitIdentity, state, cache := { outcome, reason }
    committed, commit, scheduled, detail }

def readSubmissionResponse : Reader SubmissionResponse := do
  readDomain (txt "dc.msg.submission-response.v1")
  let requestId ← readId
  let requestIdentity ← readDigest
  let allCommitted ← readBool
  let servedFromCache ← readBool
  let duplicateRequest ← readBool
  let units ← readAtMost 65536 "submission response unit" readUnitSubmission
  pure { requestId, requestIdentity, units, allCommitted, servedFromCache, duplicateRequest }

def readQuery : Reader QueryMessage := do
  readDomain (txt "dc.msg.query.v1")
  let kind ← readU32
  if 9 < kind then fail .malformed (txt "query kind out of domain")
  else do
    let id ← readU64
    let identity ← readDigest
    pure { kind, id, identity }

def decodeHello : Bytes → Option HelloMessage := whole readHello

def decodeRegisterWorker [HashFunction] : Bytes → Option RegisterWorkerMessage :=
  whole readRegisterWorker

def decodeReady : Bytes → Option ReadyMessage := whole readReady

def decodeSubmit [HashFunction] : Bytes → Option SubmitMessage := whole readSubmit

def decodeAuthorityClaim : Bytes → Option AuthorityClaim := whole readAuthorityClaim

def decodeAssignment [HashFunction] : Bytes → Option Assignment := whole readAssignment

def decodeReportOutput : Bytes → Option ReportOutputMessage := whole readReportOutput

def decodeFailAttempt : Bytes → Option FailAttemptMessage := whole readFailAttempt

def decodeCacheQuery : Bytes → Option CacheQueryMessage := whole readCacheQuery

def decodeValidate : Bytes → Option ValidateMessage := whole readValidate

def decodeValidateResponse : Bytes → Option ValidateResponseMessage := whole readValidateResponse

def decodeResponse : Bytes → Option ResponseMessage := whole readResponse

def decodeSubmissionResponse : Bytes → Option SubmissionResponse := whole readSubmissionResponse

def decodeQuery : Bytes → Option QueryMessage := whole readQuery

end Wire

end DistributedCompilation
