import DistributedCompilation.Codec.RecordCodec
import DistributedCompilation.Coordinator.Submit

/-!
# Distributed Compilation — messages to the peers

The codecs of `wire.cpp` for what the coordinator sends to its workers and
clients, and how `dc_coordinator` builds those messages. A decoder returns only
whether it accepts: the error its reader holds is dropped with the reader.
-/

namespace DistributedCompilation

instance : WireEnum ControlKind where
  values := [.cancelAttempt, .commitNotification, .shutdown]
  complete a := by cases a <;> decide
  small := by decide

instance : WireEnum CacheOutcome where
  values := [.reusable, .stale, .incompatible, .corrupt, .unknown, .miss]
  complete a := by cases a <;> decide
  small := by decide

instance : WireEnum CommitOutcome where
  values := [.committed, .deduplicated, .refused, .reproducibilityViolation]
  complete a := by cases a <;> decide
  small := by decide

namespace Wire

open Reader

-- ---------------------------------------------------------------------------
-- Messages
-- ---------------------------------------------------------------------------

structure CommitMessage where
  control : ControlMessage
  commit : ArtifactCommit := {}

structure CacheReportMessage where
  decision : CacheDecision := {}
  entry : CacheEntry := {}
deriving DecidableEq

structure CommitResponse where
  outcome : CommitOutcome := .refused
  error : ErrorCode := .ok
  detail : Bytes := []
  commit : ArtifactCommit := {}
  validation : ValidationReport := {}
  artifactAuthoritative : Bool := false
deriving DecidableEq

-- ---------------------------------------------------------------------------
-- Encoders
-- ---------------------------------------------------------------------------

/-- A part that is only written when it is there. -/
def writePresent (present : Bool) (part : Record) : Record :=
  .boolean present :: if present then part else []

/-- `write_control_record`. -/
def writeControlRecord (control : ControlMessage) : Record :=
  [.domain (txt "dc.msg.control.v1"), .id control.session, .enum control.kind,
   .id control.compilation, .gen control.compilationGeneration, .id control.attempt,
   .gen control.attemptGeneration, .id control.lease, .gen control.leaseGeneration,
   .id control.commit, .digest control.artifactDigest, .str control.reason]

def encodeControl (control : ControlMessage) : Record := writeControlRecord control

def encodeCommitMessage (message : CommitMessage) : Record := .join [
  [.domain (txt "dc.msg.commit.v1")], writeControlRecord message.control,
  encodeCommit message.commit]

def encodeCacheReport (message : CacheReportMessage) : Record := .join [
  [.domain (txt "dc.msg.cache-report.v1"), .enum message.decision.outcome,
   .str message.decision.reason, .boolean message.decision.generationDrift,
   .id message.decision.entry],
  writeList message.decision.mismatches fun mismatch =>
    [.str mismatch.dimension, .str mismatch.expected, .str mismatch.actual],
  writePresent (!message.entry.unitIdentity.isZero) (encodeCacheEntry message.entry)]

def encodeCommitResponse (message : CommitResponse) : Record := .join [
  [.domain (txt "dc.msg.commit-response.v1"), .enum message.outcome, .u16 message.error.value,
   .str message.detail, .boolean message.artifactAuthoritative],
  writePresent (!message.commit.id.isZero) (encodeCommit message.commit),
  encodeValidationReport message.validation]

-- ---------------------------------------------------------------------------
-- Decoders
-- ---------------------------------------------------------------------------

/-- A part that stays `absent` when it was not written. -/
def readPresent {α : Type} (absent : α) (read : Reader α) : Reader α := do
  let present ← readBool
  if present then read else pure absent

/-- `read_control_record`. -/
def readControlRecord : Reader ControlMessage := do
  readDomain (txt "dc.msg.control.v1")
  let session ← readId
  let kind ← readEnum
  let compilation ← readId
  let compilationGeneration ← readGen
  let attempt ← readId
  let attemptGeneration ← readGen
  let lease ← readId
  let leaseGeneration ← readGen
  let commit ← readId
  let artifactDigest ← readDigest
  let reason ← readStr
  pure {
    session, kind, compilation, compilationGeneration, attempt, attemptGeneration, lease,
    leaseGeneration, commit, artifactDigest, reason }

def readCommitMessage : Reader CommitMessage := do
  readDomain (txt "dc.msg.commit.v1")
  let control ← readControlRecord
  let commit ← decodeCommit
  pure { control, commit }

def readCacheMismatch : Reader CacheMismatch := do
  let dimension ← readStr
  let expected ← readStr
  let actual ← readStr
  pure { dimension, expected, actual }

def readCacheReport : Reader CacheReportMessage := do
  readDomain (txt "dc.msg.cache-report.v1")
  let outcome ← readEnum
  let reason ← readStr
  let generationDrift ← readBool
  let entry ← readId
  let count ← readList
  if 1024 < count then fail .limitExceeded (txt "cache mismatch count out of bounds")
  else
    let mismatches ← Decoder.replicate readCacheMismatch count
    let found ← readPresent {} decodeCacheEntry
    pure { decision := { outcome, reason, mismatches, entry, generationDrift }, entry := found }

def readCommitResponse : Reader CommitResponse := do
  readDomain (txt "dc.msg.commit-response.v1")
  let outcome ← readEnum
  let error ← readCode "commit"
  let detail ← readStr
  let artifactAuthoritative ← readBool
  let commit ← readPresent {} decodeCommit
  let validation ← decodeValidationReport
  pure { outcome, error, detail, commit, validation, artifactAuthoritative }

/-- `return r.at_end()`: a decoder accepts what it read to the end. -/
def whole {α : Type} (read : Reader α) (bytes : Bytes) : Option α :=
  match read.parse bytes with
  | some (value, []) => some value
  | _ => none

def decodeControl : Bytes → Option ControlMessage := whole readControlRecord

def decodeCommitMessage : Bytes → Option CommitMessage := whole readCommitMessage

def decodeCacheReport : Bytes → Option CacheReportMessage := whole readCacheReport

def decodeCommitResponse : Bytes → Option CommitResponse := whole readCommitResponse

-- ---------------------------------------------------------------------------
-- What the coordinator sends
-- ---------------------------------------------------------------------------

/-- The messages of these codecs. -/
inductive Message
  | control (control : ControlMessage)
  | commit (message : CommitMessage)
  | cacheReport (message : CacheReportMessage)
  | commitResponse (message : CommitResponse)

def Message.encode : Message → Record
  | .control message => encodeControl message
  | .commit message => encodeCommitMessage message
  | .cacheReport message => encodeCacheReport message
  | .commitResponse message => encodeCommitResponse message

/-- The matching decoder. -/
def Message.decode : Message → Bytes → Option Message
  | .control _, bytes => (decodeControl bytes).map .control
  | .commit _, bytes => (decodeCommitMessage bytes).map .commit
  | .cacheReport _, bytes => (decodeCacheReport bytes).map .cacheReport
  | .commitResponse _, bytes => (decodeCommitResponse bytes).map .commitResponse

/-- The encoder does not throw and the decoder returns the same message. -/
def Message.Delivered (message : Message) : Prop :=
  message.encode.fits = true ∧ message.decode message.encode.bytes = some message

/-- `Coordinator::commit`. -/
def commitOf (s : State) (id : CompilationId) : Option ArtifactCommit := do
  let key ← s.authoritative[id]?
  s.commits[key]?

/-- What a drained control message is sent as. -/
def outgoing (s : State) (control : ControlMessage) : Message :=
  match control.kind with
  | .commitNotification => .commit { control, commit := (commitOf s control.compilation).getD {} }
  | .shutdown | .cancelAttempt => .control control

/-- The record a cache query compares an entry with: the entry's own identities. -/
def probe (entry : CacheEntry) : CompilationRecord where
  unitIdentity := entry.unitIdentity
  sourceIdentity := entry.sourceIdentity
  dependencyIdentity := entry.dependencyIdentity
  toolchainIdentity := entry.toolchainIdentity
  targetIdentity := entry.targetIdentity
  specializationIdentity := entry.specializationIdentity
  policyIdentity := entry.policyIdentity
  environmentIdentity := entry.environmentIdentity
  toolchainGeneration := entry.toolchainGeneration
  targetGeneration := entry.targetGeneration

/-- `Coordinator::cache_query`. -/
def cacheQuery (i : Impl) (unitIdentity : Digest256) : CacheDecision :=
  match i.state.cacheIndex[unitIdentity]? with
  | none => { outcome := .miss, reason := txt "no cache entry for this unit identity" }
  | some id =>
    match i.state.cacheEntries[id]? with
    | none => { outcome := .corrupt, reason := txt "cache index points at a missing entry" }
    | some entry =>
      let decision := evaluateCacheMetadata (probe entry) entry
      evaluateCacheBlob (probe entry) entry (decision.reusable && i.hasBlob entry.artifact.digest)

/-- The answer to a cache query. -/
def cacheReport (i : Impl) (unitIdentity : Digest256) : CacheReportMessage :=
  let decision := cacheQuery i unitIdentity
  { decision, entry := (i.state.cacheEntries[decision.entry]?).getD {} }

/-- The answer to a report. A decision without a commit gets the commit id 1. -/
def commitResponse (decision : CommitDecision) : CommitResponse where
  outcome := decision.outcome
  error := decision.error
  detail := decision.detail
  commit := if decision.commit.id.isZero then { decision.commit with id := ⟨1⟩ } else decision.commit
  validation := decision.validation
  artifactAuthoritative := decision.artifactAuthoritative

end Wire

end DistributedCompilation
