import DistributedCompilation.Codec.RequestCodec

/-!
# Distributed Compilation — record codec

`codec.cpp` from worker records to jobs: the payloads of journal records and
the elements of a snapshot.
-/

namespace DistributedCompilation

open Reader

-- ---------------------------------------------------------------------------
-- Encoders
-- ---------------------------------------------------------------------------

def encodeWorker (value : WorkerRecord) : Record := .join [
  [.id value.id, .id value.boot, .gen value.generation, .id value.session, .str value.endpoint,
   .str value.host],
  encodeCapabilities value.capabilities,
  [.enum value.health, .boolean value.ready, .boolean value.fenced,
   .boolean value.trustedEvidenceFresh, .u32 value.queueDepth, .u32 value.inFlight,
   .u64 value.completedUnits, .u64 value.failedUnits, .u64 value.totalCompileMillis,
   .u64 value.cacheAffinityHits, .i64 value.registeredAt, .i64 value.lastSeen],
  writeList value.activeLeases fun lease => [.id lease]]

def encodeLease (value : CompileLease) : Record :=
  [.id value.id, .gen value.generation, .id value.compilation, .gen value.compilationGeneration,
   .id value.unit, .id value.attempt, .id value.worker, .id value.workerBoot,
   .gen value.workerGeneration, .gen value.epoch, .i64 value.issuedAt, .boolean value.revoked,
   .str value.revocationReason]

def encodeValidationReport (value : ValidationReport) : Record := .join [
  [.id value.id],
  writeList value.checks fun check => [.str check.check, .enum check.outcome, .str check.detail],
  [.enum value.aggregate, .str value.summary]]

def encodeAttempt (value : CompilationAttempt) : Record := .join [
  [.id value.id, .gen value.generation, .id value.compilation, .gen value.compilationGeneration,
   .id value.unit, .id value.worker, .id value.workerBoot, .gen value.workerGeneration,
   .id value.lease, .gen value.leaseGeneration, .gen value.epoch, .enum value.state,
   .u32 value.ordinal, .boolean value.speculative, .i64 value.createdAt, .i64 value.startedAt,
   .i64 value.finishedAt, .u16 value.failure.value, .str value.failureDetail],
  encodeValidationReport value.validation, writeContentRef value.candidate,
  [.digest value.candidateDigest, .id value.artifact, .u64 value.compilerWallMillis,
   .str value.compilerInvocation, .str value.compilerVersionString]]

def encodeProvenance (value : Provenance) : Record := .join [
  [.id value.id, .gen value.generation, .id value.compilation, .gen value.compilationGeneration,
   .id value.unit, .id value.attempt, .gen value.attemptGeneration, .gen value.epoch,
   .id value.worker, .id value.workerBoot, .gen value.workerGeneration, .id value.lease,
   .gen value.leaseGeneration, .id value.requestId, .digest value.requestIdentity,
   .digest value.unitIdentity],
  writeContentRef value.artifact,
  [.digest value.sourceIdentity, .digest value.irIdentity, .digest value.dependencyIdentity,
   .digest value.toolchainIdentity, .digest value.targetIdentity,
   .digest value.specializationIdentity, .digest value.policyIdentity, .id value.validation,
   .enum value.evidence, .str value.compilerInvocation, .str value.compilerVersionString,
   .u64 value.compilerWallMillis, .i64 value.producedAt]]

def encodeCommit (value : ArtifactCommit) : Record :=
  [.id value.id, .gen value.generation, .id value.compilation, .gen value.compilationGeneration,
   .id value.unit, .id value.artifact, .gen value.artifactGeneration,
   .digest value.artifactDigest, .id value.provenance, .id value.validation, .gen value.epoch,
   .id value.worker, .id value.workerBoot, .id value.attempt, .i64 value.committedAt,
   .boolean value.deduplicated, .boolean value.superseded]

def encodeCacheEntry (value : CacheEntry) : Record := .join [
  [.id value.id, .gen value.generation, .digest value.unitIdentity, .id value.compilation,
   .gen value.compilationGeneration],
  writeContentRef value.artifact,
  [.id value.artifactId, .id value.provenance, .id value.validation, .digest value.sourceIdentity,
   .digest value.dependencyIdentity, .digest value.toolchainIdentity,
   .gen value.toolchainGeneration, .digest value.targetIdentity, .gen value.targetGeneration,
   .digest value.specializationIdentity, .digest value.policyIdentity,
   .digest value.environmentIdentity, .id value.commit, .i64 value.createdAt,
   .boolean value.invalidated, .str value.invalidationReason, .u32 value.hitCount]]

def encodeNegativeCache (value : NegativeCacheEntry) : Record :=
  [.id value.id, .digest value.unitIdentity, .enum value.reason, .u16 value.failure.value,
   .str value.diagnostic, .digest value.toolchainIdentity, .gen value.toolchainGeneration,
   .digest value.targetIdentity, .gen value.targetGeneration, .digest value.specializationIdentity,
   .digest value.policyIdentity, .i64 value.createdAt]

def encodeIntermediate (value : IntermediateArtifact) : Record := .join [
  [.id value.id, .gen value.generation, .enum value.kind], writeContentRef value.content,
  [.digest value.provenanceIdentity, .digest value.toolchainIdentity,
   .digest value.targetIdentity, .digest value.dependencyIdentity, .id value.compilation,
   .gen value.compilationGeneration, .boolean value.authoritative]]

def encodeOptionalCommit : Option ArtifactCommit → Record
  | none => [.boolean false]
  | some commit => .boolean true :: encodeCommit commit

def encodeCompilation (value : CompilationRecord) : Record := .join [
  [.id value.id, .gen value.generation, .id value.unit, .gen value.unitGeneration,
   .digest value.unitIdentity, .id value.requestId, .gen value.requestGeneration,
   .digest value.requestIdentity, .digest value.sourceIdentity, .digest value.dependencyIdentity,
   .digest value.toolchainIdentity, .digest value.targetIdentity,
   .digest value.specializationIdentity, .digest value.policyIdentity,
   .digest value.environmentIdentity, .gen value.sourceGeneration, .gen value.irGeneration,
   .gen value.dependencyGeneration, .gen value.toolchainGeneration, .gen value.targetGeneration,
   .gen value.specializationGeneration, .gen value.policyGeneration, .enum value.outputKind,
   .enum value.reproducibility, .enum value.state],
  writeList value.attempts fun attempt => [.id attempt],
  [.id value.currentAttempt, .u32 value.attemptOrdinalCounter],
  encodeOptionalCommit value.commit,
  writeList value.divergentCandidates writeContentRef,
  [.boolean value.reproducibilityViolation, .str value.failureDetail, .u16 value.failure.value,
   .boolean value.cacheHit, .i64 value.createdAt, .i64 value.updatedAt, .u32 value.unitIndex,
   .u32 value.parentUnitIndex, .boolean value.isRoot]]

def encodeJob (value : JobRecord) : Record := .join [
  [.id value.requestId, .gen value.requestGeneration, .digest value.requestIdentity],
  writeList value.units fun unit => [.id unit],
  [.u32 value.rootIndex],
  writeList value.mandatoryUnits fun index => [.u32 index],
  [.boolean value.committed, .id value.committedUnit, .u16 value.failure.value,
   .str value.failureDetail, .i64 value.createdAt]]

-- ---------------------------------------------------------------------------
-- Decoders
-- ---------------------------------------------------------------------------

def decodeWorker [HashFunction] : Reader WorkerRecord := do
  let id ← readId
  let boot ← readId
  let generation ← readGen
  let session ← readOptionalId
  let endpoint ← readStr
  let host ← readStr
  let capabilities ← decodeCapabilities
  let health ← readEnum
  let ready ← readBool
  let fenced ← readBool
  let trustedEvidenceFresh ← readBool
  let queueDepth ← readU32
  let inFlight ← readU32
  let completedUnits ← readU64
  let failedUnits ← readU64
  let totalCompileMillis ← readU64
  let cacheAffinityHits ← readU64
  let registeredAt ← readI64
  let lastSeen ← readI64
  let activeLeases ← readItems readId
  pure {
    id, boot, generation, session, endpoint, host, capabilities, health, ready, fenced,
    trustedEvidenceFresh, queueDepth, inFlight, completedUnits, failedUnits, totalCompileMillis,
    cacheAffinityHits, registeredAt, lastSeen, activeLeases }

def decodeLease : Reader CompileLease := do
  let id ← readId
  let generation ← readGen
  let compilation ← readId
  let compilationGeneration ← readGen
  let unit ← readId
  let attempt ← readId
  let worker ← readId
  let workerBoot ← readId
  let workerGeneration ← readGen
  let epoch ← readGen
  let issuedAt ← readI64
  let revoked ← readBool
  let revocationReason ← readStr
  pure {
    id, generation, compilation, compilationGeneration, unit, attempt, worker, workerBoot,
    workerGeneration, epoch, issuedAt, revoked, revocationReason }

def decodeValidationCheck : Reader ValidationCheck := do
  let check ← readStr
  let outcome ← readEnum
  let detail ← readStr
  pure { check, outcome, detail }

/-- A report id of zero means that no validation was recorded yet. -/
def decodeValidationReport : Reader ValidationReport := do
  let id ← readOptionalId
  let count ← readList
  if 4096 < count then fail .limitExceeded (txt "validation check count out of range")
  else
    let checks ← Decoder.replicate decodeValidationCheck count
    let aggregate ← readEnum
    let summary ← readStr
    pure { id, checks, aggregate, summary }

def decodeAttempt : Reader CompilationAttempt := do
  let id ← readId
  let generation ← readGen
  let compilation ← readId
  let compilationGeneration ← readGen
  let unit ← readId
  let worker ← readId
  let workerBoot ← readId
  let workerGeneration ← readGen
  let lease ← readId
  let leaseGeneration ← readGen
  let epoch ← readGen
  let state ← readEnum
  let ordinal ← readU32
  let speculative ← readBool
  let createdAt ← readI64
  let startedAt ← readI64
  let finishedAt ← readI64
  let failure ← readCode "attempt"
  let failureDetail ← readStr
  let validation ← decodeValidationReport
  let candidate ← decodeContentRef
  let candidateDigest ← readDigest
  let artifact ← readOptionalId
  let compilerWallMillis ← readU64
  let compilerInvocation ← readStr
  let compilerVersionString ← readStr
  pure {
    id, generation, compilation, compilationGeneration, unit, worker, workerBoot,
    workerGeneration, lease, leaseGeneration, epoch, state, ordinal, speculative, createdAt,
    startedAt, finishedAt, failure, failureDetail, validation, candidate, candidateDigest,
    artifact, compilerWallMillis, compilerInvocation, compilerVersionString }

def decodeProvenance : Reader Provenance := do
  let id ← readId
  let generation ← readGen
  let compilation ← readId
  let compilationGeneration ← readGen
  let unit ← readId
  let attempt ← readId
  let attemptGeneration ← readGen
  let epoch ← readGen
  let worker ← readId
  let workerBoot ← readId
  let workerGeneration ← readGen
  let lease ← readId
  let leaseGeneration ← readGen
  let requestId ← readId
  let requestIdentity ← readDigest
  let unitIdentity ← readDigest
  let artifact ← decodeContentRef
  let sourceIdentity ← readDigest
  let irIdentity ← readDigest
  let dependencyIdentity ← readDigest
  let toolchainIdentity ← readDigest
  let targetIdentity ← readDigest
  let specializationIdentity ← readDigest
  let policyIdentity ← readDigest
  let validation ← readId
  let evidence ← readEnum
  let compilerInvocation ← readStr
  let compilerVersionString ← readStr
  let compilerWallMillis ← readU64
  let producedAt ← readI64
  pure {
    id, generation, compilation, compilationGeneration, unit, attempt, attemptGeneration, epoch,
    worker, workerBoot, workerGeneration, lease, leaseGeneration, requestId, requestIdentity,
    unitIdentity, artifact, sourceIdentity, irIdentity, dependencyIdentity, toolchainIdentity,
    targetIdentity, specializationIdentity, policyIdentity, validation, evidence,
    compilerInvocation, compilerVersionString, compilerWallMillis, producedAt }

def decodeCommit : Reader ArtifactCommit := do
  let id ← readId
  let generation ← readGen
  let compilation ← readId
  let compilationGeneration ← readGen
  let unit ← readId
  let artifact ← readId
  let artifactGeneration ← readGen
  let artifactDigest ← readDigest
  let provenance ← readId
  let validation ← readId
  let epoch ← readGen
  let worker ← readId
  let workerBoot ← readId
  let attempt ← readId
  let committedAt ← readI64
  let deduplicated ← readBool
  let superseded ← readBool
  pure {
    id, generation, compilation, compilationGeneration, unit, artifact, artifactGeneration,
    artifactDigest, provenance, validation, epoch, worker, workerBoot, attempt, committedAt,
    deduplicated, superseded }

def decodeCacheEntry : Reader CacheEntry := do
  let id ← readId
  let generation ← readGen
  let unitIdentity ← readDigest
  let compilation ← readId
  let compilationGeneration ← readGen
  let artifact ← decodeContentRef
  let artifactId ← readId
  let provenance ← readId
  let validation ← readId
  let sourceIdentity ← readDigest
  let dependencyIdentity ← readDigest
  let toolchainIdentity ← readDigest
  let toolchainGeneration ← readGen
  let targetIdentity ← readDigest
  let targetGeneration ← readGen
  let specializationIdentity ← readDigest
  let policyIdentity ← readDigest
  let environmentIdentity ← readDigest
  let commit ← readId
  let createdAt ← readI64
  let invalidated ← readBool
  let invalidationReason ← readStr
  let hitCount ← readU32
  pure {
    id, generation, unitIdentity, compilation, compilationGeneration, artifact, artifactId,
    provenance, validation, sourceIdentity, dependencyIdentity, toolchainIdentity,
    toolchainGeneration, targetIdentity, targetGeneration, specializationIdentity, policyIdentity,
    environmentIdentity, commit, createdAt, invalidated, invalidationReason, hitCount }

def decodeNegativeCache : Reader NegativeCacheEntry := do
  let id ← readId
  let unitIdentity ← readDigest
  let reason ← readEnum
  let failure ← readCode "negative cache"
  let diagnostic ← readStr
  let toolchainIdentity ← readDigest
  let toolchainGeneration ← readGen
  let targetIdentity ← readDigest
  let targetGeneration ← readGen
  let specializationIdentity ← readDigest
  let policyIdentity ← readDigest
  let createdAt ← readI64
  pure {
    id, unitIdentity, reason, failure, diagnostic, toolchainIdentity, toolchainGeneration,
    targetIdentity, targetGeneration, specializationIdentity, policyIdentity, createdAt }

def decodeIntermediate : Reader IntermediateArtifact := do
  let id ← readId
  let generation ← readGen
  let kind ← readEnum
  let content ← decodeContentRef
  let provenanceIdentity ← readDigest
  let toolchainIdentity ← readDigest
  let targetIdentity ← readDigest
  let dependencyIdentity ← readDigest
  let compilation ← readId
  let compilationGeneration ← readGen
  let authoritative ← readBool
  pure {
    id, generation, kind, content, provenanceIdentity, toolchainIdentity, targetIdentity,
    dependencyIdentity, compilation, compilationGeneration, authoritative }

def decodeOptionalCommit : Reader (Option ArtifactCommit) := do
  let hasCommit ← readBool
  if hasCommit = true then
    let commit ← decodeCommit
    pure (some commit)
  else pure none

def decodeCompilation : Reader CompilationRecord := do
  let id ← readId
  let generation ← readGen
  let unit ← readId
  let unitGeneration ← readGen
  let unitIdentity ← readDigest
  let requestId ← readId
  let requestGeneration ← readGen
  let requestIdentity ← readDigest
  let sourceIdentity ← readDigest
  let dependencyIdentity ← readDigest
  let toolchainIdentity ← readDigest
  let targetIdentity ← readDigest
  let specializationIdentity ← readDigest
  let policyIdentity ← readDigest
  let environmentIdentity ← readDigest
  let sourceGeneration ← readGen
  let irGeneration ← readGen
  let dependencyGeneration ← readGen
  let toolchainGeneration ← readGen
  let targetGeneration ← readGen
  let specializationGeneration ← readGen
  let policyGeneration ← readGen
  let outputKind ← readEnum
  let reproducibility ← readEnum
  let state ← readEnum
  let attempts ← readItems readId
  let currentAttempt ← readOptionalId
  let attemptOrdinalCounter ← readU32
  let commit ← decodeOptionalCommit
  let divergentCandidates ← readItems decodeContentRef
  let reproducibilityViolation ← readBool
  let failureDetail ← readStr
  let failure ← readCode "compilation"
  let cacheHit ← readBool
  let createdAt ← readI64
  let updatedAt ← readI64
  let unitIndex ← readU32
  let parentUnitIndex ← readU32
  let isRoot ← readBool
  pure {
    id, generation, unit, unitGeneration, unitIdentity, requestId, requestGeneration,
    requestIdentity, sourceIdentity, dependencyIdentity, toolchainIdentity, targetIdentity,
    specializationIdentity, policyIdentity, environmentIdentity, sourceGeneration, irGeneration,
    dependencyGeneration, toolchainGeneration, targetGeneration, specializationGeneration,
    policyGeneration, outputKind, reproducibility, state, attempts, currentAttempt,
    attemptOrdinalCounter, commit, divergentCandidates, reproducibilityViolation, failureDetail,
    failure, cacheHit, createdAt, updatedAt, unitIndex, parentUnitIndex, isRoot }

def decodeJob : Reader JobRecord := do
  let requestId ← readId
  let requestGeneration ← readGen
  let requestIdentity ← readDigest
  let units ← readItems readId
  let rootIndex ← readU32
  let mandatoryUnits ← readItems readU32
  let committed ← readBool
  let committedUnit ← readOptionalId
  let failure ← readCode "job"
  let failureDetail ← readStr
  let createdAt ← readI64
  pure {
    requestId, requestGeneration, requestIdentity, units, rootIndex, mandatoryUnits, committed,
    committedUnit, failure, failureDetail, createdAt }

end DistributedCompilation
