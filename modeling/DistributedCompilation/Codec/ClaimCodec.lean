import DistributedCompilation.Codec.RecordRoundTrip
import DistributedCompilation.Runtime.Lifecycle

/-!
# Distributed Compilation — artifact descriptors and authority claims

The record of `codec.cpp` that is in no journal or snapshot, and the claim of
`runtime.cpp` a worker sends back with every report.
-/

namespace DistributedCompilation

open Reader Decoder

/-- `ArtifactDescriptor`. -/
structure ArtifactDescriptor where
  id : ArtifactId := {}
  generation : ArtifactGeneration := {}
  compilation : CompilationId := {}
  compilationGeneration : CompilationGeneration := {}
  unit : CompilationUnitId := {}
  kind : OutputKind := .object
  content : ContentRef := {}
  logicalName : Bytes := []
  targetIdentity : Digest256 := default
  toolchainIdentity : Digest256 := default
  dependencyIdentity : Digest256 := default
  specializationIdentity : Digest256 := default
deriving DecidableEq

-- ---------------------------------------------------------------------------
-- Codecs
-- ---------------------------------------------------------------------------

def encodeArtifact (value : ArtifactDescriptor) : Record := .join [
  [.id value.id, .gen value.generation, .id value.compilation, .gen value.compilationGeneration,
   .id value.unit, .enum value.kind],
  writeContentRef value.content,
  [.str value.logicalName, .digest value.targetIdentity, .digest value.toolchainIdentity,
   .digest value.dependencyIdentity, .digest value.specializationIdentity]]

def decodeArtifact : Reader ArtifactDescriptor := do
  let id ← readId
  let generation ← readGen
  let compilation ← readId
  let compilationGeneration ← readGen
  let unit ← readId
  let kind ← readEnum
  let content ← decodeContentRef
  let logicalName ← readStr
  let targetIdentity ← readDigest
  let toolchainIdentity ← readDigest
  let dependencyIdentity ← readDigest
  let specializationIdentity ← readDigest
  pure {
    id, generation, compilation, compilationGeneration, unit, kind, content, logicalName,
    targetIdentity, toolchainIdentity, dependencyIdentity, specializationIdentity }

def writeAuthorityClaim (claim : AuthorityClaim) : Record :=
  [.domain (txt "dc.authority-claim.v1"), .gen claim.epoch, .id claim.compilation,
   .gen claim.compilationGeneration, .id claim.unit, .gen claim.unitGeneration,
   .id claim.attempt, .gen claim.attemptGeneration, .id claim.worker, .id claim.workerBoot,
   .gen claim.workerGeneration, .id claim.lease, .gen claim.leaseGeneration,
   .gen claim.sourceGeneration, .gen claim.irGeneration, .gen claim.dependencyGeneration,
   .gen claim.toolchainGeneration, .gen claim.targetGeneration,
   .gen claim.specializationGeneration, .gen claim.policyGeneration, .gen claim.cacheGeneration,
   .digest claim.requestIdentity, .digest claim.unitIdentity]

def readAuthorityClaim : Reader AuthorityClaim := do
  readDomain (txt "dc.authority-claim.v1")
  let epoch ← readGen
  let compilation ← readId
  let compilationGeneration ← readGen
  let unit ← readId
  let unitGeneration ← readGen
  let attempt ← readId
  let attemptGeneration ← readGen
  let worker ← readId
  let workerBoot ← readId
  let workerGeneration ← readGen
  let lease ← readId
  let leaseGeneration ← readGen
  let sourceGeneration ← readGen
  let irGeneration ← readGen
  let dependencyGeneration ← readGen
  let toolchainGeneration ← readGen
  let targetGeneration ← readGen
  let specializationGeneration ← readGen
  let policyGeneration ← readGen
  let cacheGeneration ← readGen
  let requestIdentity ← readDigest
  let unitIdentity ← readDigest
  pure {
    epoch, compilation, compilationGeneration, unit, unitGeneration, attempt, attemptGeneration,
    worker, workerBoot, workerGeneration, lease, leaseGeneration, sourceGeneration, irGeneration,
    dependencyGeneration, toolchainGeneration, targetGeneration, specializationGeneration,
    policyGeneration, cacheGeneration, requestIdentity, unitIdentity }

-- ---------------------------------------------------------------------------
-- Round trips
-- ---------------------------------------------------------------------------

/-- What `decode_artifact` demands of a descriptor. -/
abbrev ArtifactDescriptor.Acceptable (v : ArtifactDescriptor) : Prop :=
  v.id.isZero = false ∧ v.compilation.isZero = false ∧ v.unit.isZero = false

theorem parse_decodeArtifact (v : ArtifactDescriptor) (rest : Bytes)
    (h : (encodeArtifact v).eachFits = true) :
    decodeArtifact.parse ((encodeArtifact v).bytes ++ rest) =
      if v.Acceptable then some (v, rest) else none := by
  simp only [encodeArtifact, Record.join_cons, Record.join_nil, Record.eachFits_append,
    Record.eachFits_cons, Bool.and_eq_true] at h
  simp only [encodeArtifact, decodeArtifact, Record.join_cons, Record.join_nil,
    Record.bytes_append, Record.bytes_cons, Record.bytes_nil, List.append_assoc, List.nil_append,
    parse_readId, parse_readGen, parse_readEnum, parse_readStr, parse_readDigest,
    parse_contentRef_bind, h, parse_pure, ArtifactDescriptor.Acceptable, ite_and]

/-- What `read_authority_claim` demands of a claim. -/
abbrev AuthorityClaim.Acceptable (v : AuthorityClaim) : Prop :=
  v.compilation.isZero = false ∧ v.unit.isZero = false ∧ v.attempt.isZero = false ∧
    v.worker.isZero = false ∧ v.workerBoot.isZero = false ∧ v.lease.isZero = false

theorem parse_readAuthorityClaim (v : AuthorityClaim) (rest : Bytes)
    (h : (writeAuthorityClaim v).eachFits = true) :
    readAuthorityClaim.parse ((writeAuthorityClaim v).bytes ++ rest) =
      if v.Acceptable then some (v, rest) else none := by
  simp only [writeAuthorityClaim, Record.eachFits_cons, Bool.and_eq_true] at h
  simp only [writeAuthorityClaim, readAuthorityClaim, Record.bytes_cons, Record.bytes_nil,
    List.append_assoc, List.nil_append, parse_readDomain, parse_readId, parse_readGen,
    parse_readDigest, h, parse_pure, AuthorityClaim.Acceptable, ite_and]

end DistributedCompilation
