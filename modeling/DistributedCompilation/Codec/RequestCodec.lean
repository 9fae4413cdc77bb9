import DistributedCompilation.Domain.Canonicalize

/-!
# Distributed Compilation — request codec

`codec.cpp` from toolchains to requests and worker capabilities. Identity
digests are never trusted from the wire or from disk: every decoder that reads
one canonicalizes what it read and compares.
-/

namespace DistributedCompilation

open Reader

-- ---------------------------------------------------------------------------
-- Encoders
-- ---------------------------------------------------------------------------

def encodeBinaryIdentity (value : BinaryIdentity) : Record :=
  [.enum value.state, .digest value.digest, .u64 value.size, .str value.path,
   .str value.versionString]

def encodeToolchain (value : ToolchainIdentity) : Record := .join [
  [.id value.id, .gen value.generation, .enum value.family, .str value.versionString,
   .u32 value.versionMajor, .u32 value.versionMinor, .u32 value.versionPatch],
  encodeBinaryIdentity value.compiler, encodeBinaryIdentity value.linker,
  encodeBinaryIdentity value.assembler, encodeBinaryIdentity value.runtimeLibrary,
  writeList value.sdk writeSdk, writeList value.plugins writePlugin,
  writeStringList value.targetLibraries, writePairs value.configuration,
  [.enum value.evidence, .id value.evidenceId, .gen value.evidenceGeneration,
   .digest value.identityDigest]]

def encodeTarget (value : TargetIdentity) : Record :=
  [.id value.id, .gen value.generation, .enum value.os, .enum value.arch, .enum value.abi,
   .str value.triple, .enum value.objectFormat, .enum value.stdlib, .str value.runtimeAbi,
   .enum value.accelerator.vendor, .str value.accelerator.architecture,
   .u32 value.accelerator.computeMajor, .u32 value.accelerator.computeMinor,
   .str value.accelerator.isa, .str value.accelerator.deviceRuntime, .enum value.evidence,
   .digest value.identityDigest]

def encodeSpecField (value : SpecField) : Record :=
  [.str value.name, .enum value.kind, .i64 value.signedValue, .u64 value.unsignedValue,
   .f64 value.floatingValue, .str value.textValue, .boolean value.booleanValue]

def encodeSpecialization (value : SpecializationSpec) : Record := .join [
  [.id value.id, .gen value.generation], writeList value.fields encodeSpecField,
  [.digest value.identityDigest]]

def encodeDependencyEntry (value : DependencyEntry) : Record := .join [
  [.str value.name, .enum value.kind], writeContentRef value.content,
  [.digest value.identityDigest]]

def encodeDependencySet (value : DependencySet) : Record := .join [
  [.id value.id, .gen value.generation], writeList value.entries encodeDependencyEntry,
  [.digest value.identityDigest]]

def encodeEnvironment (value : EnvironmentContract) : Record := .join [
  writePairs value.vars,
  [.boolean value.deterministic, .boolean value.inheritProcessEnvironment]]

def encodeValidationRequirements (value : ValidationRequirements) : Record :=
  [.boolean value.requireFormatCheck, .boolean value.requireDigestCheck,
   .boolean value.requireTargetMetadata, .boolean value.requireDependencyMetadata,
   .boolean value.requireSmokeTest, .str value.smokeExpectedStdout, .u32 value.smokeTimeoutMs]

def encodePolicy (value : CompilePolicy) : Record :=
  [.id value.id, .gen value.generation, .str value.profile, .enum value.reproducibility,
   .enum value.cache, .boolean value.flagOrderSignificant, .boolean value.requireExactGeneration,
   .boolean value.negativeCacheEnabled, .u32 value.negativeCacheMaxEntries,
   .boolean value.allowSpeculativeDuplication, .u32 value.maxAttemptsPerUnit,
   .boolean value.requireTrustedWorkers, .boolean value.requireProvableToolchain,
   .digest value.identityDigest]

/-- The identity digest of a source is not carried. -/
def encodeUnitSource (value : UnitSource) : Record :=
  .str value.logicalName :: .enum value.format :: .str value.languageMode ::
    writeContentRef value.content

def encodeUnitSpec (value : CompilationUnitSpec) : Record := .join [
  [.u32 value.index, .str value.logicalName, .enum value.kind],
  writeList value.sources encodeUnitSource,
  writeList value.dependencies encodeDependencyEntry,
  writeStringList value.flags,
  [.enum value.outputKind],
  writeList value.childUnits fun child => [.u32 child],
  [.boolean value.mandatory, .digest value.identityDigest]]

def encodeRequest (value : CompilationRequest) : Record := .join [
  [.id value.requestId, .gen value.requestGeneration],
  encodeToolchain value.toolchain, encodeTarget value.target,
  encodeSpecialization value.specialization, encodePolicy value.policy,
  encodeDependencySet value.dependencies, encodeEnvironment value.environment,
  writeStringList value.flags, encodeValidationRequirements value.validation,
  writeList value.units encodeUnitSpec,
  [.digest value.authorityGeneration, .digest value.requestIdentity]]

def encodeCapabilities (value : WorkerCapabilities) : Record := .join [
  writeList value.toolchains encodeToolchain, writeList value.targets encodeTarget,
  writeList value.inputFormats fun format => [.enum format],
  writeList value.plugins writePlugin, writeList value.sdks writeSdk,
  [.u32 value.logicalCores, .u64 value.memoryBytes, .u64 value.scratchBytes,
   .u64 value.maxArtifactBytes, .boolean value.filesystemIsolation, .boolean value.sandbox,
   .boolean value.deterministicBuild, .boolean value.remoteCacheAccess,
   .boolean value.artifactStoreAccess, .boolean value.trusted, .enum value.evidence,
   .str value.host, .digest value.digest]]

-- ---------------------------------------------------------------------------
-- Decoders
-- ---------------------------------------------------------------------------

def readSdk : Reader SdkComponent := do
  let name ← readStr
  let version ← readStr
  pure { name, version }

def readPlugin : Reader PluginIdentity := do
  let id ← readStr
  let version ← readStr
  let digest ← readDigest
  pure { id, version, digest }

def readPair : Reader (Bytes × Bytes) := do
  let first ← readStr
  let second ← readStr
  pure (first, second)

def decodeBinaryIdentity : Reader BinaryIdentity := do
  let state : BinaryIdState ← readEnum
  let digest ← readDigest
  let size ← readU64
  let path ← readStr
  let versionString ← readStr
  if state = .known ∧ digest.isZero = true then
    fail .malformed (txt "binary identity claims KNOWN with a zero digest")
  else pure { state, digest, size, path, versionString }

section Checked

variable [HashFunction]

def decodeToolchain : Reader ToolchainIdentity := do
  let id ← readId
  let generation ← readGen
  let family ← readEnum
  let versionString ← readStr
  let versionMajor ← readU32
  let versionMinor ← readU32
  let versionPatch ← readU32
  let compiler ← decodeBinaryIdentity
  let linker ← decodeBinaryIdentity
  let assembler ← decodeBinaryIdentity
  let runtimeLibrary ← decodeBinaryIdentity
  let sdk ← readItems readSdk
  let plugins ← readItems readPlugin
  let targetLibraries ← readStringList
  let configuration ← readItems readPair
  let evidence ← readEnum
  let evidenceId ← readOptionalId
  let evidenceGeneration ← readGen
  let identityDigest ← readDigest
  let value := canonicalizeToolchain {
    id, generation, family, versionString, versionMajor, versionMinor, versionPatch, compiler,
    linker, assembler, runtimeLibrary, sdk, plugins, targetLibraries, configuration, evidence,
    evidenceId, evidenceGeneration, identityDigest }
  if identityDigest = value.identityDigest then pure value
  else fail .integrityFailure (txt "toolchain identity digest does not match its contents")

def decodeTarget : Reader TargetIdentity := do
  let id ← readId
  let generation ← readGen
  let os ← readEnum
  let arch ← readEnum
  let abi ← readEnum
  let triple ← readStr
  let objectFormat ← readEnum
  let stdlib ← readEnum
  let runtimeAbi ← readStr
  let vendor ← readEnum
  let architecture ← readStr
  let computeMajor ← readU32
  let computeMinor ← readU32
  let isa ← readStr
  let deviceRuntime ← readStr
  let evidence ← readEnum
  let identityDigest ← readDigest
  let value : TargetIdentity := {
    id, generation, os, arch, abi, triple, objectFormat, stdlib, runtimeAbi, evidence,
    identityDigest
    accelerator := { vendor, architecture, computeMajor, computeMinor, isa, deviceRuntime } }
  let checked := { value with
    id := deriveTargetId value, identityDigest := computeTargetIdentity value }
  if identityDigest = checked.identityDigest ∧ id = checked.id then pure checked
  else fail .integrityFailure (txt "target identity does not match its contents")

def decodeSpecField : Reader SpecField := do
  let name ← readStr
  let kind ← readEnum
  let signedValue ← readI64
  let unsignedValue ← readU64
  let floatingValue ← readF64
  let textValue ← readStr
  let booleanValue ← readBool
  pure { name, kind, signedValue, unsignedValue, floatingValue, textValue, booleanValue }

def decodeSpecialization : Reader SpecializationSpec := do
  let id ← readId
  let generation ← readGen
  let fields ← readItems decodeSpecField
  let identityDigest ← readDigest
  match canonicalizeSpecialization { id, generation, fields, identityDigest } with
  | .error (.status s) => fail .malformed (txt "specialization rejected: " ++ s.describe)
  | .error .lengthError => fail .malformed (txt "specialization rejected: ")
  | .ok value =>
    if identityDigest = value.identityDigest then pure value
    else fail .integrityFailure (txt "specialization identity digest does not match its contents")

def decodeDependencyEntry : Reader DependencyEntry := do
  let name ← readStr
  let kind ← readEnum
  let content ← decodeContentRef
  let identityDigest ← readDigest
  let value : DependencyEntry := { name, kind, content, identityDigest }
  if computeDependencyEntryIdentity value = value.identityDigest then pure value
  else fail .integrityFailure (txt "dependency entry identity digest mismatch")

def decodeDependencySet : Reader DependencySet := do
  let id ← readId
  let generation ← readGen
  let entries ← readItems decodeDependencyEntry
  let identityDigest ← readDigest
  let value := canonicalizeDependencySet { id, generation, entries, identityDigest }
  if identityDigest = value.identityDigest then pure value
  else fail .integrityFailure (txt "dependency set identity digest mismatch")

def decodeEnvironment : Reader EnvironmentContract := do
  let vars ← readItems readPair
  let deterministic ← readBool
  let inheritProcessEnvironment ← readBool
  pure (canonicalizeEnvironment { vars, deterministic, inheritProcessEnvironment })

def decodeValidationRequirements : Reader ValidationRequirements := do
  let requireFormatCheck ← readBool
  let requireDigestCheck ← readBool
  let requireTargetMetadata ← readBool
  let requireDependencyMetadata ← readBool
  let requireSmokeTest ← readBool
  let smokeExpectedStdout ← readStr
  let smokeTimeoutMs ← readU32
  if smokeTimeoutMs = 0 ∨ 3600000 < smokeTimeoutMs then
    fail .limitExceeded (txt "smoke test timeout out of bounds")
  else pure {
    requireFormatCheck, requireDigestCheck, requireTargetMetadata, requireDependencyMetadata,
    requireSmokeTest, smokeExpectedStdout, smokeTimeoutMs }

def decodePolicy : Reader CompilePolicy := do
  let id ← readId
  let generation ← readGen
  let profile ← readStr
  let reproducibility ← readEnum
  let cache ← readEnum
  let flagOrderSignificant ← readBool
  let requireExactGeneration ← readBool
  let negativeCacheEnabled ← readBool
  let negativeCacheMaxEntries ← readU32
  let allowSpeculativeDuplication ← readBool
  let maxAttemptsPerUnit ← readU32
  let requireTrustedWorkers ← readBool
  let requireProvableToolchain ← readBool
  let identityDigest ← readDigest
  let value : CompilePolicy := {
    id, generation, profile, reproducibility, cache, flagOrderSignificant, requireExactGeneration,
    negativeCacheEnabled, negativeCacheMaxEntries, allowSpeculativeDuplication, maxAttemptsPerUnit,
    requireTrustedWorkers, requireProvableToolchain, identityDigest }
  if maxAttemptsPerUnit = 0 ∨ 64 < maxAttemptsPerUnit then
    fail .limitExceeded (txt "max_attempts_per_unit out of bounds")
  else if 4096 < negativeCacheMaxEntries then
    fail .limitExceeded (txt "negative cache bound out of range")
  else
    let checked := { value with
      id := derivePolicyId value, identityDigest := computePolicyIdentity value }
    if identityDigest = checked.identityDigest then pure checked
    else fail .integrityFailure (txt "policy identity digest mismatch")

def decodeUnitSource : Reader UnitSource := do
  let logicalName ← readStr
  let format ← readEnum
  let languageMode ← readStr
  let content ← decodeContentRef
  pure { logicalName, format, languageMode, content }

def decodeUnitSpec : Reader CompilationUnitSpec := do
  let index ← readU32
  let logicalName ← readStr
  let kind ← readEnum
  let sources ← readItems decodeUnitSource
  let dependencies ← readItems decodeDependencyEntry
  let flags ← readStringList
  let outputKind ← readEnum
  let childUnits ← readItems readU32
  let mandatory ← readBool
  let identityDigest ← readDigest
  pure {
    index, logicalName, kind, sources, dependencies, flags, outputKind, childUnits, mandatory,
    identityDigest }

/-- What the decoder does with the fields it read: canonicalize again and
compare every claimed identity. -/
def recheckRequest (value : CompilationRequest) : Reader CompilationRequest :=
  match canonicalize value with
  | .error (.status s) =>
    fail .malformed (txt "request rejected during canonicalization: " ++ s.describe)
  | .error .lengthError => fail .malformed (txt "request rejected during canonicalization: ")
  | .ok checked =>
    if value.requestIdentity = checked.requestIdentity then
      if value.units.map (·.identityDigest) = checked.units.map (·.identityDigest) then pure checked
      else fail .integrityFailure (txt "unit identity digest does not match its contents")
    else fail .integrityFailure (txt "request identity digest does not match its contents")

def decodeRequest : Reader CompilationRequest := do
  let requestId ← readId
  let requestGeneration ← readGen
  let toolchain ← decodeToolchain
  let target ← decodeTarget
  let specialization ← decodeSpecialization
  let policy ← decodePolicy
  let dependencies ← decodeDependencySet
  let environment ← decodeEnvironment
  let flags ← readStringList
  let validation ← decodeValidationRequirements
  let units ← readItems decodeUnitSpec
  let authorityGeneration ← readDigest
  let requestIdentity ← readDigest
  recheckRequest {
    requestId, requestGeneration, toolchain, target, specialization, policy, dependencies,
    environment, flags, validation, units, authorityGeneration, requestIdentity }

def decodeCapabilities : Reader WorkerCapabilities := do
  let toolchains ← readItems decodeToolchain
  let targets ← readItems decodeTarget
  let inputFormats ← readItems readEnum
  let plugins ← readItems readPlugin
  let sdks ← readItems readSdk
  let logicalCores ← readU32
  let memoryBytes ← readU64
  let scratchBytes ← readU64
  let maxArtifactBytes ← readU64
  let filesystemIsolation ← readBool
  let sandbox ← readBool
  let deterministicBuild ← readBool
  let remoteCacheAccess ← readBool
  let artifactStoreAccess ← readBool
  let trusted ← readBool
  let evidence ← readEnum
  let host ← readStr
  let digest ← readDigest
  let value := canonicalizeCapabilities {
    toolchains, targets, inputFormats, plugins, sdks, logicalCores, memoryBytes, scratchBytes,
    maxArtifactBytes, filesystemIsolation, sandbox, deterministicBuild, remoteCacheAccess,
    artifactStoreAccess, trusted, evidence, host, digest }
  if digest = value.digest then pure value
  else fail .integrityFailure (txt "capability digest does not match its contents")

end Checked

end DistributedCompilation
