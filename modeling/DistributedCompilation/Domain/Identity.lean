import DistributedCompilation.Base.Canonical
import DistributedCompilation.Domain.Records

/-!
# Distributed Compilation — identity derivation

`model.cpp`, the pure half: the canonical records whose hashes are the
identities of toolchains, targets, policies, units and requests, and the
handles derived from them.

Each identity has its record (`…Record`) and its digest (`compute…`,
`derive…`); a caller that must not throw asks `writes` for the record first.
-/

namespace DistributedCompilation

variable [HashFunction]

/-- `handle_from_digest64`: the leading eight bytes, little endian. -/
def handleFromDigest64 (digest : Digest256) : UInt64 :=
  UInt64.ofNat (LittleEndian.decode (digest.bytes.take 8))

/-- `Id(mix64(handle_from_digest(...)))`. -/
def deriveHandle {tag : IdTag} (record : Record) : Id tag :=
  ⟨(mix64 (handleFromDigest64 record.hash)).toNat⟩

-- ---------------------------------------------------------------------------
-- Record fragments
-- ---------------------------------------------------------------------------

/-- The path is identity-bearing only when no digest could be established. -/
def writeBinaryIdentity (binary : BinaryIdentity) : Record := .join [
  [.enum binary.state, .digest binary.digest, .u64 binary.size, .str binary.versionString],
  if binary.state ≠ .known then [.boolean true, .str binary.path] else [.boolean false]]

def writeSpecField (field : SpecField) : Record := .join [
  [.str field.name, .enum field.kind],
  match field.kind with
  | .signed => [.i64 field.signedValue]
  | .unsigned => [.u64 field.unsignedValue]
  | .floating => [.f64 field.floatingValue]
  | .text => [.str field.textValue]
  | .boolean => [.boolean field.booleanValue]]

def writeDependencyEntry (entry : DependencyEntry) : Record :=
  .str entry.name :: .enum entry.kind :: writeContentRef entry.content

def writeAccelerator (accel : AcceleratorTarget) : Record :=
  [.enum accel.vendor, .str accel.architecture, .u32 accel.computeMajor, .u32 accel.computeMinor,
   .str accel.isa, .str accel.deviceRuntime]

def writeSdk (value : SdkComponent) : Record := [.str value.name, .str value.version]

def writePlugin (value : PluginIdentity) : Record :=
  [.str value.id, .str value.version, .digest value.digest]

def writePairs (pairs : List (Bytes × Bytes)) : Record :=
  writeList pairs fun kv => [.str kv.1, .str kv.2]

-- ---------------------------------------------------------------------------
-- Descriptors
-- ---------------------------------------------------------------------------

def dependencyEntryRecord (entry : DependencyEntry) : Record :=
  .domain (txt "dc.dependency-entry.v1") :: writeDependencyEntry entry

def computeDependencyEntryIdentity (entry : DependencyEntry) : Digest256 :=
  (dependencyEntryRecord entry).hash

def dependencySetRecord (set : DependencySet) : Record :=
  .domain (txt "dc.dependency-set.v1") :: writeList set.entries writeDependencyEntry

def computeDependencySetIdentity (set : DependencySet) : Digest256 := (dependencySetRecord set).hash

/-- The id is derived from the names and kinds only, so that a content change
to an existing member is observable as a generation change on the same id. -/
def deriveDependencySetId (set : DependencySet) : DependencySetId :=
  deriveHandle (.domain (txt "dc.dependency-set-id.v1") ::
    writeList set.entries fun entry => [.str entry.name, .enum entry.kind])

def deriveSourceId (logicalName : Bytes) : SourceId :=
  deriveHandle [.domain (txt "dc.source-id.v1"), .str logicalName]

def deriveSpecializationId (spec : SpecializationSpec) : SpecializationId :=
  deriveHandle (.domain (txt "dc.specialization-id.v1") ::
    writeList spec.fields fun field => [.str field.name, .enum field.kind])

def derivePolicyId (policy : CompilePolicy) : CompilePolicyId :=
  deriveHandle [.domain (txt "dc.policy-id.v1"), .str policy.profile]

def toolchainIdRecord (toolchain : ToolchainIdentity) : Record :=
  [.domain (txt "dc.toolchain-id.v1"), .enum toolchain.family, .str toolchain.versionString,
   .str toolchain.compiler.path]

def deriveToolchainId (toolchain : ToolchainIdentity) : ToolchainId :=
  deriveHandle (toolchainIdRecord toolchain)

def deriveTargetId (target : TargetIdentity) : TargetId :=
  deriveHandle [.domain (txt "dc.target-id.v1"), .str target.triple, .enum target.objectFormat,
    .enum target.accelerator.vendor, .str target.accelerator.architecture]

def specializationRecord (spec : SpecializationSpec) : Record :=
  .domain (txt "dc.specialization.v1") :: writeList spec.fields writeSpecField

def computeSpecializationIdentity (spec : SpecializationSpec) : Digest256 :=
  (specializationRecord spec).hash

def policyRecord (policy : CompilePolicy) : Record :=
  [.domain (txt "dc.policy.v1"), .str policy.profile, .enum policy.reproducibility,
   .enum policy.cache, .boolean policy.flagOrderSignificant, .boolean policy.requireExactGeneration,
   .boolean policy.negativeCacheEnabled, .u32 policy.negativeCacheMaxEntries,
   .boolean policy.allowSpeculativeDuplication, .u32 policy.maxAttemptsPerUnit,
   .boolean policy.requireTrustedWorkers, .boolean policy.requireProvableToolchain]

def computePolicyIdentity (policy : CompilePolicy) : Digest256 := (policyRecord policy).hash

def environmentRecord (env : EnvironmentContract) : Record :=
  .domain (txt "dc.environment.v1") :: .boolean env.deterministic ::
    .boolean env.inheritProcessEnvironment :: writePairs env.vars

def computeEnvironmentIdentity (env : EnvironmentContract) : Digest256 := (environmentRecord env).hash

def unitSourceRecord (source : UnitSource) : Record :=
  .domain (txt "dc.unit-source.v1") :: .str source.logicalName :: .enum source.format ::
    .str source.languageMode :: writeContentRef source.content

def computeUnitSourceIdentity (source : UnitSource) : Digest256 := (unitSourceRecord source).hash

def targetRecord (target : TargetIdentity) : Record := .join [
  [.domain (txt "dc.target.v1"), .enum target.os, .enum target.arch, .enum target.abi,
   .str target.triple, .enum target.objectFormat, .enum target.stdlib, .str target.runtimeAbi],
  writeAccelerator target.accelerator]

def computeTargetIdentity (target : TargetIdentity) : Digest256 := (targetRecord target).hash

def toolchainRecord (toolchain : ToolchainIdentity) : Record := .join [
  [.domain (txt "dc.toolchain.v1"), .enum toolchain.family, .str toolchain.versionString,
   .u32 toolchain.versionMajor, .u32 toolchain.versionMinor, .u32 toolchain.versionPatch],
  writeBinaryIdentity toolchain.compiler, writeBinaryIdentity toolchain.linker,
  writeBinaryIdentity toolchain.assembler, writeBinaryIdentity toolchain.runtimeLibrary,
  writeList toolchain.sdk writeSdk, writeList toolchain.plugins writePlugin,
  writeStringList toolchain.targetLibraries, writePairs toolchain.configuration,
  [.enum toolchain.evidence]]

def computeToolchainIdentity (toolchain : ToolchainIdentity) : Digest256 :=
  (toolchainRecord toolchain).hash

def deriveCompilationId (unitIdentity : Digest256) : CompilationId :=
  deriveHandle [.domain (txt "dc.compilation-id.v1"), .digest unitIdentity]

def deriveUnitHandle (unitIdentity : Digest256) : CompilationUnitId :=
  deriveHandle [.domain (txt "dc.unit-handle.v1"), .digest unitIdentity]

-- ---------------------------------------------------------------------------
-- Units and requests
-- ---------------------------------------------------------------------------

/-- Fan-in identity binds the identities of the child units. -/
def writeUnitIdentityBody (request : CompilationRequest) (unit : CompilationUnitSpec) : Record := .join [
  [.digest request.toolchain.identityDigest, .digest request.target.identityDigest,
   .digest request.specialization.identityDigest, .digest request.policy.identityDigest,
   .digest request.dependencies.identityDigest,
   .digest (computeEnvironmentIdentity request.environment), .enum unit.kind, .str unit.logicalName,
   .enum unit.outputKind],
  writeList unit.sources fun source =>
    .str source.logicalName :: .enum source.format :: .str source.languageMode ::
      writeContentRef source.content,
  writeList unit.dependencies writeDependencyEntry,
  writeStringList unit.flags,
  writeStringList request.flags,
  writeList unit.childUnits fun child =>
    [.u32 child, .digest (((request.findUnit child).map (·.identityDigest)).getD .zero)],
  [.boolean unit.mandatory]]

def unitRecord (request : CompilationRequest) (unit : CompilationUnitSpec) : Record :=
  .domain (txt "dc.unit.v1") :: writeUnitIdentityBody request unit

def deriveUnitIdentity (request : CompilationRequest) (unit : CompilationUnitSpec) : Digest256 :=
  (unitRecord request unit).hash

def requestRecord (request : CompilationRequest) : Record := .join [
  [.domain (txt "dc.request.v1"), .digest request.toolchain.identityDigest,
   .digest request.target.identityDigest, .digest request.specialization.identityDigest,
   .digest request.policy.identityDigest, .digest request.dependencies.identityDigest,
   .digest (computeEnvironmentIdentity request.environment)],
  writeStringList request.flags,
  [.digest request.authorityGeneration, .boolean request.validation.requireFormatCheck,
   .boolean request.validation.requireDigestCheck, .boolean request.validation.requireTargetMetadata,
   .boolean request.validation.requireDependencyMetadata,
   .boolean request.validation.requireSmokeTest, .str request.validation.smokeExpectedStdout,
   .u32 request.validation.smokeTimeoutMs],
  writeList request.units fun unit => [.digest unit.identityDigest]]

def deriveRequestIdentity (request : CompilationRequest) : Digest256 := (requestRecord request).hash

/-- What `submit` binds into `source_identity`. -/
def unitSourceIdentityRecord (unit : CompilationUnitSpec) : Record := .join [
  [.domain (txt "dc.unit-source-identity.v1"), .digest unit.identityDigest],
  writeList unit.sources fun source => [.str source.logicalName, .digest source.content.digest],
  writeList unit.dependencies fun dep => [.str dep.name, .digest dep.content.digest]]

-- ---------------------------------------------------------------------------
-- Worker capabilities
-- ---------------------------------------------------------------------------

def capabilityRecord (caps : WorkerCapabilities) : Record := .join [
  [.domain (txt "dc.capabilities.v1")],
  writeList caps.toolchains fun toolchain => [.digest toolchain.identityDigest],
  writeList caps.targets fun target => [.digest target.identityDigest],
  writeList caps.inputFormats fun format => [.enum format],
  writeList caps.plugins writePlugin,
  writeList caps.sdks writeSdk,
  [.u32 caps.logicalCores, .u64 caps.memoryBytes, .u64 caps.scratchBytes,
   .u64 caps.maxArtifactBytes, .boolean caps.filesystemIsolation, .boolean caps.sandbox,
   .boolean caps.deterministicBuild, .boolean caps.remoteCacheAccess,
   .boolean caps.artifactStoreAccess, .boolean caps.trusted, .enum caps.evidence]]

def computeCapabilityIdentity (caps : WorkerCapabilities) : Digest256 := (capabilityRecord caps).hash

/-- `toolchain_identity_is_provable`. -/
def toolchainIdentityIsProvable (toolchain : ToolchainIdentity) : Bool :=
  toolchain.evidence == .real && toolchain.compiler.state == .known && toolchain.family != .unknown

end DistributedCompilation
