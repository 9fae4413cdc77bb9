import DistributedCompilation.Base.Types

/-!
# Distributed Compilation — compilation requests

The request half of `model.hpp`: the enumerations with their wire codes and
the records a client submits. Every enumeration of the source is declared over
`std::uint8_t` with consecutive values from zero, so its code is the position
of the value in the declaration (`WireEnum`).

A `double` is kept as its bit pattern: the program only ever writes it with
`CanonicalWriter::f64`.
-/

namespace DistributedCompilation

/-- An enumeration with underlying type `std::uint8_t`: its values in
declaration order. -/
class WireEnum (α : Type) [DecidableEq α] where
  values : List α
  complete : ∀ a, a ∈ values
  small : values.length ≤ 256

namespace WireEnum

variable {α : Type} [DecidableEq α] [WireEnum α]

/-- The underlying value. -/
def code (a : α) : UInt8 := UInt8.ofNat ((values (α := α)).idxOf a)

/-- The checked cast of a decoder: none of a value past the last enumerator. -/
def ofCode (raw : UInt8) : Option α := (values (α := α))[raw.toNat]?

@[simp] theorem ofCode_code (a : α) : ofCode (code a) = some a := by
  have hmem : a ∈ values (α := α) := complete a
  have hlt : (values (α := α)).idxOf a < (values (α := α)).length := List.idxOf_lt_length_of_mem hmem
  have hsmall := small (α := α)
  have hnat : (code a).toNat = (values (α := α)).idxOf a := by
    simp only [code, UInt8.toNat_ofNat']
    omega
  rw [ofCode, hnat, List.getElem?_eq_getElem hlt, List.getElem_idxOf hlt]

end WireEnum

-- ---------------------------------------------------------------------------
-- Enumerations
-- ---------------------------------------------------------------------------

inductive EvidenceClass | unknown | real | synthetic | unsupported
deriving DecidableEq, Inhabited

inductive InputFormat
  | unknown | source | preprocessedSource | llvmIr | ptx | spirV | vendorIr | object | cubin
  | assembly | other
deriving DecidableEq, Inhabited

inductive DependencyKind
  | header | module | generatedCode | library | deviceLibrary | runtimeLibrary | compilerPlugin
  | configuration | modelMetadata | toolchainFile | other
deriving DecidableEq, Inhabited

inductive OsKind | unknown | windows | linux | macOs | bsd | bareMetal
deriving DecidableEq, Inhabited

inductive ArchKind | unknown | x86_64 | aarch64 | x86 | arm32 | riscV64
deriving DecidableEq, Inhabited

inductive AbiKind | unknown | msvc | itanium | gnu
deriving DecidableEq, Inhabited

inductive ObjectFormat | unknown | coff | elf | machO | ptx | cubin | fatbin
deriving DecidableEq, Inhabited

inductive AcceleratorVendor | none | nvidia | amd | intel | unknown
deriving DecidableEq, Inhabited

inductive StdlibKind | unknown | msvcStl | libstdcxx | libcxx | none
deriving DecidableEq, Inhabited

inductive CompilerFamily
  | unknown | msvc | clang | gnu | nvidiaNvcc | syntheticRocm | syntheticLevelZero
  | syntheticGeneric | msvcLinker
deriving DecidableEq, Inhabited

inductive BinaryIdState | unknown | known | unavailable
deriving DecidableEq, Inhabited

inductive SpecValueKind | signed | unsigned | floating | text | boolean
deriving DecidableEq, Inhabited

inductive ReproducibilityRequirement | required | preferred | notRequired
deriving DecidableEq, Inhabited

inductive CachePolicy | readWrite | readOnly | bypass
deriving DecidableEq, Inhabited

inductive OutputKind
  | executable | object | staticLibrary | dynamicLibrary | cubin | ptx | assembly
  | preprocessedSource
deriving DecidableEq, Inhabited

inductive UnitKind | compile | link
deriving DecidableEq, Inhabited

instance : WireEnum EvidenceClass where
  values := [.unknown, .real, .synthetic, .unsupported]
  complete a := by cases a <;> decide
  small := by decide

instance : WireEnum InputFormat where
  values := [.unknown, .source, .preprocessedSource, .llvmIr, .ptx, .spirV, .vendorIr, .object,
    .cubin, .assembly, .other]
  complete a := by cases a <;> decide
  small := by decide

instance : WireEnum DependencyKind where
  values := [.header, .module, .generatedCode, .library, .deviceLibrary, .runtimeLibrary,
    .compilerPlugin, .configuration, .modelMetadata, .toolchainFile, .other]
  complete a := by cases a <;> decide
  small := by decide

instance : WireEnum OsKind where
  values := [.unknown, .windows, .linux, .macOs, .bsd, .bareMetal]
  complete a := by cases a <;> decide
  small := by decide

instance : WireEnum ArchKind where
  values := [.unknown, .x86_64, .aarch64, .x86, .arm32, .riscV64]
  complete a := by cases a <;> decide
  small := by decide

instance : WireEnum AbiKind where
  values := [.unknown, .msvc, .itanium, .gnu]
  complete a := by cases a <;> decide
  small := by decide

instance : WireEnum ObjectFormat where
  values := [.unknown, .coff, .elf, .machO, .ptx, .cubin, .fatbin]
  complete a := by cases a <;> decide
  small := by decide

instance : WireEnum AcceleratorVendor where
  values := [.none, .nvidia, .amd, .intel, .unknown]
  complete a := by cases a <;> decide
  small := by decide

instance : WireEnum StdlibKind where
  values := [.unknown, .msvcStl, .libstdcxx, .libcxx, .none]
  complete a := by cases a <;> decide
  small := by decide

instance : WireEnum CompilerFamily where
  values := [.unknown, .msvc, .clang, .gnu, .nvidiaNvcc, .syntheticRocm, .syntheticLevelZero,
    .syntheticGeneric, .msvcLinker]
  complete a := by cases a <;> decide
  small := by decide

instance : WireEnum BinaryIdState where
  values := [.unknown, .known, .unavailable]
  complete a := by cases a <;> decide
  small := by decide

instance : WireEnum SpecValueKind where
  values := [.signed, .unsigned, .floating, .text, .boolean]
  complete a := by cases a <;> decide
  small := by decide

instance : WireEnum ReproducibilityRequirement where
  values := [.required, .preferred, .notRequired]
  complete a := by cases a <;> decide
  small := by decide

instance : WireEnum CachePolicy where
  values := [.readWrite, .readOnly, .bypass]
  complete a := by cases a <;> decide
  small := by decide

instance : WireEnum OutputKind where
  values := [.executable, .object, .staticLibrary, .dynamicLibrary, .cubin, .ptx, .assembly,
    .preprocessedSource]
  complete a := by cases a <;> decide
  small := by decide

instance : WireEnum UnitKind where
  values := [.compile, .link]
  complete a := by cases a <;> decide
  small := by decide

-- ---------------------------------------------------------------------------
-- Request records
-- ---------------------------------------------------------------------------

structure ContentRef where
  digest : Digest256 := default
  size : UInt64 := 0
deriving DecidableEq, Inhabited

/-- A content-addressed blob of a submission bundle. -/
structure Blob where
  digest : Digest256 := default
  bytes : Bytes
deriving DecidableEq

structure DependencyEntry where
  name : Bytes := []
  kind : DependencyKind := .other
  content : ContentRef := {}
  identityDigest : Digest256 := default
deriving DecidableEq, Inhabited

structure DependencySet where
  id : DependencySetId := {}
  generation : DependencyGeneration := {}
  entries : List DependencyEntry := []
  identityDigest : Digest256 := default
deriving DecidableEq, Inhabited

structure AcceleratorTarget where
  vendor : AcceleratorVendor := .none
  architecture : Bytes := []
  computeMajor : UInt32 := 0
  computeMinor : UInt32 := 0
  isa : Bytes := []
  deviceRuntime : Bytes := []
deriving DecidableEq, Inhabited

structure TargetIdentity where
  id : TargetId := {}
  generation : TargetGeneration := {}
  os : OsKind := .unknown
  arch : ArchKind := .unknown
  abi : AbiKind := .unknown
  triple : Bytes := []
  objectFormat : ObjectFormat := .unknown
  stdlib : StdlibKind := .unknown
  runtimeAbi : Bytes := []
  accelerator : AcceleratorTarget := {}
  evidence : EvidenceClass := .unknown
  identityDigest : Digest256 := default
deriving DecidableEq, Inhabited

structure BinaryIdentity where
  state : BinaryIdState := .unknown
  digest : Digest256 := default
  size : UInt64 := 0
  path : Bytes := []
  versionString : Bytes := []
deriving DecidableEq, Inhabited

structure PluginIdentity where
  id : Bytes := []
  version : Bytes := []
  digest : Digest256 := default
deriving DecidableEq, Inhabited

structure SdkComponent where
  name : Bytes := []
  version : Bytes := []
  root : Bytes := []
deriving DecidableEq, Inhabited

structure ToolchainIdentity where
  id : ToolchainId := {}
  generation : ToolchainGeneration := {}
  family : CompilerFamily := .unknown
  versionString : Bytes := []
  versionMajor : UInt32 := 0
  versionMinor : UInt32 := 0
  versionPatch : UInt32 := 0
  compiler : BinaryIdentity := {}
  linker : BinaryIdentity := {}
  assembler : BinaryIdentity := {}
  runtimeLibrary : BinaryIdentity := {}
  sdk : List SdkComponent := []
  plugins : List PluginIdentity := []
  targetLibraries : List Bytes := []
  configuration : List (Bytes × Bytes) := []
  evidence : EvidenceClass := .unknown
  evidenceId : EvidenceId := {}
  evidenceGeneration : EvidenceGeneration := {}
  identityDigest : Digest256 := default
deriving DecidableEq, Inhabited

structure SpecField where
  name : Bytes := []
  kind : SpecValueKind := .signed
  signedValue : Int64 := 0
  unsignedValue : UInt64 := 0
  floatingValue : UInt64 := 0
  booleanValue : Bool := false
  textValue : Bytes := []
deriving DecidableEq, Inhabited

structure SpecializationSpec where
  id : SpecializationId := {}
  generation : SpecializationGeneration := {}
  fields : List SpecField := []
  identityDigest : Digest256 := default
deriving DecidableEq, Inhabited

structure ValidationRequirements where
  requireFormatCheck : Bool := true
  requireDigestCheck : Bool := true
  requireTargetMetadata : Bool := true
  requireDependencyMetadata : Bool := false
  requireSmokeTest : Bool := false
  smokeExpectedStdout : Bytes := []
  smokeTimeoutMs : UInt32 := 30000
deriving DecidableEq, Inhabited

structure CompilePolicy where
  id : CompilePolicyId := {}
  generation : CompilePolicyGeneration := {}
  profile : Bytes := txt "default"
  reproducibility : ReproducibilityRequirement := .preferred
  cache : CachePolicy := .readWrite
  flagOrderSignificant : Bool := true
  requireExactGeneration : Bool := false
  negativeCacheEnabled : Bool := false
  negativeCacheMaxEntries : UInt32 := 64
  allowSpeculativeDuplication : Bool := false
  maxAttemptsPerUnit : UInt32 := 3
  requireTrustedWorkers : Bool := false
  requireProvableToolchain : Bool := true
  identityDigest : Digest256 := default
deriving DecidableEq, Inhabited

structure EnvironmentContract where
  vars : List (Bytes × Bytes) := []
  deterministic : Bool := true
  inheritProcessEnvironment : Bool := false
deriving DecidableEq, Inhabited

structure UnitSource where
  logicalName : Bytes := []
  format : InputFormat := .unknown
  languageMode : Bytes := []
  content : ContentRef := {}
  identityDigest : Digest256 := default
deriving DecidableEq, Inhabited

structure CompilationUnitSpec where
  index : UInt32 := 0
  logicalName : Bytes := []
  kind : UnitKind := .compile
  sources : List UnitSource := []
  dependencies : List DependencyEntry := []
  flags : List Bytes := []
  outputKind : OutputKind := .object
  childUnits : List UInt32 := []
  mandatory : Bool := true
  identityDigest : Digest256 := default
deriving DecidableEq, Inhabited

structure CompilationRequest where
  requestId : RequestId := {}
  requestGeneration : RequestGeneration := {}
  toolchain : ToolchainIdentity := {}
  target : TargetIdentity := {}
  specialization : SpecializationSpec := {}
  policy : CompilePolicy := {}
  dependencies : DependencySet := {}
  environment : EnvironmentContract := {}
  flags : List Bytes := []
  validation : ValidationRequirements := {}
  units : List CompilationUnitSpec := []
  authorityGeneration : Digest256 := default
  requestIdentity : Digest256 := default
deriving DecidableEq, Inhabited

/-- `CompilationRequest::find_unit`. -/
def CompilationRequest.findUnit (request : CompilationRequest) (index : UInt32) :
    Option CompilationUnitSpec :=
  request.units.find? (·.index == index)

end DistributedCompilation
