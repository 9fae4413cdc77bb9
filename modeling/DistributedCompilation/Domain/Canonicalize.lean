import DistributedCompilation.Domain.Identity
import DistributedCompilation.Lib.Sorting

/-!
# Distributed Compilation — canonicalization

`canonicalize` of `model.cpp` and `runtime.cpp`. The functions without a status
are total; the ones of `Except Fault` refuse a request with the source's status
or leave with the writer's exception, in the order of the source.

`std::sort` leaves the order of elements that compare equal open; the model
keeps the order they came in.
-/

namespace DistributedCompilation

variable [HashFunction]

-- ---------------------------------------------------------------------------
-- Text
-- ---------------------------------------------------------------------------

/-- `std::isspace` in the C locale. -/
def isSpace (c : UInt8) : Bool := c == 32 || (9 ≤ c && c ≤ 13)

def trim (text : Bytes) : Bytes :=
  ((text.dropWhile isSpace).reverse.dropWhile isSpace).reverse

def containsControl (text : Bytes) : Bool := text.any fun c => (c < 32 && c != 9) || c == 127

/-- `std::tolower` in the C locale. -/
def toLower (c : UInt8) : UInt8 := if 65 ≤ c && c ≤ 90 then c + 32 else c

/-- The text from the last `.` on, when there is one. -/
def extension? (name : Bytes) : Option Bytes :=
  if name.contains 46 then some (46 :: (name.reverse.takeWhile (· != 46)).reverse) else none

def inputFormatFromExtension (name : Bytes) : InputFormat :=
  match extension? name with
  | none => .unknown
  | some raw =>
    let ext := raw.map toLower
    if ext ∈ [txt ".cpp", txt ".cc", txt ".cxx", txt ".c"] then .source
    else if ext = txt ".cu" then .source
    else if ext ∈ [txt ".i", txt ".ii"] then .preprocessedSource
    else if ext = txt ".ll" then .llvmIr
    else if ext = txt ".bc" then .llvmIr
    else if ext = txt ".ptx" then .ptx
    else if ext = txt ".spv" then .spirV
    else if ext ∈ [txt ".o", txt ".obj"] then .object
    else if ext = txt ".cubin" then .cubin
    else if ext ∈ [txt ".s", txt ".asm"] then .assembly
    else .unknown

-- ---------------------------------------------------------------------------
-- Comparisons
-- ---------------------------------------------------------------------------

def compareSdk (a b : SdkComponent) : Ordering := compare a.name b.name

def comparePlugin (a b : PluginIdentity) : Ordering := compare a.id b.id

def compareConfig (a b : Bytes × Bytes) : Ordering := compare a.1 b.1

def compareSource (a b : UnitSource) : Ordering := compare a.logicalName b.logicalName

def compareDependency (a b : DependencyEntry) : Ordering :=
  (compare (WireEnum.code a.kind) (WireEnum.code b.kind)).then <|
    (compare a.name b.name).then <|
    (compare a.content.digest b.content.digest).then <| compare a.content.size b.content.size

/-- The first name of a sorted list that its predecessor already carries. -/
def duplicateName? {α : Type} (name : α → Bytes) : List α → Option Bytes
  | a :: b :: rest => if name b = name a then some (name b) else duplicateName? name (b :: rest)
  | _ => none

-- ---------------------------------------------------------------------------
-- Descriptors
-- ---------------------------------------------------------------------------

def canonicalizeSpecField (field : SpecField) : Except Fault SpecField := do
  let name := trim field.name
  if name.isEmpty then refuse .invalidArgument (txt "empty specialization field name")
  else if containsControl name then
    refuse .invalidArgument (txt "control character in specialization field name")
  else pure { field with name }

def canonicalizeSpecialization (spec : SpecializationSpec) : Except Fault SpecializationSpec := do
  let fields := sortBy (fun a b => compare a.name b.name) spec.fields
  match duplicateName? (·.name) fields with
  | some name => refuse .duplicate (txt "duplicate specialization field: " ++ name)
  | none =>
    let fields ← fields.mapM canonicalizeSpecField
    let spec := { spec with fields }
    writes (specializationRecord spec)
    pure { spec with
      id := deriveSpecializationId spec
      identityDigest := computeSpecializationIdentity spec }

def canonicalizeDependencySet (set : DependencySet) : DependencySet :=
  let entries := uniqueBy (fun a b => a.name == b.name && a.kind == b.kind &&
      a.content.digest == b.content.digest && a.content.size == b.content.size)
    (sortBy compareDependency set.entries)
  let entries := entries.map fun entry =>
    { entry with identityDigest := computeDependencyEntryIdentity entry }
  let set := { set with entries }
  { set with id := deriveDependencySetId set, identityDigest := computeDependencySetIdentity set }

/-- Names are trimmed after sorting, so equal names may stay apart. -/
def canonicalizeEnvironment (env : EnvironmentContract) : EnvironmentContract :=
  let vars := (sortBy compareConfig env.vars).map fun kv => (trim kv.1, kv.2)
  { env with vars := uniqueBy (fun a b => a.1 == b.1) vars }

/-- The digest built from the toolchain's id starts with the id's own bytes. -/
def toolchainEvidenceId (id : ToolchainId) : EvidenceId :=
  ⟨(mix64 (UInt64.ofNat id.value)).toNat⟩

def canonicalizeToolchain (toolchain : ToolchainIdentity) : ToolchainIdentity :=
  let toolchain := { toolchain with
    sdk := sortBy compareSdk toolchain.sdk
    plugins := sortBy comparePlugin toolchain.plugins
    targetLibraries := uniqueBy (· == ·) (sortBy compare toolchain.targetLibraries)
    configuration := uniqueBy (fun a b => a.1 == b.1) (sortBy compareConfig toolchain.configuration) }
  let toolchain := { toolchain with id := deriveToolchainId toolchain }
  let toolchain := if toolchain.evidenceId.isZero then
      { toolchain with evidenceId := toolchainEvidenceId toolchain.id }
    else toolchain
  { toolchain with identityDigest := computeToolchainIdentity toolchain }

def canonicalizeTarget (target : TargetIdentity) : TargetIdentity :=
  { target with identityDigest := computeTargetIdentity target }

def canonicalizeCapabilities (caps : WorkerCapabilities) : WorkerCapabilities :=
  let caps := { caps with
    toolchains := sortBy (fun a b => compare a.identityDigest b.identityDigest)
      (caps.toolchains.map canonicalizeToolchain)
    targets := sortBy (fun a b => compare a.identityDigest b.identityDigest)
      (caps.targets.map canonicalizeTarget)
    inputFormats := uniqueBy (· == ·)
      (sortBy (fun a b => compare (WireEnum.code a) (WireEnum.code b)) caps.inputFormats)
    plugins := sortBy comparePlugin caps.plugins
    sdks := sortBy compareSdk caps.sdks }
  { caps with digest := computeCapabilityIdentity caps }

/-- `canonicalize(capabilities)` where the writers may throw. -/
def tryCanonicalizeCapabilities (caps : WorkerCapabilities) : Except Fault WorkerCapabilities := do
  let caps := canonicalizeCapabilities caps
  caps.toolchains.forM fun toolchain => do
    writes (toolchainIdRecord toolchain)
    writes (toolchainRecord toolchain)
  caps.targets.forM fun target => writes (targetRecord target)
  writes (capabilityRecord caps)
  pure caps

-- ---------------------------------------------------------------------------
-- Units
-- ---------------------------------------------------------------------------

/-- One source of `canonicalize_unit`. -/
def canonicalizeSource (source : UnitSource) : Except Fault UnitSource := do
  let name := trim source.logicalName
  if name.isEmpty then refuse .invalidArgument (txt "unit source with empty logical name")
  else if source.content.digest.isZero then
    refuse .invalidArgument (txt "unit source '" ++ name ++ txt "' has no content digest")
  else
    let format := if source.format = .unknown then inputFormatFromExtension name else source.format
    if format = .unknown then
      refuse .invalidArgument (txt "unit source '" ++ name ++ txt "' has unknown input format")
    else
      let languageMode :=
        if source.languageMode.isEmpty then txt "c++20" else source.languageMode
      let source := { source with logicalName := name, format, languageMode }
      writes (unitSourceRecord source)
      pure { source with identityDigest := computeUnitSourceIdentity source }

/-- One dependency of `canonicalize_unit`. -/
def canonicalizeDependency (dep : DependencyEntry) : Except Fault DependencyEntry := do
  let name := trim dep.name
  if name.isEmpty then refuse .invalidArgument (txt "unit dependency with empty name")
  else if dep.content.digest.isZero then
    refuse .invalidArgument (txt "unit dependency '" ++ name ++ txt "' has no content digest")
  else
    let dep := { dep with name }
    writes (dependencyEntryRecord dep)
    pure { dep with identityDigest := computeDependencyEntryIdentity dep }

/-- One flag; `empty` and `control` are the two refusals of the list it is in. -/
def canonicalizeFlag (empty control : Bytes) (flag : Bytes) : Except Fault Bytes :=
  let cleaned := trim flag
  if cleaned.isEmpty then refuse .invalidArgument empty
  else if containsControl cleaned then refuse .invalidArgument control
  else pure cleaned

def canonicalizeFlags (policy : CompilePolicy) (empty control : Bytes) (flags : List Bytes) :
    Except Fault (List Bytes) := do
  let flags ← flags.mapM (canonicalizeFlag empty control)
  pure (if policy.flagOrderSignificant then flags else sortBy compare flags)

def canonicalizeUnit (policy : CompilePolicy) (unit : CompilationUnitSpec) :
    Except Fault CompilationUnitSpec := do
  let sources ← unit.sources.mapM canonicalizeSource
  let sources := sortBy compareSource sources
  match duplicateName? (·.logicalName) sources with
  | some name => refuse .duplicate (txt "duplicate unit source name: " ++ name)
  | none =>
    if sources.isEmpty && unit.kind != .link then
      refuse .invalidArgument (txt "unit '" ++ unit.logicalName ++ txt "' has no sources")
    else
      let dependencies ← unit.dependencies.mapM canonicalizeDependency
      let dependencies := sortBy compareDependency dependencies
      let flags ← canonicalizeFlags policy
        (txt "empty compiler flag in unit '" ++ unit.logicalName ++ txt "'")
        (txt "control character in compiler flag") unit.flags
      let childUnits := uniqueBy (· == ·) (sortBy compare unit.childUnits)
      let logicalName := trim unit.logicalName
      if logicalName.isEmpty then refuse .invalidArgument (txt "unit with empty logical name")
      else if unit.kind = .link ∧ childUnits = [] then
        refuse .invalidArgument (txt "link unit '" ++ logicalName ++ txt "' has no inputs")
      else pure { unit with sources, dependencies, flags, childUnits, logicalName }

/-- The loop over sorted units: `index` is the next expected one. -/
def canonicalizeUnits (policy : CompilePolicy) :
    Nat → List CompilationUnitSpec → Except Fault (List CompilationUnitSpec)
  | _, [] => pure []
  | index, unit :: rest => do
    if unit.index.toNat ≠ index then
      refuse .invalidArgument (txt "unit indices must be dense and zero-based")
    else
      let unit ← canonicalizeUnit policy unit
      let rest ← canonicalizeUnits policy (index + 1) rest
      pure (unit :: rest)

/-- The checks on `child_units`, unit by unit. -/
def checkChildren (size : Nat) (index : UInt32) : List UInt32 → Except Fault Unit
  | [] => pure ()
  | child :: rest =>
    if size ≤ child.toNat then refuse .invalidArgument (txt "unit child index out of range")
    else if child = index then refuse .invalidArgument (txt "unit cannot depend on itself")
    else checkChildren size index rest

/-- `for (auto& unit : request.units) unit.identity_digest = derive_unit_identity(request, unit)`:
a unit sees the new identities of the units before it and the old ones of the
units after it. -/
def identifyUnits (request : CompilationRequest) (done : List CompilationUnitSpec) :
    List CompilationUnitSpec → Except Fault (List CompilationUnitSpec)
  | [] => pure done
  | unit :: rest => do
    let request := { request with units := done ++ unit :: rest }
    writes (unitRecord request unit)
    identifyUnits request
      (done ++ [{ unit with identityDigest := deriveUnitIdentity request unit }]) rest

-- ---------------------------------------------------------------------------
-- Requests
-- ---------------------------------------------------------------------------

def canonicalize (request : CompilationRequest) : Except Fault CompilationRequest := do
  let toolchain := canonicalizeToolchain request.toolchain
  writes (toolchainIdRecord toolchain)
  writes (toolchainRecord toolchain)
  if toolchain.family = .unknown then
    refuse .invalidArgument (txt "compilation request requires an identified toolchain")
  else if toolchain.identityDigest.isZero then
    refuse .invalidArgument (txt "compilation request requires a toolchain identity")
  else
  let target := canonicalizeTarget request.target
  writes (targetRecord target)
  if target.identityDigest.isZero || target.arch == .unknown then
    refuse .invalidArgument (txt "compilation request requires a concrete target")
  else
  let target := { target with id := deriveTargetId target }
  let specialization ← canonicalizeSpecialization request.specialization
  let dependencies := canonicalizeDependencySet request.dependencies
  writes (dependencySetRecord dependencies)
  let environment := canonicalizeEnvironment request.environment
  let flags ← canonicalizeFlags request.policy (txt "empty job-level compiler flag")
    (txt "control character in job-level compiler flag") request.flags
  if request.units.isEmpty then
    refuse .invalidArgument (txt "compilation request has no units")
  else
  let units ← canonicalizeUnits request.policy 0
    (sortBy (fun a b => compare a.index b.index) request.units)
  units.forM fun unit => checkChildren units.length unit.index unit.childUnits
  writes (policyRecord request.policy)
  let policy := { request.policy with
    id := derivePolicyId request.policy
    identityDigest := computePolicyIdentity request.policy }
  writes (environmentRecord environment)
  let request := { request with
    toolchain, target, specialization, dependencies, environment, flags, units, policy }
  let units ← identifyUnits request [] units
  let request := { request with units }
  writes (requestRecord request)
  pure { request with requestIdentity := deriveRequestIdentity request }

end DistributedCompilation
