import DistributedCompilation.Domain.Identity
import DistributedCompilation.Lib.Sorting

/-!
# Distributed Compilation — eligibility and ranking

`evaluate_eligibility` decides whether a worker may run a unit; only workers it
accepts are ranked, and ranking confers no authority.
-/

namespace DistributedCompilation

-- ---------------------------------------------------------------------------
-- Requirements
-- ---------------------------------------------------------------------------

structure HardRequirements where
  toolchainIdentity : Option Digest256 := none
  targetIdentity : Option Digest256 := none
  requiredFormats : List InputFormat := []
  requiredPlugins : List Bytes := []
  requiredSdks : List SdkComponent := []
  minLogicalCores : UInt32 := 0
  minMemoryBytes : UInt64 := 0
  minScratchBytes : UInt64 := 0
  minMaxArtifactBytes : UInt64 := 0
  requireSandbox : Bool := false
  requireFilesystemIsolation : Bool := false
  requireDeterministicBuild : Bool := false
  requireTrusted : Bool := false
  requireRemoteCache : Bool := false
  requireArtifactStore : Bool := false
  requireProvableToolchain : Bool := true
  localityHost : Bytes := []
  requireLocality : Bool := false

inductive IneligibilityReason
  | workerUnknown | workerNotReady | workerFenced | workerUnhealthy | capabilityUnknown
  | toolchainMissing | toolchainUnproven | targetMissing | formatUnsupported | pluginMissing
  | sdkMissing | insufficientCores | insufficientMemory | insufficientScratch | artifactSizeLimit
  | sandboxRequired | isolationRequired | determinismRequired | trustRequired
  | remoteCacheRequired | artifactStoreRequired | localityRequired
deriving DecidableEq

/-- `derive_requirements`. -/
def deriveRequirements (request : CompilationRequest) (unit : CompilationUnitSpec) :
    HardRequirements :=
  let runtimeLibraries := unit.dependencies.filter fun dep =>
    dep.kind == .runtimeLibrary || dep.kind == .deviceLibrary
  let formats := unit.sources.map (·.format) ++ runtimeLibraries.map fun _ => InputFormat.object
  { toolchainIdentity := some request.toolchain.identityDigest
    targetIdentity := some request.target.identityDigest
    requireProvableToolchain := request.policy.requireProvableToolchain
    requireTrusted := request.policy.requireTrustedWorkers
    requireDeterministicBuild := request.policy.reproducibility == .required
    requiredPlugins := (unit.dependencies.filter (·.kind == .compilerPlugin)).map (·.name)
    requiredFormats := uniqueBy (· == ·)
      (sortBy (fun a b => compare (WireEnum.code a) (WireEnum.code b)) formats) }

-- ---------------------------------------------------------------------------
-- Eligibility
-- ---------------------------------------------------------------------------

def findToolchain (caps : WorkerCapabilities) (identity : Digest256) : Option ToolchainIdentity :=
  caps.toolchains.find? (·.identityDigest == identity)

def findTarget (caps : WorkerCapabilities) (identity : Digest256) : Option TargetIdentity :=
  caps.targets.find? (·.identityDigest == identity)

def supportsFormat (caps : WorkerCapabilities) (format : InputFormat) : Bool :=
  caps.inputFormats.contains format

/-- `to_string(EvidenceClass)`. -/
def EvidenceClass.text : EvidenceClass → Bytes
  | .unknown => txt "UNKNOWN"
  | .real => txt "REAL"
  | .synthetic => txt "SYNTHETIC"
  | .unsupported => txt "UNSUPPORTED"

/-- `to_string(InputFormat)`. -/
def InputFormat.text : InputFormat → Bytes
  | .unknown => txt "UNKNOWN"
  | .source => txt "SOURCE"
  | .preprocessedSource => txt "PREPROCESSED_SOURCE"
  | .llvmIr => txt "LLVM_IR"
  | .ptx => txt "PTX"
  | .spirV => txt "SPIRV"
  | .vendorIr => txt "VENDOR_IR"
  | .object => txt "OBJECT"
  | .cubin => txt "CUBIN"
  | .assembly => txt "ASSEMBLY"
  | .other => txt "OTHER"

/-- A plugin requirement is `id` or `id@version`. -/
def providesPlugin (caps : WorkerCapabilities) (requirement : Bytes) : Bool :=
  caps.plugins.any fun plugin =>
    let candidate := if plugin.version.isEmpty then plugin.id
      else plugin.id ++ txt "@" ++ plugin.version
    candidate == requirement || plugin.id == requirement

def providesSdk (caps : WorkerCapabilities) (requirement : SdkComponent) : Bool :=
  caps.sdks.any fun sdk =>
    sdk.name == requirement.name &&
      (requirement.version.isEmpty || sdk.version == requirement.version)

def sdkText (requirement : SdkComponent) : Bytes :=
  txt "SDK component not available: " ++ requirement.name ++
    if requirement.version.isEmpty then [] else txt "@" ++ requirement.version

/-- Why a worker may not run a unit; `.ok ()` is the eligible decision. -/
abbrev EligibilityDecision := Except (IneligibilityReason × Bytes) Unit

def evaluateEligibility (worker : WorkerRecord) (req : HardRequirements) : EligibilityDecision := do
  let caps := worker.capabilities
  if worker.fenced || worker.health == .fenced then
    throw (.workerFenced, txt "worker is fenced")
  if worker.health == .dead then throw (.workerUnhealthy, txt "worker is dead")
  if worker.health == .unknown then throw (.workerUnknown, txt "worker health is unknown")
  if worker.health == .suspect then throw (.workerUnhealthy, txt "worker health is suspect")
  if worker.health == .draining then throw (.workerUnhealthy, txt "worker is draining")
  if !worker.ready then throw (.workerNotReady, txt "worker has not reported ready")
  if caps.evidence == .unknown then
    throw (.capabilityUnknown, txt "worker capability evidence is UNKNOWN")
  if caps.evidence == .unsupported then
    throw (.capabilityUnknown, txt "worker declared capability evidence UNSUPPORTED")
  if let some identity := req.toolchainIdentity then
    match findToolchain caps identity with
    | none => throw (.toolchainMissing, txt "required toolchain identity not advertised")
    | some toolchain =>
      if req.requireProvableToolchain && !toolchainIdentityIsProvable toolchain then
        throw (.toolchainUnproven, txt "toolchain identity is not provable (evidence=" ++
          toolchain.evidence.text ++ txt ")")
  if let some identity := req.targetIdentity then
    if (findTarget caps identity).isNone then
      throw (.targetMissing, txt "required target identity not advertised")
  if let some format := req.requiredFormats.find? (!supportsFormat caps ·) then
    throw (.formatUnsupported, txt "input format not supported: " ++ format.text)
  if let some requirement := req.requiredPlugins.find? (!providesPlugin caps ·) then
    throw (.pluginMissing, txt "compiler plugin not available: " ++ requirement)
  if let some requirement := req.requiredSdks.find? (!providesSdk caps ·) then
    throw (.sdkMissing, sdkText requirement)
  if req.minLogicalCores > 0 && caps.logicalCores < req.minLogicalCores then
    throw (.insufficientCores, txt "logical cores below requirement")
  if req.minMemoryBytes > 0 && caps.memoryBytes < req.minMemoryBytes then
    throw (.insufficientMemory, txt "memory below requirement")
  if req.minScratchBytes > 0 && caps.scratchBytes < req.minScratchBytes then
    throw (.insufficientScratch, txt "scratch space below requirement")
  if req.minMaxArtifactBytes > 0 && caps.maxArtifactBytes < req.minMaxArtifactBytes then
    throw (.artifactSizeLimit, txt "artifact size limit below requirement")
  if req.requireSandbox && !caps.sandbox then
    throw (.sandboxRequired, txt "worker does not provide sandboxing")
  if req.requireFilesystemIsolation && !caps.filesystemIsolation then
    throw (.isolationRequired, txt "worker does not provide filesystem isolation")
  if req.requireDeterministicBuild && !caps.deterministicBuild then
    throw (.determinismRequired, txt "worker does not provide deterministic builds")
  if req.requireTrusted && !caps.trusted then throw (.trustRequired, txt "worker is not trusted")
  if req.requireRemoteCache && !caps.remoteCacheAccess then
    throw (.remoteCacheRequired, txt "worker has no remote cache access")
  if req.requireArtifactStore && !caps.artifactStoreAccess then
    throw (.artifactStoreRequired, txt "worker has no artifact store access")
  if req.requireLocality && !req.localityHost.isEmpty && worker.host != req.localityHost then
    throw (.localityRequired, txt "worker is not on the required host")

def eligible (worker : WorkerRecord) (req : HardRequirements) : Bool :=
  (evaluateEligibility worker req).isOk

/-- A check of the evaluation that is passed. -/
theorem eligible_of_guard {c : Bool} {e : IneligibilityReason × Bytes}
    {k : Unit → EligibilityDecision} {m : EligibilityDecision}
    (h : (if c = true then throw e >>= k else m).isOk = true) : c = false ∧ m.isOk = true := by
  cases c
  · exact ⟨rfl, h⟩
  · cases h

/-- No requirement is met by a worker that is fenced or not ready. -/
theorem able_of_eligible {worker : WorkerRecord} {r : HardRequirements} (h : eligible worker r = true) :
    worker.ready = true ∧ worker.fenced = false := by
  unfold eligible evaluateEligibility at h
  -- the fence is checked first, the readiness behind the four checks of the health
  obtain ⟨hfenced, h⟩ := eligible_of_guard h
  obtain ⟨-, h⟩ := eligible_of_guard h
  obtain ⟨-, h⟩ := eligible_of_guard h
  obtain ⟨-, h⟩ := eligible_of_guard h
  obtain ⟨-, h⟩ := eligible_of_guard h
  obtain ⟨hready, -⟩ := eligible_of_guard h
  simp only [Bool.or_eq_false_iff] at hfenced
  simp only [Bool.not_eq_false'] at hready
  exact ⟨hready, hfenced.1⟩

-- ---------------------------------------------------------------------------
-- Ranking
-- ---------------------------------------------------------------------------

structure RankedWorker where
  id : WorkerId
  boot : WorkerBootId
  generation : WorkerGeneration
  factors : List (Bytes × Int)

namespace RankedWorker

def score (entry : RankedWorker) : Int := (entry.factors.map (·.2)).sum

/-- Higher score first, then id, boot and generation. -/
def order (a b : RankedWorker) : Ordering :=
  (compare b.score a.score).then <| (compare a.id b.id).then <| (compare a.boot b.boot).then <|
    compare a.generation.value b.generation.value

end RankedWorker

/-- The factor list of one worker; every value stays far from the 64-bit range. -/
def rankWorker (req : HardRequirements) (estimatedCostMillis : UInt64) (worker : WorkerRecord) :
    RankedWorker :=
  let locality : Int :=
    if !req.localityHost.isEmpty && worker.host == req.localityHost then 10000 else 0
  let completed := if worker.completedUnits = 0 then 1 else worker.completedUnits.toNat
  let historicalCost := min (worker.totalCompileMillis.toNat / completed) 600000 / 100
  let expectedCost := min estimatedCostMillis.toNat 600000 / 100
  { id := worker.id
    boot := worker.boot
    generation := worker.generation
    factors :=
      [(txt "locality", locality),
       (txt "cache_affinity", min worker.cacheAffinityHits.toNat 500 * 4),
       (txt "evidence_freshness", if worker.trustedEvidenceFresh then 250 else 0),
       (txt "trust", if worker.capabilities.trusted then 100 else 0),
       (txt "historical_cost", -(historicalCost : Int)),
       (txt "expected_cost", -(expectedCost : Int)),
       (txt "queue_depth", -(worker.queueDepth.toNat : Int) * 300),
       (txt "in_flight", -(worker.inFlight.toNat : Int) * 600),
       (txt "logical_cores", min worker.capabilities.logicalCores.toNat 256 * 5),
       (txt "memory_gib", min (worker.capabilities.memoryBytes >>> 30).toNat 1024)] }

/-- `rank_workers`. -/
def rankWorkers (candidates : List WorkerRecord) (req : HardRequirements)
    (estimatedCostMillis : UInt64) : List RankedWorker :=
  sortBy RankedWorker.order (candidates.map (rankWorker req estimatedCostMillis))

end DistributedCompilation
