import DistributedCompilation.Coordinator.Bookkeeping

/-!
# Distributed Compilation — scheduling

`unit_ready`, `build_assignment` and `Coordinator::pump`: every compilation that
waits is offered to the best eligible worker, and to a second one where the
policy allows speculative duplicates.
-/

namespace DistributedCompilation

-- ---------------------------------------------------------------------------
-- Readiness
-- ---------------------------------------------------------------------------

/-- `unit_ready`: a link unit waits for its children. -/
def State.unitReady (s : State) (compilation : CompilationRecord) : Bool :=
  match s.resolve compilation with
  | none => false
  | some (_, unit) =>
    if unit.kind ≠ .link then true
    else match s.jobs[compilation.requestIdentity]? with
      | none => false
      | some job => unit.childUnits.all fun child =>
          match job.units[child.toNat]? with
          | none => false
          | some childId => (s.compilations[childId]?).any (·.state.available)

-- ---------------------------------------------------------------------------
-- Content of an assignment
-- ---------------------------------------------------------------------------

section

variable [HashFunction]

/-- Loads the content of every element; the first one missing gives up. -/
def loadEach {α β : Type} (digest : α → Digest256) (payload : α → Bytes → β) :
    List α → M (Option (List β))
  | [] => pure (some [])
  | a :: rest => do
    let loaded ← loadBlob (digest a)
    match loaded with
    | .error _ => pure none
    | .ok bytes =>
      let payloads ← loadEach digest payload rest
      pure (payloads.map (payload a bytes :: ·))

/-- A child of a link unit: the digest of its authoritative artifact and the
payload that carries it. -/
def State.childOf (s : State) (job : JobRecord) (child : UInt32) :
    Option (Digest256 × (Bytes → AssignmentChild)) := do
  let childId ← job.units[child.toNat]?
  let record ← s.compilations[childId]?
  let commitId ← s.authoritative[childId]?
  let commit ← s.commits[commitId]?
  let logicalName := match s.resolve record with
    | some (_, unit) => unit.logicalName
    | none => record.unitIdentity.hex.take 16
  pure (commit.artifactDigest, fun bytes =>
    { logicalName
      kind := if commit.artifactGeneration.isZero then .object else record.outputKind
      bytes })

def loadChildren (s : State) (job : JobRecord) : List UInt32 → M (Option (List AssignmentChild))
  | [] => pure (some [])
  | child :: rest =>
    match s.childOf job child with
    | none => pure none
    | some (digest, payload) => do
      let loaded ← loadBlob digest
      match loaded with
      | .error _ => pure none
      | .ok bytes =>
        let payloads ← loadChildren s job rest
        pure (payloads.map (payload bytes :: ·))

/-- The children of a unit that is not a link unit are not loaded. -/
def loadLinkInputs (s : State) (compilation : CompilationRecord) (unit : CompilationUnitSpec) :
    M (Option (List AssignmentChild)) :=
  if unit.kind = .link then
    match s.jobs[compilation.requestIdentity]? with
    | none => pure none
    | some job => loadChildren s job unit.childUnits
  else pure (some [])

-- ---------------------------------------------------------------------------
-- Authority of an assignment
-- ---------------------------------------------------------------------------

/-- The attempt an assignment creates. It has passed from `Created` over
`Eligible` to `Assigned`, both legal, before anybody sees it. -/
def State.attemptFor (s : State) (worker : WorkerRecord) (compilation : CompilationRecord)
    (speculative : Bool) (createdAt : UnixMillis) : CompilationAttempt where
  id := ⟨s.header.nextAttemptId⟩
  generation := ⟨(compilation.attemptOrdinalCounter + 1).toNat⟩
  compilation := compilation.id
  compilationGeneration := compilation.generation
  unit := compilation.unit
  worker := worker.id
  workerBoot := worker.boot
  workerGeneration := worker.generation
  lease := ⟨s.header.nextLeaseId⟩
  -- monotonic per compilation, so a lease of an earlier attempt ordinal can
  -- never satisfy a later claim
  leaseGeneration := ⟨(compilation.attemptOrdinalCounter + 1).toNat⟩
  epoch := s.header.epoch
  state := .assigned
  ordinal := compilation.attemptOrdinalCounter + 1
  speculative := speculative
  createdAt := createdAt

def CompilationAttempt.leaseOf (attempt : CompilationAttempt) (issuedAt : UnixMillis) :
    CompileLease where
  id := attempt.lease
  generation := attempt.leaseGeneration
  compilation := attempt.compilation
  compilationGeneration := attempt.compilationGeneration
  unit := attempt.unit
  attempt := attempt.id
  worker := attempt.worker
  workerBoot := attempt.workerBoot
  workerGeneration := attempt.workerGeneration
  epoch := attempt.epoch
  issuedAt := issuedAt

/-- The assignment of an attempt; the claim handed out is the expectation it
will be checked against. -/
def State.assignmentFor (s : State) (config : CoordinatorConfig) (worker : WorkerRecord)
    (compilation : CompilationRecord) (request : CompilationRequest) (unit : CompilationUnitSpec)
    (attempt : CompilationAttempt) (lease : CompileLease) : Assignment where
  session := worker.session
  worker := worker.id
  workerBoot := worker.boot
  workerGeneration := worker.generation
  lease := lease
  claim := s.expectationFor compilation attempt
  compilation := compilation.id
  compilationGeneration := compilation.generation
  unit := compilation.unit
  unitGeneration := compilation.unitGeneration
  attempt := attempt.id
  attemptGeneration := attempt.generation
  unitIndex := unit.index
  kind := unit.kind
  outputKind := unit.outputKind
  logicalName := unit.logicalName
  flags := unit.flags
  toolchain := request.toolchain
  target := request.target
  specialization := request.specialization
  policy := request.policy
  environment := request.environment
  validation := request.validation
  maxCompileMillis := config.maxCompileMillis
  speculative := attempt.speculative

def CompilationRecord.assigned (record : CompilationRecord) (attempt : CompilationAttemptId)
    (updatedAt : UnixMillis) : CompilationRecord :=
  { record with
    attemptOrdinalCounter := record.attemptOrdinalCounter + 1
    attempts := record.attempts ++ [attempt]
    currentAttempt := attempt
    state := .assigned
    updatedAt := updatedAt }

def WorkerRecord.leased (worker : WorkerRecord) (lease : LeaseId) : WorkerRecord :=
  { worker with
    inFlight := worker.inFlight + 1
    activeLeases := worker.activeLeases ++ [lease] }

/-- The table entries of an assignment: the lease, the attempt, the compilation
that moves to `Assigned` and the worker that holds the lease. -/
def State.assign (s : State) (id : CompilationId) (attempt : CompilationAttempt)
    (lease : CompileLease) (updatedAt : UnixMillis) : State :=
  { s with
    header := { s.header with
      nextAttemptId := s.header.nextAttemptId + 1
      nextLeaseId := s.header.nextLeaseId + 1 }
    leases := s.leases.insert lease.id lease
    attempts := s.attempts.insert attempt.id attempt
    compilations := s.compilations.modify id (·.assigned attempt.id updatedAt)
    workers := s.workers.modify attempt.worker (·.leased lease.id) }

/-- `build_assignment`. -/
def buildAssignment (worker : WorkerRecord) (id : CompilationId) (speculative : Bool) :
    M (Option Assignment) := do
  let i ← Program.read
  match i.state.compilations[id]? with
  | none => pure none
  | some compilation =>
  match i.state.resolve compilation with
  | none => pure none
  | some (request, unit) =>
  let sources ← loadEach (·.content.digest) (fun source bytes =>
    { logicalName := source.logicalName
      format := source.format
      languageMode := source.languageMode
      bytes : AssignmentSource }) unit.sources
  match sources with
  | none => pure none
  | some sources =>
  let dependencies ← loadEach (·.content.digest) (fun dep bytes =>
    { name := dep.name, kind := dep.kind, bytes : AssignmentDependency }) unit.dependencies
  match dependencies with
  | none => pure none
  | some dependencies =>
  let children ← loadLinkInputs i.state compilation unit
  match children with
  | none => pure none
  | some children =>
    let createdAt ← now
    let attempt := i.state.attemptFor worker compilation speculative createdAt
    let issuedAt ← now
    let lease := attempt.leaseOf issuedAt
    let updatedAt ← now
    onState (·.assign id attempt lease updatedAt)
    persistVoid (.lease lease)
    persistVoid (.attempt attempt)
    ignoring (persistCompilation id)
    ignoring (persistWorker worker.id)
    pure (some { i.state.assignmentFor i.config worker compilation request unit attempt lease with
      sources, dependencies, children })

-- ---------------------------------------------------------------------------
-- Pump
-- ---------------------------------------------------------------------------

/-- Whether an attempt of the compilation may still commit. -/
def State.inFlight (s : State) (compilation : CompilationRecord) : Bool :=
  compilation.attempts.any fun id => (s.attempts[id]?).any (holdsCommitAuthority ·.state)

def RankedWorker.isOf (ranked : RankedWorker) (worker : WorkerRecord) : Bool :=
  worker.id == ranked.id && worker.boot == ranked.boot

/-- The second assignment of a compilation whose policy allows it. -/
def buildDuplicate (id : CompilationId) (request : Option CompilationRequest)
    (candidates : List WorkerRecord) (others : List RankedWorker) : M (List Assignment) :=
  if request.any (·.policy.allowSpeculativeDuplication) then
    match others.head?.bind fun second => candidates.find? second.isOf with
    | none => pure []
    | some alternate => do
      let duplicate ← buildAssignment alternate id true
      pure duplicate.toList
  else pure []

/-- One round of the loop of `pump`. -/
def pumpOne (id : CompilationId) : M (List Assignment) := do
  let s ← getState
  match s.compilations[id]? with
  | none => pure []
  | some compilation =>
    if compilation.state ≠ .pending ∧ compilation.state ≠ .eligible then pure []
    else if s.authoritative.contains id then pure []
    else if s.inFlight compilation then pure []
    else if ¬s.unitReady compilation then do
      onCompilation id fun record => { record with state := .eligible }
      pure []
    else
      let requirements := s.requirementsFor compilation
      let candidates := s.eligibleWorkers requirements
      if candidates.isEmpty then do
        onCompilation id fun record =>
          { record with
            state := .eligible
            failureDetail := txt "no eligible worker"
            failure := .noEligibleWorker }
        pure []
      else match rankWorkers candidates requirements 0 with
        | [] => do
          onCompilation id fun record => { record with state := .eligible }
          pure []
        | best :: others =>
          match candidates.find? best.isOf with
          | none => pure []
          | some chosen => do
            let assignment ← buildAssignment chosen id false
            match assignment with
            | none => pure []
            | some assignment =>
              let duplicate ← buildDuplicate id (s.requests[compilation.requestIdentity]?)
                candidates others
              pure (assignment :: duplicate)

/-- `Coordinator::pump`. -/
def pump : M (List Assignment) := do
  let i ← Program.read
  if i.opened then Program.collect i.state.compilations.keys pumpOne
  else pure []

end

end DistributedCompilation
