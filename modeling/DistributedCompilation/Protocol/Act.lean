import DistributedCompilation.Coordinator.System

/-!
# Distributed Compilation — the coordinator as a protocol

What the operations do to the coordinator's tables, as a relation between
states. An `Act` is one change a section makes between two of its exits, with
the facts the section has established by then as premises. Operations are
sequences of acts (`Refinement`), so an invariant is proved once per act.

Acts that some property does not survive carry a `Hazard`; a property admits
them under the conditions (`permits`) it needs and holds along every run whose
hazards are permitted.
-/

namespace DistributedCompilation

variable [HashFunction]

-- ---------------------------------------------------------------------------
-- What an update leaves alone
-- ---------------------------------------------------------------------------

/-- The fields of a compilation record no transaction on it rewrites. -/
def CompilationRecord.frozen (r : CompilationRecord) : CompilationRecord :=
  { r with
    state := .pending, commit := none, divergentCandidates := []
    reproducibilityViolation := false, failureDetail := [], failure := .ok, cacheHit := false
    updatedAt := 0 }

/-- The binding of an attempt: everything but its progress. -/
def CompilationAttempt.frozen (a : CompilationAttempt) : CompilationAttempt :=
  { a with
    state := .created, startedAt := 0, finishedAt := 0, failure := .ok, failureDetail := []
    candidate := {}, candidateDigest := default, artifact := {}, compilerWallMillis := 0
    compilerInvocation := [], compilerVersionString := [] }

def CompileLease.frozen (l : CompileLease) : CompileLease :=
  { l with revoked := false, revocationReason := [] }

def JobRecord.frozen (j : JobRecord) : JobRecord :=
  { j with committed := false, committedUnit := {}, failure := .ok, failureDetail := [] }

/-- A session that keeps who it speaks for and does not reopen. -/
structure SessionRecord.Continues (session old : SessionRecord) : Prop where
  id : session.id = old.id
  isWorker : session.isWorker = old.isWorker
  worker : session.worker = old.worker
  boot : session.boot = old.boot
  isOpen : session.isOpen = true → old.isOpen = true

/-- A worker that keeps its registration. -/
structure WorkerRecord.Continues (worker old : WorkerRecord) : Prop where
  id : worker.id = old.id
  boot : worker.boot = old.boot
  generation : worker.generation = old.generation
  fenced : worker.fenced = old.fenced

/-- A transition of the attempt state machine, or none. -/
def AttemptState.Leads (source target : AttemptState) : Prop :=
  target = source ∨ isLegalTransition source target = true

/-- What one block of `register_and_check` does. -/
inductive Resolves (request : CompilationRequest) (s : State) : State → Prop
  | toolchain : Resolves request s (s.resolveToolchain request.toolchain).2
  | target : Resolves request s (s.resolveTarget request.target).2
  | specialization : Resolves request s (s.resolveSpecialization request.specialization).2
  | policy : Resolves request s (s.resolvePolicy request.policy).2
  | dependencies : Resolves request s (s.resolveDependencies request.dependencies).2
  | source (source : UnitSource) : Resolves request s (s.resolveSource source)

-- ---------------------------------------------------------------------------
-- Hazards
-- ---------------------------------------------------------------------------

/-- Acts some property has to be protected from. -/
inductive Hazard
  /-- a committed compilation with a live commit leaves `Committed` -/
  | unsettle (compilation : CompilationId)
  /-- the unit index of a known compilation is rewritten -/
  | lower (compilation : CompilationId) (index : UInt32)
  /-- a worker enters or re-enters the registry -/
  | enroll (worker : WorkerRecord)
  /-- a worker boot is fenced -/
  | fence (worker : WorkerId) (boot : WorkerBootId)
  /-- a request reaches the registries, the retained requests or the journal -/
  | retain (request : CompilationRequest)
  | create (request : CompilationRequest) (unit : CompilationUnitSpec)
  | job (request : CompilationRequest) (job : JobRecord)
  /-- a worker's capabilities are replaced -/
  | advertise (worker : WorkerId) (capabilities : WorkerCapabilities)
  | violation (violation : AuthorityViolation)

variable (permits : Hazard → State → Prop)

-- ---------------------------------------------------------------------------
-- Updates of one entry
-- ---------------------------------------------------------------------------

/-- An update of the record of compilation `id` in state `s`. -/
structure RecordUpdate (s : State) (id : CompilationId) (old new : CompilationRecord) : Prop where
  frozen : new.frozen = old.frozen
  settled : (s.liveCommit id).isSome → old.state = .committed →
    new.state = .committed ∨ permits (.unsettle id) s
  committing : ∀ commit, new.commit = some commit → old.commit = some commit ∨
    ∃ (key : CompilationAttemptId) (attempt : CompilationAttempt) (committedAt : UnixMillis),
      s.attempts[key]? = some attempt ∧ commit = s.commitFor old attempt committedAt

/-- An update of the record of worker `id` in state `s`. -/
structure WorkerUpdate (s : State) (id : WorkerId) (old new : WorkerRecord) : Prop where
  continues : new.Continues old
  activeLeases : ∀ l ∈ new.activeLeases, l ∈ old.activeLeases
  capabilities : new.capabilities = old.capabilities ∨
    new.capabilities = old.capabilities.distrusted ∨
    permits (.advertise id new.capabilities) s

/-- The end of the lease under `id` in state `s`: its attempt is over, every
attempt of its compilation is, or its worker is fenced. -/
inductive LeaseEnd (s : State) (id : LeaseId) (lease : CompileLease) : Prop
  | finished (key : CompilationAttemptId) (attempt : CompilationAttempt)
      (found : s.attempts[key]? = some attempt) (bound : attempt.lease = id)
      (ended : holdsCommitAuthority attempt.state = false)
  | cancelled (record : CompilationRecord) (found : s.compilations[lease.compilation]? = some record)
      (ended : ∀ key ∈ record.attempts, ∀ attempt : CompilationAttempt,
        s.attempts[key]? = some attempt → holdsCommitAuthority attempt.state = false)
  | fenced (worker : WorkerRecord) (found : s.workers[lease.worker]? = some worker)
      (fenced : worker.fenced = true)

-- ---------------------------------------------------------------------------
-- Acts
-- ---------------------------------------------------------------------------

/-- `header.records_since_snapshot = n`. -/
def State.recount (s : State) (n : Nat) : State :=
  { s with header := { s.header with recordsSinceSnapshot := n } }

/-- One change of the coordinator's tables. -/
inductive Act (s : State) : State → Prop
  | recount (n : Nat) : Act s (s.recount n)
  | resolve {request : CompilationRequest} {s' : State} (hazard : permits (.retain request) s)
      (resolves : Resolves request s s') : Act s s'
  | retain {request : CompilationRequest} (hazard : permits (.retain request) s) :
      Act s (s.retain request)
  | evict {requests : Table Digest256 CompilationRequest}
      (kept : ∀ (identity : Digest256) (request : CompilationRequest),
        requests[identity]? = some request → s.requests[identity]? = some request) :
      Act s { s with requests }
  | create {request : CompilationRequest} {unit : CompilationUnitSpec} {createdAt : UnixMillis}
      (fresh : s.compilations[deriveCompilationId unit.identityDigest]? = none)
      (hazard : permits (.create request unit) s) :
      Act s (s.create (newCompilation request unit createdAt))
  | supersede {id : CompilationId} {record : CompilationRecord}
      (found : s.compilations[id]? = some record) (committed : record.state = .committed) :
      Act s (s.supersede id)
  | withdraw {id : CompilationId} {prior : ArtifactCommitId}
      (found : s.authoritative[id]? = some prior)
      (superseded : ∀ commit : ArtifactCommit,
        s.commits[prior]? = some commit → commit.superseded = true) :
      Act s (s.withdraw id)
  | lower {id : CompilationId} {record : CompilationRecord} {index : UInt32}
      (found : s.compilations[id]? = some record) (lower : index < record.unitIndex)
      (hazard : permits (.lower id index) s) :
      Act s (s.withCompilation id fun record => { record with unitIndex := index })
  | record {id : CompilationId} {f : CompilationRecord → CompilationRecord}
      (update : ∀ old, s.compilations[id]? = some old → RecordUpdate permits s id old (f old)) :
      Act s (s.withCompilation id f)
  | assign {id : CompilationId} {compilation : CompilationRecord} {key : WorkerId}
      {worker entry : WorkerRecord} {speculative : Bool}
      {createdAt issuedAt updatedAt : UnixMillis}
      (found : s.compilations[id]? = some compilation)
      (waiting : s.authoritative[id]? = none)
      (seated : s.workers[key]? = some entry) (continues : entry.Continues worker)
      (unfenced : worker.fenced = false) :
      Act s (s.assign id (s.attemptFor worker compilation speculative createdAt)
        ((s.attemptFor worker compilation speculative createdAt).leaseOf issuedAt) updatedAt)
  | attempt {id : CompilationAttemptId} {f : CompilationAttempt → CompilationAttempt}
      (update : ∀ old, s.attempts[id]? = some old →
        (f old).frozen = old.frozen ∧ old.state.Leads (f old).state) :
      Act s (s.withAttempt id f)
  | worker {id : WorkerId} {f : WorkerRecord → WorkerRecord}
      (update : ∀ old, s.workers[id]? = some old → WorkerUpdate permits s id old (f old)) :
      Act s (s.withWorker id f)
  | lease {id : LeaseId} {f : CompileLease → CompileLease}
      (update : ∀ old, s.leases[id]? = some old →
        (f old).frozen = old.frozen ∧ ((f old).revoked = old.revoked ∨ LeaseEnd s id old)) :
      Act s (s.withLease id f)
  | revokeWorker {id : WorkerId} {worker : WorkerRecord} {reason : Bytes}
      (found : s.workers[id]? = some worker) (fenced : worker.fenced = true) :
      Act s (s.revokeLeasesFor id reason)
  | session {id : SessionId} {f : SessionRecord → SessionRecord}
      (update : ∀ old, s.sessions[id]? = some old → (f old).Continues old) :
      Act s (s.withSession id f)
  | enroll {worker : WorkerRecord} {session : SessionRecord}
      (hazard : permits (.enroll worker) s)
      (id : session.id = ⟨s.header.nextSessionId⟩)
      (unfenced : worker.fenced = false)
      (speaksFor : session.worker = worker.id ∧ session.boot = worker.boot) :
      Act s (s.enroll worker session)
  | fence {id : WorkerId} {worker : WorkerRecord}
      (found : s.workers[id]? = some worker)
      (swept : ∀ (key : CompilationAttemptId) (attempt : CompilationAttempt),
        s.attempts[key]? = some attempt → attempt.worker = id → attempt.workerBoot = worker.boot →
        holdsCommitAuthority attempt.state = true →
        attempt.state = .produced ∨ attempt.state = .validating)
      (hazard : permits (.fence id worker.boot) s) :
      Act s (s.withWorker id fun worker =>
        { worker.unseated with generation := worker.generation.next })
  | violation {violation : AuthorityViolation} (hazard : permits (.violation violation) s) :
      Act s { s with violations := s.violations ++ [violation] }
  | controls (messages : List ControlMessage) : Act s { s with controls := messages }
  | putJob {request : CompilationRequest} {job : JobRecord} (hazard : permits (.job request job) s) :
      Act s (s.putJob request.requestIdentity job)
  | job {identity : Digest256} {f : JobRecord → JobRecord}
      (update : ∀ old, s.jobs[identity]? = some old → (f old).frozen = old.frozen) :
      Act s (s.withJob identity f)
  | publish {id : CompilationId} {record stored : CompilationRecord}
      {validation : ValidationReport} {attempt reported : CompilationAttempt}
      {key : CompilationAttemptId} {producedAt committedAt : UnixMillis}
      (found : s.compilations[id]? = some stored) (same : record.frozen = stored.frozen)
      (committed : stored.state = .committed) (own : record.id = id)
      (foundAttempt : s.attempts[key]? = some reported) (bound : attempt.frozen = reported.frozen)
      (passed : validation.aggregate = .pass)
      (numbered : validation.id = ⟨s.header.nextValidationId⟩)
      (free : s.liveCommit id = none) :
      Act s (s.publish id validation (s.provenanceFor record attempt producedAt)
        (s.commitFor record attempt committedAt))
  | intermediate {id : CompilationId} {record stored : CompilationRecord} {provenance : Provenance}
      (found : s.compilations[id]? = some stored) (same : record.frozen = stored.frozen) :
      Act s (s.addIntermediate
        (intermediateFor ⟨s.header.nextIntermediateId⟩ record provenance))
  | drawEntry : Act s s.drawCacheEntryId
  | touch (id : CacheEntryId) : Act s (s.withCacheEntry id CacheEntry.touch)
  | invalidate {unitIdentity : Digest256} {id : CacheEntryId}
      (indexed : s.cacheIndex[unitIdentity]? = some id) :
      Act s (s.withCacheEntry id CacheEntry.invalidate)
  | indexEntry {entry : CacheEntry} (fresh : entry.id = ⟨s.header.nextCacheEntryId⟩)
      (live : entry.invalidated = false)
      (replaced : ∀ (prior : CacheEntryId) (old : CacheEntry),
        s.cacheIndex[entry.unitIdentity]? = some prior → s.cacheEntries[prior]? = some old →
        old.invalidated = true)
      (backed : s.commits[entry.commit]?.isSome ∧ s.provenances[entry.provenance]?.isSome ∧
        s.validations[entry.validation]?.isSome) :
      Act s (s.drawCacheEntryId.indexEntry entry)

end DistributedCompilation
