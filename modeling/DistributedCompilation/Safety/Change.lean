import DistributedCompilation.Codec.RegistryRoundTrip
import DistributedCompilation.Protocol.Act

/-!
# Distributed Compilation — changes within a lifetime

What the sections between two opens do to the tables. A `Touch` moves entries
along without rebinding them; every section makes some. A `Change` issues,
creates, supersedes or publishes something and belongs to one section each; an
`Admission` registers a worker or makes it ready.

An invariant that survives touches is `Touched`, one that survives changes as
well is `Tracked`, with admissions `Lasting`. Each is a property of the state and
of the snapshot on disk only (`Still`).
-/

namespace DistributedCompilation

variable [HashFunction]

-- ---------------------------------------------------------------------------
-- Entries
-- ---------------------------------------------------------------------------

/-- An update of an attempt: the binding stays, the state follows the state
machine, the candidate only changes while the attempt is at work. -/
structure CompilationAttempt.Advances (attempt next : CompilationAttempt) : Prop where
  frozen : next.frozen = attempt.frozen
  leads : attempt.state.Leads next.state
  issued : next.state = .assigned → attempt.state = .assigned
  candidate : next.candidate = attempt.candidate ∨ attempt.state = .preparing ∨
    attempt.state = .running

/-- An update of a worker that does not restore its readiness. -/
structure WorkerRecord.Yields (worker next : WorkerRecord) : Prop where
  id : next.id = worker.id
  boot : next.boot = worker.boot
  fenced : worker.fenced = true → next.fenced = true
  ready : next.ready = true → worker.ready = true
  generation : worker.generation.value ≤ next.generation.value

/-- An update of a lease: it stays bound, and revoked once it is. -/
structure CompileLease.Expires (lease next : CompileLease) : Prop where
  frozen : next.frozen = lease.frozen
  revoked : lease.revoked = true → next.revoked = true

/-- The counters of the header that only number cache entries, intermediates and
journal records. -/
def StateHeader.stable (header : StateHeader) : StateHeader :=
  { header with recordsSinceSnapshot := 0, nextCacheEntryId := 0, nextIntermediateId := 0 }

/-- Registries, cache, jobs, requests, intermediates and diagnostics aside, the
states are the same. -/
structure State.Aside (s s' : State) : Prop where
  stable : s'.header.stable = s.header.stable
  workers : s'.workers = s.workers
  sessions : s'.sessions = s.sessions
  compilations : s'.compilations = s.compilations
  attempts : s'.attempts = s.attempts
  commits : s'.commits = s.commits
  authoritative : s'.authoritative = s.authoritative
  provenances : s'.provenances = s.provenances
  validations : s'.validations = s.validations
  leases : s'.leases = s.leases

/-- Cache, jobs, requests, intermediates and diagnostics aside, the states are the
same. -/
structure State.Notes (s s' : State) : Prop extends s.Aside s' where
  registries : s'.registries = s.registries

omit [HashFunction] in
theorem CompilationAttempt.Advances.same {attempt next : CompilationAttempt}
    (frozen : next.frozen = attempt.frozen) (state : next.state = attempt.state)
    (candidate : next.candidate = attempt.candidate) : attempt.Advances next :=
  ⟨frozen, .inl state, fun h => state.symm.trans h, .inl candidate⟩

/-- A worker of that id is ready and not fenced. -/
def State.Able (s : State) (id : WorkerId) : Prop :=
  ∃ (key : WorkerId) (worker : WorkerRecord), s.workers[key]? = some worker ∧ worker.id = id ∧
    worker.ready = true ∧ worker.fenced = false

/-- Workers are kept under their ids. -/
def State.Seated (s : State) : Prop :=
  ∀ (key : WorkerId) (worker : WorkerRecord), s.workers[key]? = some worker → worker.id = key

/-- A further attempt of the compilation joins nobody, or as a duplicate a first one at
another worker. -/
def State.Vacant (s : State) (id : CompilationId) (speculative : Bool) (worker : WorkerId) : Prop :=
  ∀ record : CompilationRecord, s.compilations[id]? = some record → ∀ key ∈ record.attempts,
    ∀ attempt : CompilationAttempt, s.attempts[key]? = some attempt →
      holdsCommitAuthority attempt.state = true →
      speculative = true ∧ attempt.speculative = false ∧ (s.Seated → attempt.worker ≠ worker)

-- ---------------------------------------------------------------------------
-- Touches and changes
-- ---------------------------------------------------------------------------

/-- What any section may do. -/
inductive Touch (s : State) : State → Prop
  | note {s' : State} (h : s.Notes s') : Touch s s'
  | record (id : CompilationId) {f : CompilationRecord → CompilationRecord}
      (h : ∀ record, (f record).frozen = record.frozen) : Touch s (s.withCompilation id f)
  | attempt (id : CompilationAttemptId) {f : CompilationAttempt → CompilationAttempt}
      (h : ∀ attempt, s.attempts[id]? = some attempt → attempt.Advances (f attempt)) :
      Touch s (s.withAttempt id f)
  | worker (id : WorkerId) {f : WorkerRecord → WorkerRecord}
      (h : ∀ worker, s.workers[id]? = some worker → worker.Yields (f worker)) :
      Touch s (s.withWorker id f)
  | lease (id : LeaseId) {f : CompileLease → CompileLease}
      (h : ∀ lease, s.leases[id]? = some lease → lease.Expires (f lease)) :
      Touch s (s.withLease id f)
  | revoke (worker : WorkerId) (reason : Bytes) : Touch s (s.revokeLeasesFor worker reason)
  | session (id : SessionId) {f : SessionRecord → SessionRecord}
      (h : ∀ session, (f session).Continues session) : Touch s (s.withSession id f)

/-- What one section each does. -/
inductive Change (s : State) : State → Prop
  | resolve {s' : State} (h : s.Aside s') : Change s s'
  | create {request : CompilationRequest} {unit : CompilationUnitSpec} {createdAt : UnixMillis}
      (fresh : s.compilations[deriveCompilationId unit.identityDigest]? = none) :
      Change s (s.create (newCompilation request unit createdAt))
  | supersede {id : CompilationId} {record : CompilationRecord}
      (found : s.compilations[id]? = some record) (committed : record.state = .committed) :
      Change s (s.supersede id)
  | withdraw {id : CompilationId} {prior : ArtifactCommitId} (found : s.authoritative[id]? = some prior)
      (superseded : ∀ commit : ArtifactCommit, s.commits[prior]? = some commit →
        commit.superseded = true) : Change s (s.withdraw id)
  | lower (id : CompilationId) (index : UInt32) :
      Change s (s.withCompilation id fun record => { record with unitIndex := index })
  | assign {id : CompilationId} {compilation : CompilationRecord} {worker : WorkerRecord}
      {speculative : Bool} {createdAt issuedAt updatedAt : UnixMillis}
      (found : s.compilations[id]? = some compilation) (able : s.Able worker.id)
      (vacant : s.Vacant id speculative worker.id) :
      Change s (s.assign id (s.attemptFor worker compilation speculative createdAt)
        ((s.attemptFor worker compilation speculative createdAt).leaseOf issuedAt) updatedAt)
  | publish {id : CompilationId} {record stored : CompilationRecord}
      {validation : ValidationReport} {attempt reported : CompilationAttempt}
      {key : CompilationAttemptId} {producedAt committedAt : UnixMillis}
      (found : s.compilations[id]? = some stored) (same : record.frozen = stored.frozen)
      (foundAttempt : s.attempts[key]? = some reported) (bound : attempt.frozen = reported.frozen)
      (candidate : attempt.candidate = reported.candidate)
      (passed : validation.aggregate = .pass)
      (numbered : validation.id = ⟨s.header.nextValidationId⟩)
      (free : s.liveCommit id = none) :
      Change s (s.publish id validation (s.provenanceFor record attempt producedAt)
        (s.commitFor record attempt committedAt))

/-- What a worker does to its own entry. -/
inductive Admission (s : State) : State → Prop
  | ready {sessionId : SessionId} {session : SessionRecord} {worker : WorkerRecord}
      {lastSeen : UnixMillis} (found : s.sessions[sessionId]? = some session)
      (speaksFor : s.workers[session.worker]? = some worker) (boot : worker.boot = session.boot) :
      Admission s (s.withWorker session.worker fun worker =>
        { worker with ready := true, health := .healthy, lastSeen })
  | enroll {worker : WorkerRecord} {session : SessionRecord}
      (number : session.id = ⟨s.header.nextSessionId⟩)
      (speaksFor : session.worker = worker.id ∧ session.boot = worker.boot)
      (unfenced : worker.fenced = false) (waiting : worker.ready = false) :
      Admission s (s.enroll worker session)

/-- The snapshot on disk is the old one or that of the state. -/
def Impl.Wrote (i i' : Impl) : Prop :=
  i'.store.snapshot = i.store.snapshot ∨
    (encodeState i.state).fits = true ∧ i'.store.snapshot = (encodeState i.state).bytes

/-- Properties of the state and the snapshot. -/
class Still (I : Impl → Prop) : Prop where
  quiet : ∀ {i i' : Impl}, I i → i'.state = i.state → i.Wrote i' → I i'

/-- Properties that survive what is written down aside. -/
class Noted (I : Impl → Prop) : Prop extends Still I where
  note : ∀ {i : Impl} {s' : State}, I i → i.state.Notes s' → I { i with state := s' }

/-- Properties that survive what any section may do. -/
class Touched (I : Impl → Prop) : Prop extends Still I where
  touch : ∀ {i : Impl} {s' : State}, I i → Touch i.state s' → I { i with state := s' }

/-- Properties that survive whatever is no admission of a worker. -/
class Tracked (I : Impl → Prop) : Prop extends Touched I where
  change : ∀ {i : Impl} {s' : State}, I i → Change i.state s' → I { i with state := s' }

/-- Properties that survive everything within a lifetime. -/
class Lasting (I : Impl → Prop) : Prop extends Tracked I where
  admission : ∀ {i : Impl} {s' : State}, I i → Admission i.state s' → I { i with state := s' }

/-- Where the state stays the same, so does what is known of it. -/
instance Still.at {I : Impl → Prop} [Still I] (s : State) : Still fun i => I i ∧ i.state = s where
  quiet hi hstate hwrote := ⟨Still.quiet hi.1 hstate hwrote, hstate.trans hi.2⟩

instance Touched.noted {I : Impl → Prop} [Touched I] : Noted I where
  note hi h := Touched.touch hi (.note h)

-- ---------------------------------------------------------------------------
-- Notes
-- ---------------------------------------------------------------------------

omit [HashFunction] in
theorem State.Aside.trans {s s' s'' : State} (h : s.Aside s') (h' : s'.Aside s'') : s.Aside s'' where
  stable := h'.stable.trans h.stable
  workers := h'.workers.trans h.workers
  sessions := h'.sessions.trans h.sessions
  compilations := h'.compilations.trans h.compilations
  attempts := h'.attempts.trans h.attempts
  commits := h'.commits.trans h.commits
  authoritative := h'.authoritative.trans h.authoritative
  provenances := h'.provenances.trans h.provenances
  validations := h'.validations.trans h.validations
  leases := h'.leases.trans h.leases

namespace State.Notes

omit [HashFunction]

@[grind ←] theorem refl (s : State) : s.Notes s :=
  ⟨⟨rfl, rfl, rfl, rfl, rfl, rfl, rfl, rfl, rfl, rfl⟩, rfl⟩

theorem trans {s s' s'' : State} (h : s.Notes s') (h' : s'.Notes s'') : s.Notes s'' :=
  ⟨h.toAside.trans h'.toAside, h'.registries.trans h.registries⟩

@[grind ←] theorem withCacheEntry (s : State) (id : CacheEntryId) (f : CacheEntry → CacheEntry) :
    s.Notes (s.withCacheEntry id f) := ⟨⟨rfl, rfl, rfl, rfl, rfl, rfl, rfl, rfl, rfl, rfl⟩, rfl⟩

@[grind ←] theorem withJob (s : State) (identity : Digest256) (f : JobRecord → JobRecord) :
    s.Notes (s.withJob identity f) := ⟨⟨rfl, rfl, rfl, rfl, rfl, rfl, rfl, rfl, rfl, rfl⟩, rfl⟩

@[grind ←] theorem putJob (s : State) (identity : Digest256) (job : JobRecord) :
    s.Notes (s.putJob identity job) := ⟨⟨rfl, rfl, rfl, rfl, rfl, rfl, rfl, rfl, rfl, rfl⟩, rfl⟩

@[grind ←] theorem control (s : State) (messages : List ControlMessage) :
    s.Notes (s.control messages) := ⟨⟨rfl, rfl, rfl, rfl, rfl, rfl, rfl, rfl, rfl, rfl⟩, rfl⟩

@[grind ←] theorem counted (s : State) : s.Notes s.counted :=
  ⟨⟨rfl, rfl, rfl, rfl, rfl, rfl, rfl, rfl, rfl, rfl⟩, rfl⟩

@[grind ←] theorem uncounted (s : State) : s.Notes s.uncounted :=
  ⟨⟨rfl, rfl, rfl, rfl, rfl, rfl, rfl, rfl, rfl, rfl⟩, rfl⟩

@[grind ←] theorem drawCacheEntryId (s : State) : s.Notes s.drawCacheEntryId :=
  ⟨⟨rfl, rfl, rfl, rfl, rfl, rfl, rfl, rfl, rfl, rfl⟩, rfl⟩

@[grind ←] theorem indexEntry (s : State) (entry : CacheEntry) : s.Notes (s.indexEntry entry) :=
  ⟨⟨rfl, rfl, rfl, rfl, rfl, rfl, rfl, rfl, rfl, rfl⟩, rfl⟩

@[grind ←] theorem addIntermediate (s : State) (artifact : IntermediateArtifact) :
    s.Notes (s.addIntermediate artifact) := ⟨⟨rfl, rfl, rfl, rfl, rfl, rfl, rfl, rfl, rfl, rfl⟩, rfl⟩

@[grind ←] theorem retain (s : State) (request : CompilationRequest) : s.Notes (s.retain request) :=
  ⟨⟨rfl, rfl, rfl, rfl, rfl, rfl, rfl, rfl, rfl, rfl⟩, rfl⟩

theorem violation (s : State) (violations : List AuthorityViolation) : s.Notes { s with violations } :=
  ⟨⟨rfl, rfl, rfl, rfl, rfl, rfl, rfl, rfl, rfl, rfl⟩, rfl⟩

theorem controls (s : State) (controls : List ControlMessage) : s.Notes { s with controls } :=
  ⟨⟨rfl, rfl, rfl, rfl, rfl, rfl, rfl, rfl, rfl, rfl⟩, rfl⟩

theorem evicted (s : State) (requests : Table Digest256 CompilationRequest) :
    s.Notes { s with requests } := ⟨⟨rfl, rfl, rfl, rfl, rfl, rfl, rfl, rfl, rfl, rfl⟩, rfl⟩

end State.Notes

/-- A property, and a state from which notes lead here. -/
structure Impl.Past (I : Impl → Prop) (s : State) (i : Impl) : Prop where
  keeps : I i
  notes : s.Notes i.state

omit [HashFunction] in
/-- What is known up to notes survives them. -/
instance Impl.Past.noted {I : Impl → Prop} [Noted I] (s : State) : Noted (Impl.Past I s) where
  quiet hi hstate hwrote := ⟨Still.quiet hi.keeps hstate hwrote, hstate ▸ hi.notes⟩
  note hi h := ⟨Noted.note hi.keeps h, hi.notes.trans h⟩

end DistributedCompilation
