import DistributedCompilation.Safety.Change

/-!
# Distributed Compilation — sections that touch

Every section that only touches the tables, or does so around the one change
that is its own, keeps what is `Touched`.
-/

namespace DistributedCompilation

open Program (Keeps)

namespace Still

variable {I : Impl → Prop}

-- ---------------------------------------------------------------------------
-- Primitives
-- ---------------------------------------------------------------------------

/-- What is read is the state at that point. -/
theorem wp_getState_bind {α : Type} {f : State → M α} {Q : Except Fault α → Impl → Prop} {i : Impl} :
    Program.wp (DistributedCompilation.getState >>= f) Q i ↔ Program.wp (f i.state) Q i := Iff.rfl

theorem wp_onState_bind {α : Type} {g : State → State} {f : Unit → M α}
    {Q : Except Fault α → Impl → Prop} {i : Impl} :
    Program.wp (onState g >>= f) Q i ↔ Program.wp (f ()) Q { i with state := g i.state } := Iff.rfl

theorem wp_now_bind {α : Type} {f : UnixMillis → M α} {Q : Except Fault α → Impl → Prop} {i : Impl} :
    Program.wp (DistributedCompilation.now >>= f) Q i ↔
      Program.wp (f (i.readings.headD 0)) Q { i with readings := i.readings.tail } := Iff.rfl

theorem wp_refused {α : Type} {code : ErrorCode} {detail : Bytes} {Q : Except Fault α → Impl → Prop}
    {i : Impl} : Program.wp (DistributedCompilation.refused code detail : M α) Q i ↔
      Q (.error (.status ⟨code, detail⟩)) i := Iff.rfl

@[grind ←] theorem getState : Keeps I getState := Keeps.bind .read fun _ => .pure _

@[grind ←] theorem refused {α : Type} (code : ErrorCode) (detail : Bytes) :
    Keeps I (refused code detail : M α) := Keeps.leave _

@[grind ←] theorem orLeave {α : Type} (r : Result α) : Keeps I (orLeave r) := by
  cases r with
  | ok a => exact Keeps.pure a
  | error status => exact Keeps.leave _

@[grind ←] theorem orThrow {α : Type} (r : Except Fault α) : Keeps I (orThrow r) := by
  cases r with
  | ok a => exact Keeps.pure a
  | error fault => exact Keeps.leave _

/-- A section that needs an open coordinator leaves at once or goes on from where
it is. -/
theorem wp_ensureOpen_bind {α : Type} {f : Unit → M α} {Q : Except Fault α → Impl → Prop} {i : Impl}
    (ok : i.opened = true → Program.wp (f ()) Q i) (error : ∀ fault, Q (.error fault) i) :
    Program.wp (DistributedCompilation.ensureOpen >>= f) Q i := by
  unfold DistributedCompilation.ensureOpen
  rw [Program.wp_bind, Program.wp_read_bind]
  split
  next hopen => exact ok hopen
  next => exact error _

@[grind ←] theorem ensureOpen : Keeps I ensureOpen := by
  unfold DistributedCompilation.ensureOpen
  grind

@[grind ←] theorem ignoring {m : M (Result Unit)} (h : Keeps I m) : Keeps I (ignoring m) := by
  unfold DistributedCompilation.ignoring
  grind

@[grind ←] theorem orReturn {m : M (Result Unit)} (h : Keeps I m) : Keeps I (orReturn m) := by
  unfold DistributedCompilation.orReturn
  grind

variable [Still I]

theorem update {f : Impl → Impl} (h : ∀ i : Impl, (f i).state = i.state)
    (snapshot : ∀ i : Impl, (f i).store.snapshot = i.store.snapshot) :
    Keeps I (Program.update f : M Unit) :=
  Keeps.update fun i hi => quiet hi (h i) (.inl (snapshot i))

theorem onStore {g : Store → Store} (h : ∀ store : Store, (g store).snapshot = store.snapshot) :
    Keeps I (onStore g) :=
  update (fun _ => rfl) fun i => h i.store

@[grind ←] theorem now : Keeps I now :=
  Keeps.bind .read fun _ => Keeps.bind (update (fun _ => rfl) fun _ => rfl) fun _ => .pure _

@[grind ←] theorem ioSucceeds : Keeps I ioSucceeds :=
  Keeps.bind .read fun _ => Keeps.bind (update (fun _ => rfl) fun _ => rfl) fun _ => .pure _


-- ---------------------------------------------------------------------------
-- Journal, snapshot and blobs
-- ---------------------------------------------------------------------------

@[grind ←] theorem append (type : RecordType) (payload : Bytes) : Keeps I (append type payload) := by
  have onJournal : Keeps I (DistributedCompilation.onStore fun store =>
      { store with journal := store.journal ++ [(type, payload)] }) := onStore fun _ => rfl
  unfold DistributedCompilation.append
  grind

@[grind ←] theorem countLost : Keeps I countLost := onStore fun _ => rfl

omit [Still I] in
/-- What is on disk after a write is what was there or what was written. -/
theorem writeSnapshot (s : State) (old payload : Bytes) :
    Keeps (fun i => i.state = s ∧ (i.store.snapshot = old ∨ i.store.snapshot = payload))
      (writeSnapshot payload) := by
  have io : Keeps (fun i => i.state = s ∧ (i.store.snapshot = old ∨ i.store.snapshot = payload))
      DistributedCompilation.ioSucceeds :=
    Keeps.bind .read fun _ => Keeps.bind (Keeps.update fun _ h => h) fun _ => .pure _
  have placed : Keeps (fun i => i.state = s ∧ (i.store.snapshot = old ∨ i.store.snapshot = payload))
      (DistributedCompilation.onStore fun store => { store with snapshot := payload, journal := [] }) :=
    Keeps.update fun _ h => ⟨h.1, .inr rfl⟩
  have closed : Keeps (fun i => i.state = s ∧ (i.store.snapshot = old ∨ i.store.snapshot = payload))
      (DistributedCompilation.onStore fun store => { store with isOpen := false }) :=
    Keeps.update fun _ h => h
  unfold DistributedCompilation.writeSnapshot
  grind

omit [Still I] in
/-- The snapshot is of the state that is written. -/
theorem wroteState (s : State) (old : Bytes) :
    Keeps (fun i => i.state = s ∧ (i.store.snapshot = old ∨
      (encodeState s).fits = true ∧ i.store.snapshot = (encodeState s).bytes)) writeState := by
  intro i hi
  unfold DistributedCompilation.writeState
  refine Program.wp_seq (fun r j => j = i ∧ ∀ s, r = .ok s → s = i.state) ⟨rfl, fun _ hs => ?_⟩ ?_ ?_
  · exact (Except.ok.inj hs).symm
  · rintro s' j ⟨rfl, hs⟩
    obtain rfl := hs s' rfl
    obtain ⟨rfl, hsnapshot⟩ := hi
    unfold writes
    split
    next hfits =>
      refine Program.wp_mono (writeSnapshot j.state j.store.snapshot _ j ⟨rfl, .inl rfl⟩) ?_
      rintro - j' ⟨hstate, hafter⟩
      refine ⟨hstate, ?_⟩
      rcases hafter with hafter | hafter
      · rw [hafter]
        exact hsnapshot
      · exact .inr ⟨hfits, hafter⟩
    next => exact ⟨rfl, hsnapshot⟩
  · rintro - j ⟨rfl, -⟩
    exact hi

@[grind ←] theorem writeState : Keeps I writeState := by
  intro i hi
  refine Program.wp_mono (wroteState i.state i.store.snapshot i ⟨rfl, .inl rfl⟩) ?_
  rintro - j ⟨hstate, hsnapshot⟩
  exact quiet hi hstate hsnapshot

@[grind ←] theorem cacheBlob (digest : Digest256) (bytes : Bytes) : Keeps I (cacheBlob digest bytes) := by
  unfold DistributedCompilation.cacheBlob
  split
  · exact update (fun _ => rfl) fun _ => rfl
  · exact Keeps.pure _

section Hash

variable [HashFunction]

@[grind ←] theorem storeBlob (bytes : Bytes) : Keeps I (storeBlob bytes) := by
  have stored : Keeps I (DistributedCompilation.onStore fun store =>
      { store with blobs := store.blobs.insert (sha256 bytes) bytes }) := onStore fun _ => rfl
  unfold DistributedCompilation.storeBlob
  grind

@[grind ←] theorem loadBlob (digest : Digest256) : Keeps I (loadBlob digest) := by
  unfold DistributedCompilation.loadBlob
  grind

@[grind ←] theorem storeOutput (r : Reservation) : Keeps I (storeOutput r) := by
  unfold DistributedCompilation.storeOutput
  grind

@[grind ←] theorem loadEach {α β : Type} (digest : α → Digest256) (payload : α → Bytes → β)
    (xs : List α) : Keeps I (loadEach digest payload xs) := by
  induction xs with
  | nil => exact Keeps.pure _
  | cons x xs ih =>
    unfold DistributedCompilation.loadEach
    grind

@[grind ←] theorem loadChildren (s : State) (job : JobRecord) (children : List UInt32) :
    Keeps I (loadChildren s job children) := by
  induction children with
  | nil => exact Keeps.pure _
  | cons child children ih =>
    unfold DistributedCompilation.loadChildren
    grind

@[grind ←] theorem loadLinkInputs (s : State) (compilation : CompilationRecord)
    (unit : CompilationUnitSpec) : Keeps I (loadLinkInputs s compilation unit) := by
  unfold DistributedCompilation.loadLinkInputs
  grind

@[grind ←] theorem storeBlobs (blobs : List Blob) : Keeps I (storeBlobs blobs) := by
  unfold DistributedCompilation.storeBlobs
  grind

end Hash

end Still

namespace Noted

variable {I : Impl → Prop} [Noted I]

@[grind ←] theorem onState {g : State → State} (h : ∀ s : State, s.Notes (g s)) :
    Keeps I (onState g) := Keeps.update fun i hi => note hi (h i.state)

-- ---------------------------------------------------------------------------
-- Journal and snapshot
-- ---------------------------------------------------------------------------

@[grind ←] theorem persist (entity : Entity) : Keeps I (persist entity) := by
  unfold DistributedCompilation.persist
  grind

@[grind ←] theorem persistVoid (entity : Entity) : Keeps I (persistVoid entity) := by
  unfold DistributedCompilation.persistVoid
  grind

@[grind ←] theorem persistOrLeave (entity : Entity) : Keeps I (persistOrLeave entity) := by
  unfold DistributedCompilation.persistOrLeave
  grind

@[grind ←] theorem takeSnapshot : Keeps I takeSnapshot := by
  unfold DistributedCompilation.takeSnapshot
  grind

@[grind ←] theorem maybeSnapshot : Keeps I maybeSnapshot := by
  unfold DistributedCompilation.maybeSnapshot
  grind

@[grind ←] theorem persistEntity (entity : Entity) : Keeps I (persistEntity entity) := by
  unfold DistributedCompilation.persistEntity
  grind

@[grind ←] theorem persistCompilation (id : CompilationId) : Keeps I (persistCompilation id) := by
  unfold DistributedCompilation.persistCompilation
  grind

@[grind ←] theorem persistAttempt (id : CompilationAttemptId) : Keeps I (persistAttempt id) := by
  unfold DistributedCompilation.persistAttempt
  grind

@[grind ←] theorem persistWorker (id : WorkerId) : Keeps I (persistWorker id) := by
  unfold DistributedCompilation.persistWorker
  grind

-- ---------------------------------------------------------------------------
-- Cache, jobs, requests and diagnostics
-- ---------------------------------------------------------------------------

@[grind ←] theorem recordViolation (operation : String) (code : ErrorCode) (session : SessionId)
    (worker : WorkerId) (detail : Bytes) :
    Keeps I (recordViolation operation code session worker detail) := by
  have noted (at' : UnixMillis) : Keeps I (DistributedCompilation.onState fun s => { s with
      violations := s.violations ++
        [{ at', operation := txt operation, code, session, worker, detail }] }) :=
    onState fun s => .violation s _
  unfold DistributedCompilation.recordViolation
  refine Keeps.bind Still.getState fun s => ?_
  split
  · exact Keeps.pure _
  · exact Keeps.bind Still.now noted

@[grind ←] theorem touchCacheEntry (id : CacheEntryId) : Keeps I (touchCacheEntry id) := by
  unfold DistributedCompilation.touchCacheEntry
  grind

@[grind ←] theorem invalidateIndexed (unitIdentity : Digest256) :
    Keeps I (invalidateIndexed unitIdentity) := by
  unfold DistributedCompilation.invalidateIndexed
  refine Keeps.bind Still.getState fun s => ?_
  split <;> grind

@[grind ←] theorem recordCacheEntry (compilation : CompilationRecord) (commit : ArtifactCommit)
    (provenance : Provenance) : Keeps I (recordCacheEntry compilation commit provenance) := by
  unfold DistributedCompilation.recordCacheEntry
  grind

@[grind ←] theorem recordIntermediate (compilation : CompilationRecord) (provenance : Provenance) :
    Keeps I (recordIntermediate compilation provenance) := by
  unfold DistributedCompilation.recordIntermediate
  grind

@[grind ←] theorem markJobProgress (requestIdentity : Digest256) :
    Keeps I (markJobProgress requestIdentity) := by
  unfold DistributedCompilation.markJobProgress
  grind

@[grind ←] theorem persistCommit (workerId : WorkerId) (claim : AuthorityClaim)
    (validation : ValidationReport) (provenance : Provenance) (commit : ArtifactCommit) :
    Keeps I (persistCommit workerId claim validation provenance commit) := by
  unfold DistributedCompilation.persistCommit
  grind

@[grind ←] theorem retainRequest (request : CompilationRequest) : Keeps I (retainRequest request) := by
  have noted : Keeps I (Program.update fun i =>
      { i with retainedOrder := i.retainedOrder ++ [request.requestIdentity] } : M Unit) :=
    Still.update (fun _ => rfl) fun _ => rfl
  have evicted : Keeps I (Program.update Impl.evictRetained : M Unit) :=
    Keeps.update fun i hi => by
      have evict : i.state.Notes i.evictRetained.state := .evicted _ _
      exact Still.quiet (note hi evict) rfl (.inl rfl)
  unfold DistributedCompilation.retainRequest
  refine Keeps.bind Still.getState fun s => ?_
  split <;> grind

@[grind ←] theorem openJob (request : CompilationRequest) : Keeps I (openJob request) := by
  unfold DistributedCompilation.openJob
  grind

@[grind ←] theorem shutdownSessions : Keeps I shutdownSessions := by
  unfold DistributedCompilation.shutdownSessions
  grind

@[grind ←] theorem drainControls : Keeps I drainControls := by
  have drained : Keeps I (DistributedCompilation.onState fun s => { s with controls := [] }) :=
    onState fun s => .controls s _
  exact Keeps.bind Still.getState fun s => Keeps.bind drained fun _ => Keeps.pure _

-- ---------------------------------------------------------------------------
-- Opening and closing
-- ---------------------------------------------------------------------------

@[grind ←] theorem openStore : Keeps I openStore := by
  have opened : Keeps I (DistributedCompilation.onStore fun store => { store with isOpen := true }) :=
    Still.onStore fun _ => rfl
  unfold DistributedCompilation.openStore
  grind

@[grind ←] theorem closeCoordinator : Keeps I closeCoordinator := by
  have closed : Keeps I (DistributedCompilation.onStore fun store => { store with isOpen := false }) :=
    Still.onStore fun _ => rfl
  have ended : Keeps I (Program.update fun i => { i with opened := false } : M Unit) :=
    Still.update (fun _ => rfl) fun _ => rfl
  unfold DistributedCompilation.closeCoordinator
  grind

@[grind ←] theorem snapshotCoordinator : Keeps I snapshotCoordinator := by
  unfold DistributedCompilation.snapshotCoordinator
  grind

end Noted

namespace Touched

variable {I : Impl → Prop} [Touched I]

@[grind ←] theorem onState {g : State → State} (h : ∀ s : State, Touch s (g s)) :
    Keeps I (onState g) := Keeps.update fun i hi => touch hi (h i.state)

@[grind ←] theorem onCompilation {id : CompilationId} {f : CompilationRecord → CompilationRecord}
    (h : ∀ record, (f record).frozen = record.frozen) : Keeps I (onCompilation id f) :=
  onState fun _ => .record id h

@[grind ←] theorem onAttempt {id : CompilationAttemptId} {f : CompilationAttempt → CompilationAttempt}
    (h : ∀ attempt : CompilationAttempt, attempt.Advances (f attempt)) : Keeps I (onAttempt id f) :=
  onState fun _ => .attempt id fun attempt _ => h attempt

@[grind ←] theorem onWorker {id : WorkerId} {f : WorkerRecord → WorkerRecord}
    (h : ∀ worker : WorkerRecord, worker.Yields (f worker)) : Keeps I (onWorker id f) :=
  onState fun _ => .worker id fun worker _ => h worker

theorem withLease {id : LeaseId} {f : CompileLease → CompileLease}
    (h : ∀ lease : CompileLease, lease.Expires (f lease)) :
    Keeps I (DistributedCompilation.onState (·.withLease id f)) :=
  onState fun _ => .lease id fun lease _ => h lease

-- ---------------------------------------------------------------------------
-- Bookkeeping
-- ---------------------------------------------------------------------------

/-- A transition follows the state machine; nothing but an assignment makes an
attempt `Assigned`. -/
@[grind ←] theorem transitionAttempt (id : CompilationAttemptId) {next : AttemptState}
    (h : next ≠ .assigned) : Keeps I (transitionAttempt id next) := by
  intro i hi
  unfold DistributedCompilation.transitionAttempt
  rw [Still.wp_getState_bind]
  split
  · exact hi
  next attempt hattempt =>
    split
    · exact hi
    next moved hmoved =>
      obtain ⟨rfl, hleads⟩ := legal_of_moveAttempt hmoved
      refine touch (I := I) hi (.attempt id fun old hold => ?_)
      obtain rfl : old = attempt := Option.some.inj (hold.symm.trans hattempt)
      exact ⟨rfl, hleads, fun hnext => absurd hnext h, .inl rfl⟩

@[grind ←] theorem finishAttemptBookkeeping (id : CompilationAttemptId) :
    Keeps I (finishAttemptBookkeeping id) := by
  unfold DistributedCompilation.finishAttemptBookkeeping
  refine Keeps.bind Still.now fun finishedAt => ?_
  refine Keeps.bind (onAttempt fun _ => .same rfl rfl rfl) fun _ => Keeps.bind Still.getState fun s => ?_
  split
  · exact Keeps.pure _
  next attempt _ =>
    have revoked : Keeps I (DistributedCompilation.onState (·.withLease attempt.lease fun lease =>
        lease.revoke (txt "attempt reached " ++ attempt.state.text))) := withLease fun _ => ⟨rfl, fun _ => rfl⟩
    have ended (lastSeen : UnixMillis) : Keeps I (DistributedCompilation.onWorker attempt.worker
        (·.finished attempt lastSeen)) := onWorker fun _ =>
        ⟨rfl, rfl, fun h => h, fun h => h, Nat.le_refl _⟩
    split
    · exact Keeps.bind Still.now fun lastSeen => Keeps.bind (ended lastSeen) fun _ => revoked
    · exact revoked

section Hash

variable [HashFunction]

@[grind ←] theorem markCapabilitiesUnknown (id : WorkerId) : Keeps I (markCapabilitiesUnknown id) := by
  have distrusted : Keeps I (DistributedCompilation.onWorker id fun worker =>
      { worker with capabilities := worker.capabilities.distrusted }) :=
    onWorker fun _ => ⟨rfl, rfl, fun h => h, fun h => h, Nat.le_refl _⟩
  unfold DistributedCompilation.markCapabilitiesUnknown
  grind

@[grind ←] theorem fenceWorker (id : WorkerId) (reason : Bytes) : Keeps I (fenceWorker id reason) := by
  have fenced : Keeps I (DistributedCompilation.onWorker id fun worker =>
      { worker.unseated with generation := worker.generation.next }) :=
    onWorker fun _ => ⟨rfl, rfl, fun _ => rfl, nofun, Nat.le_succ _⟩
  have revoked : Keeps I (DistributedCompilation.onState (·.revokeLeasesFor id reason)) :=
    onState fun _ => .revoke id reason
  unfold DistributedCompilation.fenceWorker
  grind

end Hash

-- ---------------------------------------------------------------------------
-- Failures
-- ---------------------------------------------------------------------------

omit [Touched I] in
theorem failedState_ne (code : ErrorCode) : failedState code ≠ .assigned := by
  unfold failedState
  split
  · nofun
  · split
    · nofun
    · split <;> nofun

@[grind ←] theorem failAttemptLocked (id : CompilationAttemptId) (code : ErrorCode) (detail : Bytes) :
    Keeps I (failAttemptLocked id code detail) := by
  have ended : Keeps I (do
      DistributedCompilation.onAttempt id fun attempt =>
        { attempt with failure := code, failureDetail := detail }
      DistributedCompilation.finishAttemptBookkeeping id
      DistributedCompilation.persistAttempt id) := by
    refine Keeps.bind (onAttempt fun _ => .same rfl rfl rfl) fun _ => ?_
    exact Keeps.bind (finishAttemptBookkeeping id) fun _ => Noted.persistAttempt id
  unfold DistributedCompilation.failAttemptLocked
  refine Keeps.bind (transitionAttempt id (failedState_ne code)) fun moved => ?_
  refine Keeps.bind Still.getState fun s => ?_
  split
  · exact Keeps.ite (fun _ => ended) fun _ => Keeps.pure _
  · exact ended

@[grind ←] theorem propagateTo (failed : CompilationId) (identity : Digest256)
    (request : CompilationRequest) (unitId : CompilationId) :
    Keeps I (propagateTo failed identity request unitId) := by
  unfold DistributedCompilation.propagateTo
  refine Keeps.bind Still.getState fun s => ?_
  split
  · exact Keeps.pure _
  · split
    · exact Keeps.pure _
    · refine Keeps.bind Still.now fun updatedAt => ?_
      refine Keeps.bind (onState fun s => .record _ fun _ => rfl) fun _ => ?_
      refine Keeps.bind (Still.ignoring (Noted.persistCompilation _)) fun _ => ?_
      exact Keeps.bind (Noted.onState fun s => .withJob s _ _) fun _ => Noted.persistVoid _

@[grind ←] theorem propagateFanInFailure (failed : CompilationId) :
    Keeps I (propagateFanInFailure failed) := by
  unfold DistributedCompilation.propagateFanInFailure
  grind

@[grind ←] theorem scheduleRetryOrFail (id : CompilationId) (code : ErrorCode) (detail : Bytes) :
    Keeps I (scheduleRetryOrFail id code detail) := by
  unfold DistributedCompilation.scheduleRetryOrFail
  refine Keeps.bind .read fun i => ?_
  split
  · exact Keeps.pure _
  · refine Keeps.bind Still.now fun updatedAt => ?_
    refine Keeps.bind (onCompilation fun _ => rfl) fun _ => ?_
    exact propagateFanInFailure id

@[grind ←] theorem failAttempt (session : SessionId) (report : AttemptFailure) :
    Keeps I (failAttempt session report) := by
  unfold DistributedCompilation.failAttempt
  refine Keeps.bind Still.ensureOpen fun _ => Keeps.bind Still.getState fun s => ?_
  split
  · grind
  · split
    · grind
    · simp only
      split
      · grind
      · split <;> grind

@[grind ←] theorem loseAttempt (session : SessionRecord) (detail : Bytes) (id : CompilationAttemptId) :
    Keeps I (loseAttempt session detail id) := by
  unfold DistributedCompilation.loseAttempt
  grind

@[grind ←] theorem disconnectSession [HashFunction] (session : SessionId) (reason : Bytes) :
    Keeps I (disconnectSession session reason) := by
  unfold DistributedCompilation.disconnectSession
  refine Keeps.bind .read fun i => ?_
  split
  · exact Keeps.pure _
  · split
    · exact Keeps.pure _
    · refine Keeps.bind (onState fun s => .session _ fun _ => ⟨rfl, rfl, rfl, rfl, nofun⟩) fun _ => ?_
      grind

@[grind ←] theorem cancelAttempt (compilation : CompilationRecord) (reason : Bytes)
    (id : CompilationAttemptId) : Keeps I (cancelAttempt compilation reason id) := by
  unfold DistributedCompilation.cancelAttempt
  grind

@[grind ←] theorem cancelLease (compilation : CompilationId) (reason : Bytes) (id : LeaseId) :
    Keeps I (cancelLease compilation reason id) := by
  intro i hi
  unfold DistributedCompilation.cancelLease
  rw [Still.wp_getState_bind]
  split
  · exact hi
  next lease hlease =>
    split
    · exact hi
    · refine Program.wp_seq (fun _ j => I j) (touch (I := I) hi (.lease id fun old hold => ?_))
        (fun _ j hj => Noted.persistVoid _ j hj) fun _ _ hj => hj
      obtain rfl : old = lease := Option.some.inj (hold.symm.trans hlease)
      exact ⟨rfl, fun _ => rfl⟩

@[grind ←] theorem cancel (id : CompilationId) (reason : Bytes) : Keeps I (cancel id reason) := by
  unfold DistributedCompilation.cancel
  refine Keeps.bind Still.ensureOpen fun _ => Keeps.bind Still.getState fun s => ?_
  split
  · exact Still.refused _ _
  · refine Keeps.ite (fun _ => Still.refused _ _) fun _ => ?_
    refine Keeps.bind (Keeps.forEach _ fun attempt _ => cancelAttempt _ _ attempt) fun _ => ?_
    refine Keeps.bind (Keeps.forEach _ fun lease _ => cancelLease _ _ lease) fun _ => ?_
    refine Keeps.bind Still.now fun updatedAt => Keeps.bind (onCompilation fun _ => rfl) fun _ => ?_
    exact Still.orReturn (Noted.persistCompilation _)

-- ---------------------------------------------------------------------------
-- Reports
-- ---------------------------------------------------------------------------

@[grind ←] theorem reserveOutput [HashFunction] (session : SessionId) (output : ReportOutput) :
    Keeps I (reserveOutput session output) := by
  intro i hi
  unfold DistributedCompilation.reserveOutput
  refine Still.wp_ensureOpen_bind (fun _ => ?_) fun _ => hi
  rw [Program.wp_read_bind]
  have refusal {α : Type} (operation : String) (code code' : ErrorCode) (worker : WorkerId)
      (detail detail' : Bytes) : Keeps I (do
        DistributedCompilation.recordViolation operation code session worker detail
        DistributedCompilation.refused code' detail' : M α) :=
    Keeps.bind (Noted.recordViolation _ _ _ _ _) fun _ => Still.refused _ _
  simp only
  split
  next => exact refusal _ _ _ _ _ _ i hi
  next attempt hattempt =>
  split
  next => exact hi
  next compilation hcompilation =>
  split
  next => exact hi
  next record hrecord =>
  split
  next => exact hi
  next hworker =>
  split
  next => exact refusal _ _ _ _ _ _ i hi
  next howns =>
  split
  next => exact refusal _ _ _ _ _ _ i hi
  next hauthority =>
  split
  next => exact hi
  next hstate =>
  split
  next => exact hi
  next hsize =>
  split
  next => exact hi
  next hdigest =>
  -- the candidate is set while the attempt is at work
  have hset : I { i with state := (i.state.withAttempt output.claim.attempt
      (·.withCandidate output (sha256 output.bytes)) : State) } := by
    refine touch hi (.attempt _ fun old hold => ?_)
    obtain rfl : old = attempt := Option.some.inj (hold.symm.trans hattempt)
    refine ⟨rfl, .inl rfl, id, .inr ?_⟩
    rcases not_and_or.mp hstate with h | h
    · exact .inr (not_not.mp h)
    · exact .inl (not_not.mp h)
  refine Program.wp_seq (fun _ j => I j) hset (fun _ j hj => ?_) fun _ _ hj => hj
  refine Keeps.bind (Still.orReturn (transitionAttempt _ (by decide))) (fun _ => ?_) j hj
  refine Keeps.bind Still.now fun updatedAt => Keeps.bind (onCompilation fun _ => rfl) fun _ => ?_
  refine Keeps.bind (Still.orReturn (Noted.persistAttempt _)) fun _ => ?_
  exact Keeps.bind (Still.ignoring (Noted.persistCompilation _)) fun _ => Keeps.pure _

@[grind ←] theorem refuseCandidate (claim : AuthorityClaim) (validation : ValidationReport) :
    Keeps I (refuseCandidate claim validation) := by
  unfold DistributedCompilation.refuseCandidate
  refine Keeps.bind (Still.ignoring (failAttemptLocked _ _ _)) fun _ => Keeps.bind Still.now fun updatedAt => ?_
  refine Keeps.bind (onCompilation fun _ => rfl) fun _ => ?_
  grind

@[grind ←] theorem walkToCommitted (id : CompilationAttemptId) (state : AttemptState) :
    Keeps I (walkToCommitted id state) := by
  unfold DistributedCompilation.walkToCommitted
  grind

@[grind ←] theorem deduplicate (claim : AuthorityClaim) (state : AttemptState) (prior : ArtifactCommit)
    (validation : ValidationReport) : Keeps I (deduplicate claim state prior validation) := by
  unfold DistributedCompilation.deduplicate
  refine Keeps.bind (walkToCommitted _ _) fun moved => ?_
  split
  · grind
  · refine Keeps.bind (onAttempt fun _ => .same rfl rfl rfl) fun _ => ?_
    refine Keeps.bind (finishAttemptBookkeeping _) fun _ => ?_
    refine Keeps.bind (Still.ignoring (Noted.persistAttempt _)) fun _ => Keeps.bind Still.getState fun s => ?_
    split
    · refine Keeps.bind Still.now fun updatedAt => Keeps.bind (onCompilation fun _ => rfl) fun _ => ?_
      exact Keeps.bind (Still.ignoring (Noted.persistCompilation _)) fun _ => Keeps.pure _
    · exact Keeps.pure _

@[grind ←] theorem refuseDivergent (claim : AuthorityClaim) (candidate : ContentRef)
    (reproducibility : ReproducibilityRequirement) :
    Keeps I (refuseDivergent claim candidate reproducibility) := by
  unfold DistributedCompilation.refuseDivergent
  refine Keeps.bind (onCompilation fun _ => rfl) fun _ => ?_
  split
  · refine Keeps.bind (onCompilation fun _ => rfl) fun _ => ?_
    grind
  · grind

-- ---------------------------------------------------------------------------
-- Submission
-- ---------------------------------------------------------------------------

@[grind ←] theorem serveHit (id : CompilationId) (entryId : CacheEntryId) (entry : CacheEntry)
    (submission : UnitSubmission) : Keeps I (serveHit id entryId entry submission) := by
  unfold DistributedCompilation.serveHit
  refine Keeps.bind Still.getState fun s => Keeps.bind Still.now fun updatedAt => ?_
  refine Keeps.bind (onCompilation fun _ => rfl) fun _ => ?_
  grind

@[grind ←] theorem answerUnit [HashFunction] (forceRebuild : Bool) (request : CompilationRequest)
    (unit : CompilationUnitSpec) : Keeps I (answerUnit forceRebuild request unit) := by
  unfold DistributedCompilation.answerUnit
  refine Keeps.bind .read fun i => ?_
  simp only
  split
  · exact serveHit _ _ _ _
  · refine Keeps.ite (fun _ => Keeps.pure _) fun _ => ?_
    exact Keeps.bind (onCompilation fun _ => rfl) fun _ => Keeps.pure _

-- ---------------------------------------------------------------------------
-- Workers
-- ---------------------------------------------------------------------------

omit [Touched I] in
@[grind ←] theorem sessionWorker (session : SessionId) : Keeps I (sessionWorker session) := by
  unfold DistributedCompilation.sessionWorker
  grind

omit [Touched I] in
/-- The worker of a session is the one in the table. -/
theorem wp_sessionWorker (session : SessionId) (i : Impl) :
    Program.wp (DistributedCompilation.sessionWorker session) (fun r j => j = i ∧ ∀ found, r = .ok found →
      i.state.sessions[session]? = some found.1 ∧ i.state.workers[found.1.worker]? = some found.2) i := by
  unfold DistributedCompilation.sessionWorker
  rw [Still.wp_getState_bind]
  have refusal {α : Type} (code : ErrorCode) (detail : Bytes) {P : α → Prop} :
      Program.wp (DistributedCompilation.refused code detail : M α)
        (fun r j => j = i ∧ ∀ found, r = .ok found → P found) i := by
    rw [Still.wp_refused]
    exact ⟨rfl, by simp⟩
  split
  next => exact refusal _ _
  next record hrecord =>
  split
  next => exact refusal _ _
  next =>
  split
  next => exact refusal _ _
  next worker hworker =>
    refine ⟨rfl, fun found hfound => ?_⟩
    obtain rfl := Except.ok.inj hfound
    exact ⟨hrecord, hworker⟩

@[grind ←] theorem advertiseCapabilities [HashFunction] (session : SessionId) (capabilities : WorkerCapabilities) :
    Keeps I (advertiseCapabilities session capabilities) := by
  intro i hi
  unfold DistributedCompilation.advertiseCapabilities
  refine Still.wp_ensureOpen_bind (fun _ => ?_) fun _ => hi
  refine Program.wp_seq _ (wp_sessionWorker session i) ?_ fun _ j hj => hj.1 ▸ hi
  rintro ⟨record, worker⟩ j ⟨rfl, hfound⟩
  obtain ⟨-, hworker⟩ := hfound _ rfl
  simp only at hworker ⊢
  split
  · exact Keeps.bind (Noted.recordViolation _ _ _ _ _) (fun _ => Still.refused _ _) j hi
  · refine Program.wp_seq (fun _ k => I k ∧ k.state = j.state) (Still.orThrow _ j ⟨hi, rfl⟩) ?_
      fun _ k hk => hk.1
    intro updated k hk
    refine Program.wp_seq (fun _ k => I k ∧ k.state = j.state) (Still.now k hk) ?_ fun _ k hk => hk.1
    rintro lastSeen k' ⟨hk', hstate⟩
    refine Program.wp_seq (fun _ k => I k) (touch (I := I) hk' (.worker _ fun old hold => ?_))
      (fun _ k hk => Still.orReturn (Noted.persistEntity _) k hk) fun _ _ hk => hk
    rw [hstate] at hold
    obtain rfl : old = worker := Option.some.inj (hold.symm.trans hworker)
    exact ⟨rfl, rfl, id, id, Nat.le_refl _⟩

@[grind ←] theorem heartbeat (session : SessionId) : Keeps I (heartbeat session) := by
  unfold DistributedCompilation.heartbeat
  refine Keeps.bind Still.ensureOpen fun _ => Keeps.bind Still.getState fun s => ?_
  split
  · grind
  · refine Keeps.ite (fun _ => Still.refused _ _) fun _ => Keeps.bind Still.now fun lastSeen => ?_
    refine Keeps.bind (onState fun s => .session _ fun _ => ⟨rfl, rfl, rfl, rfl, fun h => h⟩) fun _ => ?_
    have seen : Keeps I (DistributedCompilation.onWorker ‹SessionRecord›.worker fun worker =>
        { worker with
          lastSeen
          health := if worker.health = .suspect then .healthy else worker.health }) :=
      onWorker fun _ => ⟨rfl, rfl, fun h => h, fun h => h, Nat.le_refl _⟩
    grind

@[grind ←] theorem beginCompile (claim : AuthorityClaim) : Keeps I (beginCompile claim) := by
  unfold DistributedCompilation.beginCompile
  refine Keeps.bind Still.ensureOpen fun _ => Keeps.bind Still.getState fun s => ?_
  split
  · grind
  · split
    · grind
    · split
      · grind
      · refine Keeps.ite (fun _ => Still.refused _ _) fun _ => ?_
        have persisted : Keeps I (do
            DistributedCompilation.orReturn (DistributedCompilation.persistAttempt claim.attempt)
            DistributedCompilation.orReturn
              (DistributedCompilation.persistCompilation claim.compilation)) := by grind
        split
        · refine Keeps.bind (Still.orReturn (transitionAttempt _ (by decide))) fun _ => ?_
          refine Keeps.bind Still.now fun startedAt => ?_
          refine Keeps.bind (onAttempt fun _ => .same rfl rfl rfl) fun _ => ?_
          exact Keeps.bind (onCompilation fun _ => rfl) fun _ => persisted
        · exact persisted

@[grind ←] theorem handleValidateResponse (session : SessionId) (mode : UInt32)
    (evidence : EvidenceClass) (digest : Digest256) (detail : Bytes) :
    Keeps I (handleValidateResponse session mode evidence digest detail) := by
  have suspected (key : WorkerId) : Keeps I (DistributedCompilation.onWorker key fun worker =>
      { worker with trustedEvidenceFresh := false, ready := false, health := .suspect }) :=
    onWorker fun _ => ⟨rfl, rfl, fun h => h, nofun, Nat.le_refl _⟩
  have seen (key : WorkerId) (lastSeen : UnixMillis) :
      Keeps I (DistributedCompilation.onWorker key fun worker =>
        { worker with trustedEvidenceFresh := evidence = .real, lastSeen }) :=
    onWorker fun _ => ⟨rfl, rfl, fun h => h, fun h => h, Nat.le_refl _⟩
  unfold DistributedCompilation.handleValidateResponse
  refine Keeps.bind Still.ensureOpen fun _ => Keeps.bind (sessionWorker _) fun found => ?_
  refine Keeps.ite (fun _ => Still.refused _ _) fun _ => Keeps.ite (fun _ => Keeps.pure _) fun _ => ?_
  refine Keeps.ite (fun _ => ?_) fun _ => ?_
  · refine Keeps.bind (suspected _) fun _ => Keeps.bind (Noted.recordViolation _ _ _ _ _) fun _ => ?_
    exact Still.orReturn (Noted.persistWorker _)
  · refine Keeps.bind Still.now fun lastSeen => Keeps.bind (seen _ _) fun _ => ?_
    exact Still.orReturn (Noted.persistWorker _)

end Touched

end DistributedCompilation
