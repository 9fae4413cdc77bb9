import DistributedCompilation.Safety.Budget
import DistributedCompilation.Safety.Held
import DistributedCompilation.Lib.Fifo

/-!
# Distributed Compilation — the cache of blobs

Blobs enter and leave the cache through `store_blob` and `load_blob` alone.
Every copy there is of the blob it is filed under and the bookkeeping of the
cache is exact, in every system a run reaches, whatever happens to the files of
the artifact directory between two steps.
-/

namespace DistributedCompilation

open Program (Keeps)

-- ---------------------------------------------------------------------------
-- Sections and the cache
-- ---------------------------------------------------------------------------

/-- The cache of blobs with its bookkeeping. -/
def Impl.bank (i : Impl) : Table Digest256 Bytes × List Digest256 × Nat :=
  (i.blobCache, i.blobCacheOrder, i.blobCacheBytes)

/-- Properties of the cache of blobs that survive another blob. -/
class Banked [HashFunction] (I : Impl → Prop) : Prop where
  banked : ∀ {i j : Impl}, I i → j.bank = i.bank → I j
  deposit : ∀ {i : Impl} (bytes : Bytes), I i → i.blobCache[sha256 bytes]? = none →
    Program.wp (cacheBlob (sha256 bytes) bytes) (fun _ j => I j) i

variable [HashFunction]

set_option linter.unusedSectionVars false

namespace Banked

variable {I : Impl → Prop} [Banked I]

theorem update {f : Impl → Impl} (bank : ∀ i : Impl, (f i).bank = i.bank) :
    Keeps I (Program.update f : M Unit) := Keeps.update fun i hi => banked hi (bank i)

-- ---------------------------------------------------------------------------
-- Primitives
-- ---------------------------------------------------------------------------

@[grind ←] theorem getState : Keeps I getState := Keeps.bind .read fun _ => .pure _

@[grind ←] theorem onState (f : State → State) : Keeps I (onState f) :=
  update fun _ => rfl

@[grind ←] theorem onStore (f : Store → Store) : Keeps I (onStore f) :=
  update fun _ => rfl

@[grind ←] theorem refused {α : Type} (code : ErrorCode) (detail : Bytes) :
    Keeps I (refused code detail : M α) := Keeps.leave _

@[grind ←] theorem orLeave {α : Type} (r : Result α) : Keeps I (orLeave r) := by
  cases r with
  | ok a => exact Keeps.pure a
  | error status => exact Keeps.leave _

@[grind ←] theorem orThrow {α : Type} (r : Except Fault α) : Keeps I (orThrow r) := by
  cases r with
  | ok a => exact Keeps.pure a
  | error fault => exact Keeps.leave _

@[grind ←] theorem now : Keeps I now :=
  Keeps.bind .read fun _ => Keeps.bind (update fun _ => rfl) fun _ => .pure _

@[grind ←] theorem ioSucceeds : Keeps I ioSucceeds :=
  Keeps.bind .read fun _ => Keeps.bind (update fun _ => rfl) fun _ => .pure _

@[grind ←] theorem ensureOpen : Keeps I ensureOpen := by
  unfold DistributedCompilation.ensureOpen
  grind

@[grind ←] theorem ignoring {m : M (Result Unit)} (h : Keeps I m) : Keeps I (ignoring m) := by
  unfold DistributedCompilation.ignoring
  grind

@[grind ←] theorem orReturn {m : M (Result Unit)} (h : Keeps I m) : Keeps I (orReturn m) := by
  unfold DistributedCompilation.orReturn
  grind

@[grind ←] theorem onCompilation (id : CompilationId) (f : CompilationRecord → CompilationRecord) :
    Keeps I (onCompilation id f) := onState _

@[grind ←] theorem onAttempt (id : CompilationAttemptId) (f : CompilationAttempt → CompilationAttempt) :
    Keeps I (onAttempt id f) := onState _

@[grind ←] theorem onWorker (id : WorkerId) (f : WorkerRecord → WorkerRecord) :
    Keeps I (onWorker id f) := onState _

-- ---------------------------------------------------------------------------
-- Journal, snapshot and blobs
-- ---------------------------------------------------------------------------

@[grind ←] theorem append (type : RecordType) (payload : Bytes) : Keeps I (append type payload) := by
  unfold DistributedCompilation.append
  grind

@[grind ←] theorem countLost : Keeps I countLost := onStore _

@[grind ←] theorem writeSnapshot (payload : Bytes) : Keeps I (writeSnapshot payload) := by
  unfold DistributedCompilation.writeSnapshot
  grind

@[grind ←] theorem persist (entity : Entity) : Keeps I (persist entity) := by
  unfold DistributedCompilation.persist
  grind

@[grind ←] theorem persistVoid (entity : Entity) : Keeps I (persistVoid entity) := by
  unfold DistributedCompilation.persistVoid
  grind

@[grind ←] theorem persistOrLeave (entity : Entity) : Keeps I (persistOrLeave entity) := by
  unfold DistributedCompilation.persistOrLeave
  grind

@[grind ←] theorem writeState : Keeps I writeState := by
  unfold DistributedCompilation.writeState
  grind

@[grind ←] theorem takeSnapshot : Keeps I takeSnapshot := by
  unfold DistributedCompilation.takeSnapshot
  grind

@[grind ←] theorem maybeSnapshot : Keeps I maybeSnapshot := by
  unfold DistributedCompilation.maybeSnapshot
  grind

@[grind ←] theorem persistEntity (entity : Entity) : Keeps I (persistEntity entity) := by
  unfold DistributedCompilation.persistEntity
  grind

@[grind ←] theorem persistCompilation (id : CompilationId) : Keeps I (persistCompilation id) := by
  unfold DistributedCompilation.persistCompilation
  grind

@[grind ←] theorem persistAttempt (id : CompilationAttemptId) : Keeps I (persistAttempt id) := by
  unfold DistributedCompilation.persistAttempt
  grind

@[grind ←] theorem persistWorker (id : WorkerId) : Keeps I (persistWorker id) := by
  unfold DistributedCompilation.persistWorker
  grind

theorem storeBlob (bytes : Bytes) : Keeps I (storeBlob bytes) := by
  intro i hi
  have deposit {j : Impl} (hj : I j) (hcache : j.blobCache = i.blobCache) (stored : Result Unit) :
      Program.wp (do
        if stored.isOk ∧ ¬i.blobCache.contains (sha256 bytes) then
          DistributedCompilation.cacheBlob (sha256 bytes) bytes
        pure stored) (fun _ k => I k) j := by
    split
    · next h =>
      have hnone : j.blobCache[sha256 bytes]? = none := by
        rw [hcache]
        exact Table.contains_eq_false.mp (Bool.eq_false_iff.mpr h.2)
      refine Program.wp_seq _ (Banked.deposit bytes hj hnone) (fun _ k hk => hk) fun _ _ hk => hk
    · exact hj
  unfold DistributedCompilation.storeBlob
  rw [Program.wp_read_bind]
  dsimp only
  split
  · exact hi
  · split
    · refine Program.wp_seq (fun _ j => I j ∧ j.blobCache = i.blobCache) ⟨ioSucceeds i hi, rfl⟩ ?_ ?_
      · rintro written j ⟨hj, hcache⟩
        split
        · exact deposit (j := { j with store :=
            { j.store with blobs := j.store.blobs.insert (sha256 bytes) bytes } }) (banked hj rfl) hcache (.ok ())
        · exact deposit hj hcache _
      · rintro fault j ⟨hj, -⟩
        exact hj
    · exact deposit hi rfl _

@[grind ←] theorem storeOutput (r : Reservation) : Keeps I (storeOutput r) := orReturn (storeBlob _)

theorem loadBlob (digest : Digest256) : Keeps I (loadBlob digest) := by
  intro i hi
  unfold DistributedCompilation.loadBlob
  rw [Program.wp_read_bind]
  split
  · exact hi
  · next hnone =>
    split
    · split
      · exact hi
      · split
        · exact hi
        · split
          · exact hi
          · next hdigest =>
            split
            · exact hi
            · obtain rfl := not_not.mp hdigest
              exact Program.wp_seq _ (Banked.deposit _ hi hnone) (fun _ k hk => hk) fun _ _ hk => hk
    · exact hi

-- ---------------------------------------------------------------------------
-- Attempts
-- ---------------------------------------------------------------------------

@[grind ←] theorem transitionAttempt (id : CompilationAttemptId) (next : AttemptState) :
    Keeps I (transitionAttempt id next) := by
  unfold DistributedCompilation.transitionAttempt
  grind

@[grind ←] theorem finishAttemptBookkeeping (id : CompilationAttemptId) :
    Keeps I (finishAttemptBookkeeping id) := by
  unfold DistributedCompilation.finishAttemptBookkeeping
  grind

@[grind ←] theorem failAttemptLocked (id : CompilationAttemptId) (code : ErrorCode) (detail : Bytes) :
    Keeps I (failAttemptLocked id code detail) := by
  unfold DistributedCompilation.failAttemptLocked
  grind

@[grind ←] theorem recordViolation (operation : String) (code : ErrorCode) (session : SessionId)
    (worker : WorkerId) (detail : Bytes) :
    Keeps I (recordViolation operation code session worker detail) := by
  unfold DistributedCompilation.recordViolation
  grind

-- ---------------------------------------------------------------------------
-- Commits
-- ---------------------------------------------------------------------------

@[grind ←] theorem refuseCandidate (claim : AuthorityClaim) (validation : ValidationReport) :
    Keeps I (refuseCandidate claim validation) := by
  unfold DistributedCompilation.refuseCandidate
  grind

@[grind ←] theorem walkToCommitted (id : CompilationAttemptId) (state : AttemptState) :
    Keeps I (walkToCommitted id state) := by
  unfold DistributedCompilation.walkToCommitted
  grind

@[grind ←] theorem deduplicate (claim : AuthorityClaim) (state : AttemptState) (prior : ArtifactCommit)
    (validation : ValidationReport) : Keeps I (deduplicate claim state prior validation) := by
  unfold DistributedCompilation.deduplicate
  refine Keeps.bind (walkToCommitted _ _) fun moved => ?_
  split
  · grind
  · refine Keeps.bind (onAttempt _ _) fun _ => Keeps.bind (finishAttemptBookkeeping _) fun _ => ?_
    refine Keeps.bind (ignoring (persistAttempt _)) fun _ => Keeps.bind getState fun s => ?_
    split
    · refine Keeps.bind now fun updatedAt => Keeps.bind (onCompilation _ _) fun _ => ?_
      exact Keeps.bind (ignoring (persistCompilation _)) fun _ => Keeps.pure _
    · exact Keeps.pure _

@[grind ←] theorem refuseDivergent (claim : AuthorityClaim) (candidate : ContentRef)
    (reproducibility : ReproducibilityRequirement) :
    Keeps I (refuseDivergent claim candidate reproducibility) := by
  unfold DistributedCompilation.refuseDivergent
  refine Keeps.bind (onCompilation _ _) fun _ => ?_
  split
  · exact Keeps.bind (onCompilation _ _) fun _ => by grind
  · grind

@[grind ←] theorem invalidateIndexed (unitIdentity : Digest256) :
    Keeps I (invalidateIndexed unitIdentity) := by
  unfold DistributedCompilation.invalidateIndexed
  grind

@[grind ←] theorem recordCacheEntry (compilation : CompilationRecord) (commit : ArtifactCommit)
    (provenance : Provenance) : Keeps I (recordCacheEntry compilation commit provenance) := by
  unfold DistributedCompilation.recordCacheEntry
  grind

@[grind ←] theorem recordIntermediate (compilation : CompilationRecord) (provenance : Provenance) :
    Keeps I (recordIntermediate compilation provenance) := by
  unfold DistributedCompilation.recordIntermediate
  grind

@[grind ←] theorem markJobProgress (requestIdentity : Digest256) :
    Keeps I (markJobProgress requestIdentity) := by
  unfold DistributedCompilation.markJobProgress
  grind

@[grind ←] theorem persistCommit (workerId : WorkerId) (claim : AuthorityClaim)
    (validation : ValidationReport) (provenance : Provenance) (commit : ArtifactCommit) :
    Keeps I (persistCommit workerId claim validation provenance commit) := by
  unfold DistributedCompilation.persistCommit
  grind

@[grind ←] theorem commitFirst (session : SessionId) (workerId : WorkerId) (claim : AuthorityClaim)
    (validation : ValidationReport) (compilation : CompilationRecord) :
    Keeps I (commitFirst session workerId claim validation compilation) := by
  unfold DistributedCompilation.commitFirst
  refine Keeps.bind (orReturn (transitionAttempt _ _)) fun _ => ?_
  refine Keeps.bind now fun _ => Keeps.bind (onCompilation _ _) fun _ => ?_
  refine Keeps.bind getState fun s => Keeps.bind now fun _ => Keeps.bind now fun _ => ?_
  refine Keeps.bind (onAttempt _ _) fun _ => Keeps.bind (orReturn (transitionAttempt _ _)) fun _ => ?_
  refine Keeps.bind (onCompilation _ _) fun _ => Keeps.bind (orReturn (transitionAttempt _ _)) fun _ => ?_
  refine Keeps.bind now fun _ => Keeps.bind (onCompilation _ _) fun _ => ?_
  refine Keeps.bind (finishAttemptBookkeeping _) fun _ => Keeps.bind (onState _) fun _ => ?_
  refine Keeps.bind (recordIntermediate _ _) fun _ => Keeps.bind (recordCacheEntry _ _ _) fun _ => ?_
  refine Keeps.bind (markJobProgress _) fun _ => Keeps.bind getState fun s => ?_
  refine Keeps.bind (onState _) fun _ => Keeps.bind (persistCommit _ _ _ _ _) fun _ => ?_
  exact Keeps.bind (onState _) fun _ => Keeps.pure _

@[grind ←] theorem commitLocked (session : SessionId) (claim : AuthorityClaim)
    (validation : ValidationReport) : Keeps I (commitLocked session claim validation) := by
  unfold DistributedCompilation.commitLocked
  grind

@[grind ←] theorem commitOutput (session : SessionId) (output : ReportOutput)
    (validation : ValidationReport) : Keeps I (commitOutput session output validation) := by
  unfold DistributedCompilation.commitOutput
  refine Keeps.bind getState fun s => ?_
  split
  · exact refused _ _
  · split
    · exact refused _ _
    · split
      · exact commitLocked _ _ _
      · refine Keeps.bind (recordViolation _ _ _ _ _) fun _ => ?_
        refine Keeps.bind (transitionAttempt _ _) fun moved => ?_
        split
        · refine Keeps.bind (finishAttemptBookkeeping _) fun _ => ?_
          exact Keeps.bind (ignoring (persistAttempt _)) fun _ => Keeps.pure _
        · exact Keeps.pure _

-- ---------------------------------------------------------------------------
-- Restart
-- ---------------------------------------------------------------------------

@[grind ←] theorem markCapabilitiesUnknown (id : WorkerId) : Keeps I (markCapabilitiesUnknown id) := by
  unfold DistributedCompilation.markCapabilitiesUnknown
  grind

@[grind ←] theorem fenceAtRestart (id : WorkerId) : Keeps I (fenceAtRestart id) := by
  unfold DistributedCompilation.fenceAtRestart
  grind

@[grind ←] theorem interruptAttempt (id : CompilationAttemptId) : Keeps I (interruptAttempt id) := by
  unfold DistributedCompilation.interruptAttempt
  grind

@[grind ←] theorem restartState : Keeps I restartState := by
  unfold DistributedCompilation.restartState
  refine Keeps.bind now fun openedAt => Keeps.bind (onState _) fun _ => Keeps.bind getState fun s => ?_
  refine Keeps.bind (Keeps.forEach _ fun id _ => fenceAtRestart id) fun _ => ?_
  refine Keeps.bind (onState _) fun _ => Keeps.bind getState fun s => ?_
  exact Keeps.bind (Keeps.forEach _ fun id _ => interruptAttempt id) fun _ => onState _

@[grind ←] theorem storeBlobs (blobs : List Blob) : Keeps I (storeBlobs blobs) := by
  unfold DistributedCompilation.storeBlobs
  exact Keeps.forEach _ fun blob _ => orReturn (storeBlob _)

-- ---------------------------------------------------------------------------
-- Scheduling
-- ---------------------------------------------------------------------------

theorem loadEach {α β : Type} (digest : α → Digest256) (payload : α → Bytes → β) (xs : List α) :
    Keeps I (loadEach digest payload xs) := by
  induction xs with
  | nil => exact Keeps.pure _
  | cons x xs ih =>
    unfold DistributedCompilation.loadEach
    refine Keeps.bind (loadBlob _) fun loaded => ?_
    split
    · exact Keeps.pure _
    · exact Keeps.bind ih fun _ => Keeps.pure _

theorem loadChildren (s : State) (job : JobRecord) (children : List UInt32) :
    Keeps I (loadChildren s job children) := by
  induction children with
  | nil => exact Keeps.pure _
  | cons child children ih =>
    unfold DistributedCompilation.loadChildren
    split
    · exact Keeps.pure _
    · refine Keeps.bind (loadBlob _) fun loaded => ?_
      split
      · exact Keeps.pure _
      · exact Keeps.bind ih fun _ => Keeps.pure _

theorem loadLinkInputs (s : State) (compilation : CompilationRecord) (unit : CompilationUnitSpec) :
    Keeps I (loadLinkInputs s compilation unit) := by
  unfold DistributedCompilation.loadLinkInputs
  split
  · split
    · exact Keeps.pure _
    · exact loadChildren _ _ _
  · exact Keeps.pure _

@[grind ←] theorem buildAssignment (worker : WorkerRecord) (id : CompilationId) (speculative : Bool) :
    Keeps I (buildAssignment worker id speculative) := by
  unfold DistributedCompilation.buildAssignment
  refine Keeps.bind .read fun i => ?_
  split
  · exact Keeps.pure _
  · split
    · exact Keeps.pure _
    · refine Keeps.bind (loadEach _ _ _) fun sources => ?_
      split
      · exact Keeps.pure _
      · refine Keeps.bind (loadEach _ _ _) fun dependencies => ?_
        split
        · exact Keeps.pure _
        · refine Keeps.bind (loadLinkInputs _ _ _) fun children => ?_
          split
          · exact Keeps.pure _
          · refine Keeps.bind now fun createdAt => Keeps.bind now fun issuedAt => ?_
            refine Keeps.bind now fun updatedAt => ?_
            refine Keeps.bind (onState _) fun _ => ?_
            grind

@[grind ←] theorem buildDuplicate (id : CompilationId) (request : Option CompilationRequest)
    (candidates : List WorkerRecord) (others : List RankedWorker) :
    Keeps I (buildDuplicate id request candidates others) := by
  unfold DistributedCompilation.buildDuplicate
  grind

@[grind ←] theorem pumpOne (id : CompilationId) : Keeps I (pumpOne id) := by
  unfold DistributedCompilation.pumpOne
  refine Keeps.bind getState fun s => ?_
  split
  · exact Keeps.pure _
  · refine Keeps.ite (fun _ => Keeps.pure _) fun _ => Keeps.ite (fun _ => Keeps.pure _) fun _ =>
      Keeps.ite (fun _ => Keeps.pure _) fun _ => ?_
    have queued (f : CompilationRecord → CompilationRecord) :
        Keeps I (do DistributedCompilation.onCompilation id f; pure [] : M (List Assignment)) :=
      Keeps.bind (onCompilation id f) fun _ => Keeps.pure _
    refine Keeps.ite (fun _ => queued _) fun _ => Keeps.ite (fun _ => queued _) fun _ => ?_
    split
    · exact queued _
    · grind

@[grind ←] theorem pump : Keeps I pump := by
  unfold DistributedCompilation.pump
  grind

-- ---------------------------------------------------------------------------
-- Failures
-- ---------------------------------------------------------------------------

@[grind ←] theorem propagateTo (failed : CompilationId) (identity : Digest256) (request : CompilationRequest)
    (unitId : CompilationId) : Keeps I (propagateTo failed identity request unitId) := by
  unfold DistributedCompilation.propagateTo
  refine Keeps.bind getState fun s => ?_
  split
  · exact Keeps.pure _
  · split
    · exact Keeps.pure _
    · refine Keeps.bind now fun updatedAt => Keeps.bind (onState _) fun _ => ?_
      refine Keeps.bind (ignoring (persistCompilation _)) fun _ => ?_
      exact Keeps.bind (onState _) fun _ => persistVoid _

@[grind ←] theorem propagateFanInFailure (failed : CompilationId) : Keeps I (propagateFanInFailure failed) := by
  unfold DistributedCompilation.propagateFanInFailure
  grind

@[grind ←] theorem scheduleRetryOrFail (id : CompilationId) (code : ErrorCode) (detail : Bytes) :
    Keeps I (scheduleRetryOrFail id code detail) := by
  unfold DistributedCompilation.scheduleRetryOrFail
  grind

@[grind ←] theorem failAttempt (sessionId : SessionId) (report : AttemptFailure) :
    Keeps I (failAttempt sessionId report) := by
  unfold DistributedCompilation.failAttempt
  refine Keeps.bind ensureOpen fun _ => Keeps.bind getState fun s => ?_
  split
  · grind
  · split
    · grind
    · simp only
      split
      · grind
      · split <;> grind

@[grind ←] theorem loseAttempt (session : SessionRecord) (detail : Bytes) (id : CompilationAttemptId) :
    Keeps I (loseAttempt session detail id) := by
  unfold DistributedCompilation.loseAttempt
  grind

@[grind ←] theorem fenceWorker (id : WorkerId) (reason : Bytes) : Keeps I (fenceWorker id reason) := by
  unfold DistributedCompilation.fenceWorker
  grind

@[grind ←] theorem disconnectSession (sessionId : SessionId) (reason : Bytes) :
    Keeps I (disconnectSession sessionId reason) := by
  unfold DistributedCompilation.disconnectSession
  refine Keeps.bind .read fun i => ?_
  split
  · exact Keeps.pure _
  · split
    · exact Keeps.pure _
    · refine Keeps.bind (onState _) fun _ => ?_
      grind

@[grind ←] theorem cancelAttempt (compilation : CompilationRecord) (reason : Bytes) (id : CompilationAttemptId) :
    Keeps I (cancelAttempt compilation reason id) := by
  unfold DistributedCompilation.cancelAttempt
  grind

@[grind ←] theorem cancelLease (compilation : CompilationId) (reason : Bytes) (id : LeaseId) :
    Keeps I (cancelLease compilation reason id) := by
  unfold DistributedCompilation.cancelLease
  grind

@[grind ←] theorem cancel (id : CompilationId) (reason : Bytes) : Keeps I (cancel id reason) := by
  unfold DistributedCompilation.cancel
  refine Keeps.bind ensureOpen fun _ => Keeps.bind getState fun s => ?_
  split
  · exact refused _ _
  · split
    · exact refused _ _
    · refine Keeps.bind (Keeps.forEach _ fun key _ => cancelAttempt _ _ _) fun _ => ?_
      refine Keeps.bind (Keeps.forEach _ fun key _ => cancelLease _ _ _) fun _ => ?_
      refine Keeps.bind now fun _ => Keeps.bind (onCompilation _ _) fun _ => ?_
      exact orReturn (persistCompilation _)

-- ---------------------------------------------------------------------------
-- Reports
-- ---------------------------------------------------------------------------

@[grind ←] theorem reserveOutput (sessionId : SessionId) (output : ReportOutput) :
    Keeps I (reserveOutput sessionId output) := by
  unfold DistributedCompilation.reserveOutput
  refine Keeps.bind ensureOpen fun _ => Keeps.bind .read fun i => ?_
  have refusal {α : Type} (operation : String) (code code' : ErrorCode) (worker : WorkerId)
      (detail detail' : Bytes) : Keeps I (do
        DistributedCompilation.recordViolation operation code sessionId worker detail
        DistributedCompilation.refused code' detail' : M α) :=
    Keeps.bind (recordViolation _ _ _ _ _) fun _ => refused _ _
  dsimp only
  split
  · exact refusal _ _ _ _ _ _
  split
  · exact refused _ _
  split
  · exact refused _ _
  split
  · exact refused _ _
  split
  · exact refusal _ _ _ _ _ _
  split
  · exact refusal _ _ _ _ _ _
  split
  · exact refused _ _
  split
  · exact refused _ _
  split
  · exact refused _ _
  refine Keeps.bind (onAttempt _ _) fun _ => Keeps.bind (orReturn (transitionAttempt _ _)) fun _ => ?_
  refine Keeps.bind now fun _ => Keeps.bind (onCompilation _ _) fun _ => ?_
  refine Keeps.bind (orReturn (persistAttempt _)) fun _ => ?_
  exact Keeps.bind (ignoring (persistCompilation _)) fun _ => Keeps.pure _

-- ---------------------------------------------------------------------------
-- Submission
-- ---------------------------------------------------------------------------

@[grind ←] theorem resolveDeclared {tag : GenTag} (code : ErrorCode) (dimension : String) (declared : Gen tag)
    (resolve : State → Gen tag × State) : Keeps I (resolveDeclared code dimension declared resolve) := by
  unfold DistributedCompilation.resolveDeclared
  grind

@[grind ←] theorem registerAndCheck (request : CompilationRequest) : Keeps I (registerAndCheck request) := by
  unfold DistributedCompilation.registerAndCheck
  grind

@[grind ←] theorem retainRequest (request : CompilationRequest) : Keeps I (retainRequest request) := by
  have retained : Keeps I (Program.update fun i =>
      { i with retainedOrder := i.retainedOrder ++ [request.requestIdentity] } : M Unit) := update fun _ => rfl
  have evicted : Keeps I (Program.update Impl.evictRetained : M Unit) := update fun _ => rfl
  unfold DistributedCompilation.retainRequest
  grind

@[grind ←] theorem rebuild (id : CompilationId) : Keeps I (rebuild id) := by
  unfold DistributedCompilation.rebuild
  have reset : Keeps I (do
      let updatedAt ← DistributedCompilation.now
      DistributedCompilation.onCompilation id (·.reset updatedAt)
      DistributedCompilation.orReturn (DistributedCompilation.persistCompilation id)) :=
    Keeps.bind now fun _ => Keeps.bind (onCompilation _ _) fun _ => orReturn (persistCompilation _)
  refine Keeps.bind (onState _) fun _ => Keeps.bind getState fun s => ?_
  split
  · exact reset
  · split
    · exact Keeps.bind (onState _) fun _ => reset
    · exact Keeps.bind (persistOrLeave _) fun _ => Keeps.bind (onState _) fun _ => reset

@[grind ←] theorem admitUnit (forceRebuild : Bool) (request : CompilationRequest) (unit : CompilationUnitSpec) :
    Keeps I (admitUnit forceRebuild request unit) := by
  unfold DistributedCompilation.admitUnit
  grind

@[grind ←] theorem touchCacheEntry (id : CacheEntryId) : Keeps I (touchCacheEntry id) := by
  unfold DistributedCompilation.touchCacheEntry
  grind

@[grind ←] theorem serveHit (id : CompilationId) (entryId : CacheEntryId) (entry : CacheEntry)
    (submission : UnitSubmission) : Keeps I (serveHit id entryId entry submission) := by
  unfold DistributedCompilation.serveHit
  grind

@[grind ←] theorem answerUnit (forceRebuild : Bool) (request : CompilationRequest) (unit : CompilationUnitSpec) :
    Keeps I (answerUnit forceRebuild request unit) := by
  unfold DistributedCompilation.answerUnit
  grind

@[grind ←] theorem openJob (request : CompilationRequest) : Keeps I (openJob request) := by
  unfold DistributedCompilation.openJob
  grind

@[grind ←] theorem submitRegistered (bundle : SubmissionBundle) (request : CompilationRequest) :
    Keeps I (submitRegistered bundle request) := by
  unfold DistributedCompilation.submitRegistered
  refine Keeps.bind getState fun s => Keeps.bind (storeBlobs _) fun _ => ?_
  refine Keeps.bind (retainRequest _) fun _ => Keeps.bind (openJob _) fun job => ?_
  refine Keeps.bind (Keeps.forEach _ fun unit _ => admitUnit _ _ _) fun _ => ?_
  refine Keeps.bind (onState _) fun _ => Keeps.bind (persistOrLeave _) fun _ => ?_
  refine Keeps.bind (Keeps.collect _ fun unit _ => Keeps.bind (answerUnit _ _ _) fun _ => Keeps.pure _) ?_
  intro units
  exact Keeps.bind (onState _) fun _ => Keeps.bind (persistOrLeave _) fun _ => Keeps.pure _

@[grind ←] theorem submit (bundle : SubmissionBundle) : Keeps I (submit bundle) := by
  unfold DistributedCompilation.submit
  refine Keeps.bind .read fun i => Keeps.bind (orLeave _) fun _ => Keeps.bind ensureOpen fun _ => ?_
  refine Keeps.bind (orThrow _) fun request => Keeps.bind (Keeps.forEach _ fun unit _ => orLeave _) fun _ => ?_
  exact Keeps.bind (registerAndCheck _) fun request => submitRegistered _ _

-- ---------------------------------------------------------------------------
-- Workers
-- ---------------------------------------------------------------------------

@[grind ←] theorem registerWorker (registration : WorkerRegistration) : Keeps I (registerWorker registration) := by
  unfold DistributedCompilation.registerWorker
  grind

@[grind ←] theorem sessionWorker (sessionId : SessionId) : Keeps I (sessionWorker sessionId) := by
  unfold DistributedCompilation.sessionWorker
  grind

@[grind ←] theorem advertiseCapabilities (sessionId : SessionId) (capabilities : WorkerCapabilities) :
    Keeps I (advertiseCapabilities sessionId capabilities) := by
  unfold DistributedCompilation.advertiseCapabilities
  grind

@[grind ←] theorem markReady (sessionId : SessionId) : Keeps I (markReady sessionId) := by
  unfold DistributedCompilation.markReady
  grind

@[grind ←] theorem heartbeat (sessionId : SessionId) : Keeps I (heartbeat sessionId) := by
  unfold DistributedCompilation.heartbeat
  refine Keeps.bind ensureOpen fun _ => Keeps.bind getState fun s => ?_
  split
  · exact refused _ _
  · split
    · exact refused _ _
    · refine Keeps.bind now fun _ => Keeps.bind (onState _) fun _ => ?_
      split
      · exact Keeps.pure _
      · split
        · exact refused _ _
        · split
          · exact refused _ _
          · exact onWorker _ _

@[grind ←] theorem beginCompile (claim : AuthorityClaim) : Keeps I (beginCompile claim) := by
  unfold DistributedCompilation.beginCompile
  have recorded : Keeps I (do
      DistributedCompilation.orReturn (DistributedCompilation.persistAttempt claim.attempt)
      DistributedCompilation.orReturn (DistributedCompilation.persistCompilation claim.compilation)) :=
    Keeps.bind (orReturn (persistAttempt _)) fun _ => orReturn (persistCompilation _)
  refine Keeps.bind ensureOpen fun _ => Keeps.bind getState fun s => ?_
  split
  · exact Keeps.bind (recordViolation _ _ _ _ _) fun _ => refused _ _
  split
  · exact refused _ _
  split
  · exact Keeps.bind (recordViolation _ _ _ _ _) fun _ => refused _ _
  split
  · exact refused _ _
  split
  · refine Keeps.bind (orReturn (transitionAttempt _ _)) fun _ => Keeps.bind now fun _ => ?_
    exact Keeps.bind (onAttempt _ _) fun _ => Keeps.bind (onCompilation _ _) fun _ => recorded
  · exact recorded

@[grind ←] theorem handleValidateResponse (sessionId : SessionId) (mode : UInt32) (evidence : EvidenceClass)
    (capabilitiesDigest : Digest256) (detail : Bytes) :
    Keeps I (handleValidateResponse sessionId mode evidence capabilitiesDigest detail) := by
  unfold DistributedCompilation.handleValidateResponse
  grind

@[grind ←] theorem shutdownSessions : Keeps I shutdownSessions := by
  unfold DistributedCompilation.shutdownSessions
  grind

@[grind ←] theorem drainControls : Keeps I drainControls := by
  unfold DistributedCompilation.drainControls
  grind

-- ---------------------------------------------------------------------------
-- Opening and closing
-- ---------------------------------------------------------------------------

@[grind ←] theorem openStore : Keeps I openStore := by
  unfold DistributedCompilation.openStore
  grind

@[grind ←] theorem openCoordinator (config : CoordinatorConfig) : Keeps I (openCoordinator config) := by
  unfold DistributedCompilation.openCoordinator
  have configured : Keeps I (Program.update fun i => { i with config } : M Unit) := update fun _ => rfl
  have opened (recovered : State) :
      Keeps I (Program.update fun i => { i with state := recovered, opened := true } : M Unit) :=
    update fun _ => rfl
  have started (recovered : State) : Keeps I (do
      Program.update fun i => { i with state := recovered, opened := true }
      DistributedCompilation.restartState
      if config.enablePersistence then
        let s ← DistributedCompilation.getState
        DistributedCompilation.orReturn (DistributedCompilation.persist
          (.header s.header.epoch s.header.restarts s.header.openedAt))
        DistributedCompilation.orReturn DistributedCompilation.takeSnapshot) := by
    refine Keeps.bind (opened recovered) fun _ => Keeps.bind restartState fun _ => ?_
    split
    · refine Keeps.bind getState fun s => Keeps.bind (orReturn (persist _)) fun _ => ?_
      exact orReturn takeSnapshot
    · exact Keeps.pure _
  refine Keeps.bind .read fun i => ?_
  split
  · exact Keeps.pure _
  · refine Keeps.bind configured fun _ => ?_
    refine Keeps.ite (fun _ => ?_) fun _ => started {}
    refine Keeps.bind openStore fun _ => Keeps.bind .read fun i => ?_
    exact Keeps.bind (orLeave _) fun recovered => started recovered

@[grind ←] theorem closeCoordinator : Keeps I closeCoordinator := by
  unfold DistributedCompilation.closeCoordinator
  have closed : Keeps I (Program.update fun i => { i with opened := false } : M Unit) := update fun _ => rfl
  refine Keeps.bind .read fun i => ?_
  split
  · split
    · exact Keeps.bind (ignoring writeState) fun _ => Keeps.bind (onStore _) fun _ => closed
    · exact closed
  · exact Keeps.pure _

@[grind ←] theorem snapshotCoordinator : Keeps I snapshotCoordinator := by
  unfold DistributedCompilation.snapshotCoordinator
  grind

end Banked

-- ---------------------------------------------------------------------------
-- The cache itself
-- ---------------------------------------------------------------------------

omit [HashFunction] in
theorem evictBlobs_eq (order : List Digest256) (cache : Table Digest256 Bytes) (total : Nat) :
    evictBlobs order cache total = Fifo.evict blobCacheLimit List.length order cache total := by
  induction order generalizing cache total with
  | nil => rfl
  | cons victim order ih =>
    unfold evictBlobs Fifo.evict
    split
    · cases cache[victim]? with
      | none => exact ih cache total
      | some bytes => exact ih _ _
    · rfl

/-- Every cached blob is filed under its digest, and the bookkeeping is exact. -/
structure Impl.Vault (i : Impl) : Prop where
  genuine : ∀ (digest : Digest256) (bytes : Bytes), i.blobCache[digest]? = some bytes → sha256 bytes = digest
  exact : Fifo.Exact List.length i.blobCacheOrder i.blobCache i.blobCacheBytes

/-- The weight of a cached blob and of everything cached after it. -/
def Impl.weightFrom (i : Impl) (digest : Digest256) : Nat :=
  Fifo.weightFrom List.length i.blobCache i.blobCacheOrder digest

/-- A blob that is new to the cache: it is cached when it fits, and the others stay
as far as they fit with it. -/
theorem wp_cacheBlob {i : Impl} (vault : i.Vault) (bytes : Bytes) (fresh : i.blobCache[sha256 bytes]? = none) :
    Program.wp (cacheBlob (sha256 bytes) bytes) (fun r j => r = .ok () ∧ j.Vault ∧ j.store = i.store ∧
      j.config = i.config ∧ ∀ digest, j.blobCache[digest]? =
        if bytes.length ≤ blobCacheLimit then
          if digest = sha256 bytes then some bytes
          else if i.weightFrom digest + bytes.length ≤ blobCacheLimit then i.blobCache[digest]? else none
        else i.blobCache[digest]?) i := by
  unfold cacheBlob
  split
  · next hfits =>
    rw [Program.wp_update]
    simp only [evictBlobs_eq]
    have hpush : Fifo.Exact List.length (i.blobCacheOrder ++ [sha256 bytes])
        (i.blobCache.insert (sha256 bytes) bytes) (i.blobCacheBytes + bytes.length) := vault.exact.push fresh
    obtain ⟨hexact, -, hget⟩ : _ ∧ _ ≤ blobCacheLimit ∧ _ := Fifo.evict_spec hpush
    have hall (digest : Digest256) : (Fifo.evict blobCacheLimit List.length (i.blobCacheOrder ++ [sha256 bytes])
        (i.blobCache.insert (sha256 bytes) bytes) (i.blobCacheBytes + bytes.length)).2.1[digest]? =
        if digest = sha256 bytes then some bytes
        else if i.weightFrom digest + bytes.length ≤ blobCacheLimit then i.blobCache[digest]? else none := by
      rw [hget digest, Table.get_insert]
      by_cases hnew : digest = sha256 bytes
      · subst hnew
        rw [Fifo.weightFrom_new vault.exact fresh, if_pos hfits, if_pos rfl, if_pos rfl]
      · have hne : ¬sha256 bytes = digest := fun h => hnew h.symm
        rw [if_neg hnew, if_neg hne]
        by_cases hold : digest ∈ i.blobCacheOrder
        · rw [Fifo.weightFrom_push vault.exact fresh hold]
          rfl
        · have hnone : i.blobCache[digest]? = none := by
            rw [vault.exact.listed digest] at hold
            exact Option.eq_none_iff_forall_ne_some.mpr fun entry hentry => hold ⟨entry, hentry⟩
          rw [hnone, ite_self, ite_self]
    refine ⟨trivial, ⟨fun digest content hcontent => ?_, hexact⟩, trivial, trivial, hall⟩
    change (Fifo.evict blobCacheLimit List.length (i.blobCacheOrder ++ [sha256 bytes])
        (i.blobCache.insert (sha256 bytes) bytes) (i.blobCacheBytes + bytes.length)).2.1[digest]? = _ at hcontent
    rw [hall] at hcontent
    split at hcontent
    · next heq => rw [← Option.some.inj hcontent, heq]
    · split at hcontent
      · exact vault.genuine digest content hcontent
      · cases hcontent
  · exact ⟨rfl, vault, rfl, rfl, fun _ => rfl⟩

instance : Banked Impl.Vault where
  banked hi hbank := by
    obtain ⟨hcache, horder, hbytes⟩ : _ ∧ _ ∧ _ := ⟨congrArg (·.1) hbank, congrArg (·.2.1) hbank,
      congrArg (·.2.2) hbank⟩
    simp only [Impl.bank] at hcache horder hbytes
    exact ⟨hcache ▸ hi.genuine, by rw [hcache, horder, hbytes]; exact hi.exact⟩
  deposit bytes hi hfresh := Program.wp_mono (wp_cacheBlob hi bytes hfresh) fun _ _ h => h.2.1

-- ---------------------------------------------------------------------------
-- Runs
-- ---------------------------------------------------------------------------

/-- The systems that runs reach, crashes and damage to the artifact directory
included. -/
inductive System.Visited : System → Prop
  | fresh : Visited {}
  | step {sys : System} (environment : Environment) (op : Op) (visited : Visited sys) :
      Visited (System.step environment op sys)
  | crash {sys : System} (n : Nat) (visited : Visited sys) : Visited (System.crash n sys)
  | damage {sys : System} (blobs : Table Digest256 Bytes) (visited : Visited sys) :
      Visited { sys with impl := { sys.impl with store := { sys.impl.store with blobs } } }

theorem Impl.Vault.empty : Impl.Vault {} where
  genuine digest bytes h := by
    rw [Table.get_empty] at h
    cases h
  exact := Fifo.Exact.empty _

theorem Impl.Vault.step {sys : System} (h : sys.impl.Vault) (environment : Environment) (op : Op) :
    (System.step environment op sys).impl.Vault := by
  have given : (System.given environment sys.impl).Vault := Banked.banked h rfl
  have after {α : Type} {m : M α} (hm : Keeps Impl.Vault m) : (System.after m (System.given environment sys.impl)).Vault :=
    hm _ given
  cases op with
  | openWith config => exact after (Banked.openCoordinator config)
  | close => exact after Banked.closeCoordinator
  | snapshot => exact after Banked.snapshotCoordinator
  | submit bundle => exact after (Banked.submit bundle)
  | pump => exact after Banked.pump
  | drainControls => exact after Banked.drainControls
  | registerWorker registration => exact after (Banked.registerWorker registration)
  | advertiseCapabilities session capabilities => exact after (Banked.advertiseCapabilities session capabilities)
  | markReady session => exact after (Banked.markReady session)
  | heartbeat session => exact after (Banked.heartbeat session)
  | beginCompile claim => exact after (Banked.beginCompile claim)
  | validateResponse session mode evidence digest detail =>
    exact after (Banked.handleValidateResponse session mode evidence digest detail)
  | shutdownSessions => exact after Banked.shutdownSessions
  | failAttempt session report => exact after (Banked.failAttempt session report)
  | disconnect session reason => exact after (Banked.disconnectSession session reason)
  | cancel compilation reason => exact after (Banked.cancel compilation reason)
  | reserve session output =>
    have hrun := after (Banked.reserveOutput session output)
    unfold System.after at hrun
    simp only [System.step, System.reserveStep]
    split
    next heq => rw [heq] at hrun; exact hrun
    next heq => rw [heq] at hrun; exact hrun
  | validate n smoke =>
    simp only [System.step, System.validateStep]
    split
    next => exact given
    next reservation _ =>
      have hrun := after (Banked.storeOutput reservation)
      unfold System.after at hrun
      split
      next heq => rw [heq] at hrun; exact hrun
      next heq => rw [heq] at hrun; exact hrun
  | commit n =>
    simp only [System.step, System.commitStep]
    split
    next => exact given
    next reservation report _ => exact after (Banked.commitOutput _ _ _)

theorem System.Visited.vault {sys : System} (h : System.Visited sys) : sys.impl.Vault := by
  induction h with
  | fresh => exact .empty
  | step environment op _ ih => exact ih.step environment op
  | crash n _ _ => exact Banked.banked Impl.Vault.empty rfl
  | damage blobs _ ih => exact Banked.banked ih rfl

end DistributedCompilation
