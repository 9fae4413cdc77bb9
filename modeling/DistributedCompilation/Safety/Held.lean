import DistributedCompilation.Coordinator.System

/-!
# Distributed Compilation — what every section holds

The configuration of the coordinator changes when it is opened, and whether it
is open changes when it is opened or closed. No other section writes to either.
-/

namespace DistributedCompilation

open Program (Keeps)

/-- Properties that look at the configuration and at whether the coordinator is
open only. -/
class Held (I : Impl → Prop) : Prop where
  held : ∀ {i j : Impl}, I i → j.opened = i.opened → j.config = i.config → I j

instance (b : Bool) : Held fun i => i.opened = b := ⟨fun hi hopened _ => hopened.trans hi⟩

instance (config : CoordinatorConfig) : Held fun i => i.config = config :=
  ⟨fun hi _ hconfig => hconfig.trans hi⟩

namespace Held

variable {I : Impl → Prop} [Held I]

theorem update {f : Impl → Impl} (opened : ∀ i : Impl, (f i).opened = i.opened)
    (config : ∀ i : Impl, (f i).config = i.config) : Keeps I (Program.update f : M Unit) :=
  Keeps.update fun i hi => held hi (opened i) (config i)

-- ---------------------------------------------------------------------------
-- Primitives
-- ---------------------------------------------------------------------------

@[grind ←] theorem getState : Keeps I getState := Keeps.bind .read fun _ => .pure _

@[grind ←] theorem onState (f : State → State) : Keeps I (onState f) :=
  update (fun _ => rfl) fun _ => rfl

@[grind ←] theorem onStore (f : Store → Store) : Keeps I (onStore f) :=
  update (fun _ => rfl) fun _ => rfl

@[grind ←] theorem refused {α : Type} (code : ErrorCode) (detail : Bytes) :
    Keeps I (refused code detail : M α) := Keeps.leave _

@[grind ←] theorem orLeave {α : Type} (r : Result α) : Keeps I (orLeave r) := by
  cases r with
  | ok a => exact Keeps.pure a
  | error status => exact Keeps.leave _

@[grind ←] theorem orThrow {α : Type} (r : Except Fault α) : Keeps I (orThrow r) := by
  cases r with
  | ok a => exact Keeps.pure a
  | error fault => exact Keeps.leave _

@[grind ←] theorem now : Keeps I now :=
  Keeps.bind .read fun _ => Keeps.bind (update (fun _ => rfl) fun _ => rfl) fun _ => .pure _

@[grind ←] theorem ioSucceeds : Keeps I ioSucceeds :=
  Keeps.bind .read fun _ => Keeps.bind (update (fun _ => rfl) fun _ => rfl) fun _ => .pure _

@[grind ←] theorem ensureOpen : Keeps I ensureOpen := by
  unfold DistributedCompilation.ensureOpen
  grind

@[grind ←] theorem ignoring {m : M (Result Unit)} (h : Keeps I m) : Keeps I (ignoring m) := by
  unfold DistributedCompilation.ignoring
  grind

@[grind ←] theorem orReturn {m : M (Result Unit)} (h : Keeps I m) : Keeps I (orReturn m) := by
  unfold DistributedCompilation.orReturn
  grind

@[grind ←] theorem onCompilation (id : CompilationId) (f : CompilationRecord → CompilationRecord) :
    Keeps I (onCompilation id f) := onState _

@[grind ←] theorem onAttempt (id : CompilationAttemptId) (f : CompilationAttempt → CompilationAttempt) :
    Keeps I (onAttempt id f) := onState _

@[grind ←] theorem onWorker (id : WorkerId) (f : WorkerRecord → WorkerRecord) :
    Keeps I (onWorker id f) := onState _

-- ---------------------------------------------------------------------------
-- Journal, snapshot and blobs
-- ---------------------------------------------------------------------------

@[grind ←] theorem append (type : RecordType) (payload : Bytes) : Keeps I (append type payload) := by
  unfold DistributedCompilation.append
  grind

@[grind ←] theorem countLost : Keeps I countLost := onStore _

@[grind ←] theorem writeSnapshot (payload : Bytes) : Keeps I (writeSnapshot payload) := by
  unfold DistributedCompilation.writeSnapshot
  grind

@[grind ←] theorem persist (entity : Entity) : Keeps I (persist entity) := by
  unfold DistributedCompilation.persist
  grind

@[grind ←] theorem persistVoid (entity : Entity) : Keeps I (persistVoid entity) := by
  unfold DistributedCompilation.persistVoid
  grind

@[grind ←] theorem persistOrLeave (entity : Entity) : Keeps I (persistOrLeave entity) := by
  unfold DistributedCompilation.persistOrLeave
  grind

@[grind ←] theorem writeState : Keeps I writeState := by
  unfold DistributedCompilation.writeState
  grind

@[grind ←] theorem takeSnapshot : Keeps I takeSnapshot := by
  unfold DistributedCompilation.takeSnapshot
  grind

@[grind ←] theorem maybeSnapshot : Keeps I maybeSnapshot := by
  unfold DistributedCompilation.maybeSnapshot
  grind

@[grind ←] theorem persistEntity (entity : Entity) : Keeps I (persistEntity entity) := by
  unfold DistributedCompilation.persistEntity
  grind

@[grind ←] theorem persistCompilation (id : CompilationId) : Keeps I (persistCompilation id) := by
  unfold DistributedCompilation.persistCompilation
  grind

@[grind ←] theorem persistAttempt (id : CompilationAttemptId) : Keeps I (persistAttempt id) := by
  unfold DistributedCompilation.persistAttempt
  grind

@[grind ←] theorem persistWorker (id : WorkerId) : Keeps I (persistWorker id) := by
  unfold DistributedCompilation.persistWorker
  grind

section

variable [HashFunction]

omit [HashFunction] in
@[grind ←] theorem cacheBlob (digest : Digest256) (bytes : Bytes) : Keeps I (cacheBlob digest bytes) := by
  unfold DistributedCompilation.cacheBlob
  split
  · exact update (fun _ => rfl) fun _ => rfl
  · exact Keeps.pure _

@[grind ←] theorem storeBlob (bytes : Bytes) : Keeps I (storeBlob bytes) := by
  unfold DistributedCompilation.storeBlob
  grind

@[grind ←] theorem storeOutput (r : Reservation) : Keeps I (storeOutput r) := orReturn (storeBlob _)

end

-- ---------------------------------------------------------------------------
-- Attempts
-- ---------------------------------------------------------------------------

@[grind ←] theorem transitionAttempt (id : CompilationAttemptId) (next : AttemptState) :
    Keeps I (transitionAttempt id next) := by
  unfold DistributedCompilation.transitionAttempt
  grind

@[grind ←] theorem finishAttemptBookkeeping (id : CompilationAttemptId) :
    Keeps I (finishAttemptBookkeeping id) := by
  unfold DistributedCompilation.finishAttemptBookkeeping
  grind

@[grind ←] theorem failAttemptLocked (id : CompilationAttemptId) (code : ErrorCode) (detail : Bytes) :
    Keeps I (failAttemptLocked id code detail) := by
  unfold DistributedCompilation.failAttemptLocked
  grind

@[grind ←] theorem recordViolation (operation : String) (code : ErrorCode) (session : SessionId)
    (worker : WorkerId) (detail : Bytes) :
    Keeps I (recordViolation operation code session worker detail) := by
  unfold DistributedCompilation.recordViolation
  grind

-- ---------------------------------------------------------------------------
-- Commits
-- ---------------------------------------------------------------------------

@[grind ←] theorem refuseCandidate (claim : AuthorityClaim) (validation : ValidationReport) :
    Keeps I (refuseCandidate claim validation) := by
  unfold DistributedCompilation.refuseCandidate
  grind

@[grind ←] theorem walkToCommitted (id : CompilationAttemptId) (state : AttemptState) :
    Keeps I (walkToCommitted id state) := by
  unfold DistributedCompilation.walkToCommitted
  grind

@[grind ←] theorem deduplicate (claim : AuthorityClaim) (state : AttemptState) (prior : ArtifactCommit)
    (validation : ValidationReport) : Keeps I (deduplicate claim state prior validation) := by
  unfold DistributedCompilation.deduplicate
  refine Keeps.bind (walkToCommitted _ _) fun moved => ?_
  split
  · grind
  · refine Keeps.bind (onAttempt _ _) fun _ => Keeps.bind (finishAttemptBookkeeping _) fun _ => ?_
    refine Keeps.bind (ignoring (persistAttempt _)) fun _ => Keeps.bind getState fun s => ?_
    split
    · refine Keeps.bind now fun updatedAt => Keeps.bind (onCompilation _ _) fun _ => ?_
      exact Keeps.bind (ignoring (persistCompilation _)) fun _ => Keeps.pure _
    · exact Keeps.pure _

@[grind ←] theorem refuseDivergent (claim : AuthorityClaim) (candidate : ContentRef)
    (reproducibility : ReproducibilityRequirement) :
    Keeps I (refuseDivergent claim candidate reproducibility) := by
  unfold DistributedCompilation.refuseDivergent
  refine Keeps.bind (onCompilation _ _) fun _ => ?_
  split
  · exact Keeps.bind (onCompilation _ _) fun _ => by grind
  · grind

@[grind ←] theorem invalidateIndexed (unitIdentity : Digest256) :
    Keeps I (invalidateIndexed unitIdentity) := by
  unfold DistributedCompilation.invalidateIndexed
  grind

@[grind ←] theorem recordCacheEntry (compilation : CompilationRecord) (commit : ArtifactCommit)
    (provenance : Provenance) : Keeps I (recordCacheEntry compilation commit provenance) := by
  unfold DistributedCompilation.recordCacheEntry
  grind

@[grind ←] theorem recordIntermediate (compilation : CompilationRecord) (provenance : Provenance) :
    Keeps I (recordIntermediate compilation provenance) := by
  unfold DistributedCompilation.recordIntermediate
  grind

@[grind ←] theorem markJobProgress (requestIdentity : Digest256) :
    Keeps I (markJobProgress requestIdentity) := by
  unfold DistributedCompilation.markJobProgress
  grind

@[grind ←] theorem persistCommit (workerId : WorkerId) (claim : AuthorityClaim)
    (validation : ValidationReport) (provenance : Provenance) (commit : ArtifactCommit) :
    Keeps I (persistCommit workerId claim validation provenance commit) := by
  unfold DistributedCompilation.persistCommit
  grind

@[grind ←] theorem commitFirst (session : SessionId) (workerId : WorkerId) (claim : AuthorityClaim)
    (validation : ValidationReport) (compilation : CompilationRecord) :
    Keeps I (commitFirst session workerId claim validation compilation) := by
  unfold DistributedCompilation.commitFirst
  refine Keeps.bind (orReturn (transitionAttempt _ _)) fun _ => ?_
  refine Keeps.bind now fun _ => Keeps.bind (onCompilation _ _) fun _ => ?_
  refine Keeps.bind getState fun s => Keeps.bind now fun _ => Keeps.bind now fun _ => ?_
  refine Keeps.bind (onAttempt _ _) fun _ => Keeps.bind (orReturn (transitionAttempt _ _)) fun _ => ?_
  refine Keeps.bind (onCompilation _ _) fun _ => Keeps.bind (orReturn (transitionAttempt _ _)) fun _ => ?_
  refine Keeps.bind now fun _ => Keeps.bind (onCompilation _ _) fun _ => ?_
  refine Keeps.bind (finishAttemptBookkeeping _) fun _ => Keeps.bind (onState _) fun _ => ?_
  refine Keeps.bind (recordIntermediate _ _) fun _ => Keeps.bind (recordCacheEntry _ _ _) fun _ => ?_
  refine Keeps.bind (markJobProgress _) fun _ => Keeps.bind getState fun s => ?_
  refine Keeps.bind (onState _) fun _ => Keeps.bind (persistCommit _ _ _ _ _) fun _ => ?_
  exact Keeps.bind (onState _) fun _ => Keeps.pure _

@[grind ←] theorem commitLocked (session : SessionId) (claim : AuthorityClaim)
    (validation : ValidationReport) : Keeps I (commitLocked session claim validation) := by
  unfold DistributedCompilation.commitLocked
  grind

@[grind ←] theorem commitOutput (session : SessionId) (output : ReportOutput)
    (validation : ValidationReport) : Keeps I (commitOutput session output validation) := by
  unfold DistributedCompilation.commitOutput
  refine Keeps.bind getState fun s => ?_
  split
  · exact refused _ _
  · split
    · exact refused _ _
    · split
      · exact commitLocked _ _ _
      · refine Keeps.bind (recordViolation _ _ _ _ _) fun _ => ?_
        refine Keeps.bind (transitionAttempt _ _) fun moved => ?_
        split
        · refine Keeps.bind (finishAttemptBookkeeping _) fun _ => ?_
          exact Keeps.bind (ignoring (persistAttempt _)) fun _ => Keeps.pure _
        · exact Keeps.pure _

-- ---------------------------------------------------------------------------
-- Restart
-- ---------------------------------------------------------------------------

section

variable [HashFunction]

@[grind ←] theorem markCapabilitiesUnknown (id : WorkerId) : Keeps I (markCapabilitiesUnknown id) := by
  unfold DistributedCompilation.markCapabilitiesUnknown
  grind

@[grind ←] theorem fenceAtRestart (id : WorkerId) : Keeps I (fenceAtRestart id) := by
  unfold DistributedCompilation.fenceAtRestart
  grind

omit [HashFunction] in
@[grind ←] theorem interruptAttempt (id : CompilationAttemptId) : Keeps I (interruptAttempt id) := by
  unfold DistributedCompilation.interruptAttempt
  grind

@[grind ←] theorem restartState : Keeps I restartState := by
  unfold DistributedCompilation.restartState
  refine Keeps.bind now fun openedAt => Keeps.bind (onState _) fun _ => Keeps.bind getState fun s => ?_
  refine Keeps.bind (Keeps.forEach _ fun id _ => fenceAtRestart id) fun _ => ?_
  refine Keeps.bind (onState _) fun _ => Keeps.bind getState fun s => ?_
  exact Keeps.bind (Keeps.forEach _ fun id _ => interruptAttempt id) fun _ => onState _

end

end Held

end DistributedCompilation
