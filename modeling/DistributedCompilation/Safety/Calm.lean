import DistributedCompilation.Safety.Losses

/-!
# Distributed Compilation — sections that issue nothing

The operations other than `pump` leave the attempts of a compilation and their
count as they are, and put it back among those that wait only where a failure is
retried or a submission queues it.
-/

namespace DistributedCompilation

open Program (Keeps)

-- ---------------------------------------------------------------------------
-- Records
-- ---------------------------------------------------------------------------

/-- `pump` looks at a compilation in this state. -/
def CompilationState.waits : CompilationState → Bool
  | .pending | .eligible => true
  | _ => false

/-- The record has counted the same attempts, and waits only if it did or if it may. -/
structure CompilationRecord.Calms (allowed : Prop) (record next : CompilationRecord) : Prop where
  attempts : next.attempts = record.attempts
  counter : next.attemptOrdinalCounter = record.attemptOrdinalCounter
  identity : next.requestIdentity = record.requestIdentity
  waits : next.state.waits = true → record.state.waits = true ∨ allowed

/-- The compilation is as it was, up to updates that issue nothing. -/
def Impl.Calm (id : CompilationId) (record : Option CompilationRecord) (allowed : Prop) (i : Impl) : Prop :=
  Option.Rel (CompilationRecord.Calms allowed) record i.state.compilations[id]?

namespace Impl.Calm

variable {id : CompilationId} {record : Option CompilationRecord} {allowed : Prop}

theorem refl (i : Impl) (allowed : Prop) : i.Calm id i.state.compilations[id]? allowed := by
  unfold Impl.Calm
  cases i.state.compilations[id]? with
  | none => exact .none
  | some record => exact .some ⟨rfl, rfl, rfl, .inl⟩

instance : Aloof (Impl.Calm id record allowed) where
  aloof hi compilations _ _ := by
    unfold Impl.Calm
    rw [compilations]
    exact hi

instance [HashFunction] : Noted (Impl.Calm id record allowed) where
  quiet hi hstate _ := by
    unfold Impl.Calm
    rw [hstate]
    exact hi
  note hi h := by
    unfold Impl.Calm
    rw [h.compilations]
    exact hi

/-- An update that counts nothing and lets wait only what may. -/
theorem onCompilation {key : CompilationId} {f : CompilationRecord → CompilationRecord}
    (calms : ∀ old : CompilationRecord, old.Calms allowed (f old)) :
    Keeps (Impl.Calm id record allowed) (onCompilation key f) := by
  refine Keeps.update fun i hi => ?_
  unfold Impl.Calm at hi ⊢
  unfold State.withCompilation
  simp only [Table.get_modify]
  split
  next heq =>
    subst heq
    cases hfound : i.state.compilations[key]? with
    | none =>
      rw [hfound] at hi
      exact hi
    | some next =>
      rw [hfound] at hi
      cases hi with
      | some h =>
        refine .some ⟨(calms next).attempts.trans h.attempts, (calms next).counter.trans h.counter,
          (calms next).identity.trans h.identity, fun hwaits => ?_⟩
        rcases (calms next).waits hwaits with hbefore | hallowed
        · exact h.waits hbefore
        · exact .inr hallowed
  next => exact hi

/-- One that leaves the record in a state that does not wait. -/
theorem settle {key : CompilationId} {f : CompilationRecord → CompilationRecord}
    (attempts : ∀ record, (f record).attempts = record.attempts)
    (counter : ∀ record, (f record).attemptOrdinalCounter = record.attemptOrdinalCounter)
    (identity : ∀ record, (f record).requestIdentity = record.requestIdentity)
    (waits : ∀ record, (f record).state.waits = true → record.state.waits = true) :
    Keeps (Impl.Calm id record allowed) (DistributedCompilation.onCompilation key f) :=
  onCompilation fun record => ⟨attempts record, counter record, identity record, fun h => .inl (waits record h)⟩

/-- An update of the other tables. -/
theorem aside {f : State → State} (h : ∀ s : State, (f s).compilations = s.compilations) :
    Keeps (Impl.Calm id record allowed) (onState f) := by
  refine Keeps.update fun i hi => ?_
  unfold Impl.Calm
  rw [h]
  exact hi

-- ---------------------------------------------------------------------------
-- Reports
-- ---------------------------------------------------------------------------

section

variable [HashFunction]

theorem reserveOutput (session : SessionId) (output : ReportOutput) :
    Keeps (Impl.Calm id record allowed) (reserveOutput session output) := by
  unfold DistributedCompilation.reserveOutput
  refine Keeps.bind Still.ensureOpen fun _ => Keeps.bind .read fun i => ?_
  have refusal {α : Type} (operation : String) (code code' : ErrorCode) (worker : WorkerId)
      (detail detail' : Bytes) : Keeps (Impl.Calm id record allowed) (do
        DistributedCompilation.recordViolation operation code session worker detail
        DistributedCompilation.refused code' detail' : M α) :=
    Keeps.bind (Noted.recordViolation _ _ _ _ _) fun _ => Still.refused _ _
  simp only
  split
  · exact refusal _ _ _ _ _ _
  · split
    · exact Still.refused _ _
    · split
      · exact Still.refused _ _
      · refine Keeps.ite (fun _ => Still.refused _ _) fun _ => Keeps.ite (fun _ => refusal _ _ _ _ _ _) fun _ => ?_
        split
        · exact refusal _ _ _ _ _ _
        · refine Keeps.ite (fun _ => Still.refused _ _) fun _ => Keeps.ite (fun _ => Still.refused _ _) fun _ => ?_
          refine Keeps.ite (fun _ => Still.refused _ _) fun _ => ?_
          refine Keeps.bind (Aloof.onAttempt _ _) fun _ => Keeps.bind (Still.orReturn (Aloof.transitionAttempt _ _)) fun _ => ?_
          refine Keeps.bind Still.now fun updatedAt => ?_
          refine Keeps.bind (settle (fun _ => rfl) (fun _ => rfl) (fun _ => rfl) fun record h => ?_) fun _ => ?_
          · dsimp only at h
            split at h
            · cases h
            · exact h
          · refine Keeps.bind (Still.orReturn (Noted.persistAttempt _)) fun _ => ?_
            exact Keeps.bind (Still.ignoring (Noted.persistCompilation _)) fun _ => Keeps.pure _

theorem commitOutput (session : SessionId) (output : ReportOutput) (validation : ValidationReport) :
    Keeps (Impl.Calm id record allowed) (commitOutput session output validation) := by
  have refuses (claim : AuthorityClaim) : Keeps (Impl.Calm id record allowed) (refuseCandidate claim validation) := by
    unfold refuseCandidate
    refine Keeps.bind (Still.ignoring (Aloof.failAttemptLocked _ _ _)) fun _ => Keeps.bind Still.now fun updatedAt => ?_
    refine Keeps.bind (settle (fun _ => rfl) (fun _ => rfl) (fun _ => rfl) fun _ => nofun) fun _ => ?_
    exact Keeps.bind (Still.ignoring (Noted.persistCompilation _)) fun _ => Keeps.pure _
  have walks (key : CompilationAttemptId) (state : AttemptState) :
      Keeps (Impl.Calm id record allowed) (walkToCommitted key state) := by
    unfold walkToCommitted
    grind
  have deduplicates (claim : AuthorityClaim) (state : AttemptState) (prior : ArtifactCommit) :
      Keeps (Impl.Calm id record allowed) (deduplicate claim state prior validation) := by
    unfold deduplicate
    refine Keeps.bind (walks _ _) fun moved => ?_
    split
    · exact Keeps.bind (Still.ignoring (Aloof.failAttemptLocked _ _ _)) fun _ => Still.refused _ _
    · refine Keeps.bind (Aloof.onAttempt _ _) fun _ => Keeps.bind (Aloof.finishAttemptBookkeeping _) fun _ => ?_
      refine Keeps.bind (Still.ignoring (Noted.persistAttempt _)) fun _ => Keeps.bind Still.getState fun s => ?_
      split
      · refine Keeps.bind Still.now fun updatedAt => ?_
        refine Keeps.bind (settle (fun _ => rfl) (fun _ => rfl) (fun _ => rfl) fun _ => nofun) fun _ => ?_
        exact Keeps.bind (Still.ignoring (Noted.persistCompilation _)) fun _ => Keeps.pure _
      · exact Keeps.pure _
  have diverges (claim : AuthorityClaim) (candidate : ContentRef) (reproducibility : ReproducibilityRequirement) :
      Keeps (Impl.Calm id record allowed) (refuseDivergent claim candidate reproducibility) := by
    unfold refuseDivergent
    refine Keeps.bind (settle (fun _ => rfl) (fun _ => rfl) (fun _ => rfl) fun _ h => h) fun _ => ?_
    split
    · refine Keeps.bind (settle (fun _ => rfl) (fun _ => rfl) (fun _ => rfl) fun _ h => h) fun _ => ?_
      refine Keeps.bind (Still.ignoring (Aloof.failAttemptLocked _ _ _)) fun _ => ?_
      exact Keeps.bind (Still.ignoring (Noted.persistCompilation _)) fun _ => Keeps.pure _
    · refine Keeps.bind (Still.ignoring (Aloof.failAttemptLocked _ _ _)) fun _ => ?_
      exact Keeps.bind (Still.ignoring (Noted.persistCompilation _)) fun _ => Keeps.pure _
  have commits (worker : WorkerId) (claim : AuthorityClaim) (compilation : CompilationRecord) :
      Keeps (Impl.Calm id record allowed) (commitFirst session worker claim validation compilation) := by
    unfold commitFirst
    refine Keeps.bind (Still.orReturn (Aloof.transitionAttempt _ _)) fun _ => Keeps.bind Still.now fun _ => ?_
    refine Keeps.bind (settle (fun _ => rfl) (fun _ => rfl) (fun _ => rfl) fun _ => nofun) fun _ => ?_
    refine Keeps.bind Still.getState fun s => Keeps.bind Still.now fun _ => Keeps.bind Still.now fun _ => ?_
    refine Keeps.bind (Aloof.onAttempt _ _) fun _ => Keeps.bind (Still.orReturn (Aloof.transitionAttempt _ _)) fun _ => ?_
    refine Keeps.bind (settle (fun _ => rfl) (fun _ => rfl) (fun _ => rfl) fun _ => nofun) fun _ => ?_
    refine Keeps.bind (Still.orReturn (Aloof.transitionAttempt _ _)) fun _ => Keeps.bind Still.now fun _ => ?_
    refine Keeps.bind (settle (fun _ => rfl) (fun _ => rfl) (fun _ => rfl) fun _ => nofun) fun _ => ?_
    refine Keeps.bind (Aloof.finishAttemptBookkeeping _) fun _ => Keeps.bind (aside fun _ => rfl) fun _ => ?_
    refine Keeps.bind (Noted.recordIntermediate _ _) fun _ => Keeps.bind (Noted.recordCacheEntry _ _ _) fun _ => ?_
    refine Keeps.bind (Noted.markJobProgress _) fun _ => Keeps.bind Still.getState fun s => ?_
    refine Keeps.bind (aside fun _ => rfl) fun _ => Keeps.bind (Noted.persistCommit _ _ _ _ _) fun _ => ?_
    exact Keeps.bind (aside fun _ => rfl) fun _ => Keeps.pure _
  have locked (claim : AuthorityClaim) : Keeps (Impl.Calm id record allowed) (commitLocked session claim validation) := by
    unfold commitLocked
    grind
  unfold DistributedCompilation.commitOutput
  refine Keeps.bind Still.getState fun s => ?_
  split
  · exact Still.refused _ _
  · split
    · exact Still.refused _ _
    · split
      · exact locked _
      · refine Keeps.bind (Noted.recordViolation _ _ _ _ _) fun _ => Keeps.bind (Aloof.transitionAttempt _ _) fun moved => ?_
        split
        · refine Keeps.bind (Aloof.finishAttemptBookkeeping _) fun _ => ?_
          exact Keeps.bind (Still.ignoring (Noted.persistAttempt _)) fun _ => Keeps.pure _
        · exact Keeps.pure _

-- ---------------------------------------------------------------------------
-- Workers
-- ---------------------------------------------------------------------------

theorem beginCompile (claim : AuthorityClaim) : Keeps (Impl.Calm id record allowed) (beginCompile claim) := by
  unfold DistributedCompilation.beginCompile
  refine Keeps.bind Still.ensureOpen fun _ => Keeps.bind Still.getState fun s => ?_
  have persisted : Keeps (Impl.Calm id record allowed) (do
      orReturn (persistAttempt claim.attempt)
      orReturn (persistCompilation claim.compilation)) :=
    Keeps.bind (Still.orReturn (Noted.persistAttempt _)) fun _ => Still.orReturn (Noted.persistCompilation _)
  split
  · exact Keeps.bind (Noted.recordViolation _ _ _ _ _) fun _ => Still.refused _ _
  · split
    · exact Still.refused _ _
    · split
      · exact Keeps.bind (Noted.recordViolation _ _ _ _ _) fun _ => Still.refused _ _
      · refine Keeps.ite (fun _ => Still.refused _ _) fun _ => ?_
        split
        · refine Keeps.bind (Still.orReturn (Aloof.transitionAttempt _ _)) fun _ => Keeps.bind Still.now fun startedAt => ?_
          refine Keeps.bind (Aloof.onAttempt _ _) fun _ => ?_
          refine Keeps.bind (settle (fun _ => rfl) (fun _ => rfl) (fun _ => rfl) fun record h => ?_) fun _ => persisted
          dsimp only at h
          split at h <;> cases h
        · exact persisted

theorem registerWorker (registration : WorkerRegistration) :
    Keeps (Impl.Calm id record allowed) (registerWorker registration) := by
  unfold DistributedCompilation.registerWorker
  refine Keeps.bind Still.ensureOpen fun _ => Keeps.ite (fun _ => Still.refused _ _) fun _ => ?_
  refine Keeps.ite (fun _ => Still.refused _ _) fun _ => Keeps.bind (Still.orThrow _) fun _ => Keeps.bind .read fun i => ?_
  refine Keeps.ite (fun _ => Still.refused _ _) fun _ => Keeps.bind Still.now fun _ => Keeps.bind (aside fun _ => rfl) fun _ => ?_
  exact Keeps.bind (Still.orReturn (Noted.persistEntity _)) fun _ => Keeps.pure _

theorem advertiseCapabilities (session : SessionId) (capabilities : WorkerCapabilities) :
    Keeps (Impl.Calm id record allowed) (advertiseCapabilities session capabilities) := by
  unfold DistributedCompilation.advertiseCapabilities
  refine Keeps.bind Still.ensureOpen fun _ => Keeps.bind (Touched.sessionWorker _) fun found => ?_
  refine Keeps.ite (fun _ => Keeps.bind (Noted.recordViolation _ _ _ _ _) fun _ => Still.refused _ _) fun _ => ?_
  refine Keeps.bind (Still.orThrow _) fun _ => Keeps.bind Still.now fun _ => Keeps.bind (Aloof.onWorker _ _) fun _ => ?_
  exact Still.orReturn (Noted.persistEntity _)

omit [HashFunction] in
theorem markReady (session : SessionId) : Keeps (Impl.Calm id record allowed) (markReady session) := by
  unfold DistributedCompilation.markReady
  refine Keeps.bind Still.ensureOpen fun _ => Keeps.bind (Touched.sessionWorker _) fun found => ?_
  refine Keeps.ite (fun _ => Still.refused _ _) fun _ => Keeps.ite (fun _ => Still.refused _ _) fun _ => ?_
  refine Keeps.bind Logged.now fun _ => Keeps.bind (Aloof.onWorker _ _) fun _ => Still.orReturn (Logged.persistWorker _)

omit [HashFunction] in
theorem heartbeat (session : SessionId) : Keeps (Impl.Calm id record allowed) (heartbeat session) := by
  unfold DistributedCompilation.heartbeat
  refine Keeps.bind Still.ensureOpen fun _ => Keeps.bind Still.getState fun s => ?_
  split
  · exact Still.refused _ _
  · refine Keeps.ite (fun _ => Still.refused _ _) fun _ => Keeps.bind Logged.now fun _ => Keeps.bind (aside fun _ => rfl) fun _ => ?_
    refine Keeps.ite (fun _ => Keeps.pure _) fun _ => ?_
    split
    · exact Still.refused _ _
    · exact Keeps.ite (fun _ => Still.refused _ _) fun _ => Aloof.onWorker _ _

theorem handleValidateResponse (session : SessionId) (mode : UInt32) (evidence : EvidenceClass)
    (digest : Digest256) (detail : Bytes) :
    Keeps (Impl.Calm id record allowed) (handleValidateResponse session mode evidence digest detail) := by
  unfold DistributedCompilation.handleValidateResponse
  refine Keeps.bind Still.ensureOpen fun _ => Keeps.bind (Touched.sessionWorker _) fun found => ?_
  refine Keeps.ite (fun _ => Still.refused _ _) fun _ => Keeps.ite (fun _ => Keeps.pure _) fun _ => ?_
  refine Keeps.ite (fun _ => ?_) fun _ => ?_
  · refine Keeps.bind (Aloof.onWorker _ _) fun _ => Keeps.bind (Noted.recordViolation _ _ _ _ _) fun _ => ?_
    exact Still.orReturn (Noted.persistWorker _)
  · exact Keeps.bind Still.now fun _ => Keeps.bind (Aloof.onWorker _ _) fun _ => Still.orReturn (Noted.persistWorker _)

omit [HashFunction] in
theorem cancel (key : CompilationId) (reason : Bytes) : Keeps (Impl.Calm id record allowed) (cancel key reason) := by
  unfold DistributedCompilation.cancel
  refine Keeps.bind Still.ensureOpen fun _ => Keeps.bind Still.getState fun s => ?_
  split
  · exact Still.refused _ _
  · refine Keeps.ite (fun _ => Still.refused _ _) fun _ => ?_
    refine Keeps.bind (Keeps.forEach _ fun _ _ => Aloof.cancelAttempt _ _ _) fun _ => ?_
    refine Keeps.bind (Keeps.forEach _ fun _ _ => Aloof.cancelLease _ _ _) fun _ => Keeps.bind Logged.now fun updatedAt => ?_
    refine Keeps.bind (settle (fun _ => rfl) (fun _ => rfl) (fun _ => rfl) fun _ => nofun) fun _ => ?_
    exact Still.orReturn (Logged.persistCompilation _)

-- ---------------------------------------------------------------------------
-- Submission
-- ---------------------------------------------------------------------------

/-- A submission may let a compilation wait; it counts no attempt of one it knows. -/
theorem submit {known : CompilationRecord} (bundle : SubmissionBundle) :
    Keeps (Impl.Calm id (some known) True) (submit bundle) := by
  have updates {key : CompilationId} {f : CompilationRecord → CompilationRecord}
      (attempts : ∀ old : CompilationRecord, (f old).attempts = old.attempts)
      (counter : ∀ old : CompilationRecord, (f old).attemptOrdinalCounter = old.attemptOrdinalCounter)
      (identity : ∀ old : CompilationRecord, (f old).requestIdentity = old.requestIdentity) :
      Keeps (Impl.Calm id (some known) True) (DistributedCompilation.onCompilation key f) :=
    onCompilation fun old => ⟨attempts old, counter old, identity old, fun _ => .inr trivial⟩
  have rebuilds (key : CompilationId) : Keeps (Impl.Calm id (some known) True) (rebuild key) := by
    have supersedes : Keeps (Impl.Calm id (some known) True) (onState (·.supersede key)) := by
      intro i hi
      have hupdated := @updates key (fun record => { record with generation := record.generation.next }) (fun _ => rfl)
        (fun _ => rfl) (fun _ => rfl) i hi
      show Impl.Calm id (some known) True { i with state := i.state.supersede key }
      unfold State.supersede
      dsimp only
      split
      · exact hupdated
      · exact hupdated
    unfold rebuild
    refine Keeps.bind supersedes fun _ => Keeps.bind Still.getState fun s => ?_
    have resets : Keeps (Impl.Calm id (some known) True) (do
        let updatedAt ← now
        DistributedCompilation.onCompilation key (·.reset updatedAt)
        orReturn (persistCompilation key)) :=
      Keeps.bind Still.now fun _ => Keeps.bind (updates (fun _ => rfl) (fun _ => rfl) fun _ => rfl) fun _ =>
        Still.orReturn (Noted.persistCompilation _)
    split
    · exact resets
    · split
      · exact Keeps.bind (aside fun _ => rfl) fun _ => resets
      · exact Keeps.bind (Noted.persistOrLeave _) fun _ => Keeps.bind (aside fun _ => rfl) fun _ => resets
  have admits (forceRebuild : Bool) (request : CompilationRequest) (unit : CompilationUnitSpec) :
      Keeps (Impl.Calm id (some known) True) (admitUnit forceRebuild request unit) := by
    intro i hi
    unfold admitUnit
    dsimp only
    rw [Still.wp_getState_bind]
    split
    next fresh =>
      refine Still.wp_now hi fun createdAt j h same => ?_
      rw [Still.wp_onState_bind]
      refine Noted.persistOrLeave (I := Impl.Calm id (some known) True) _ _ ?_
      -- the record of a known compilation is not the one created
      have hne : deriveCompilationId unit.identityDigest ≠ id := by
        rintro rfl
        unfold Impl.Calm at hi
        rw [fresh] at hi
        cases hi
      unfold Impl.Calm at h ⊢
      show Option.Rel _ _ (j.state.compilations.insert (deriveCompilationId unit.identityDigest) _)[id]?
      rw [Table.get_insert, if_neg hne]
      exact h
    next existing _ =>
      refine Keeps.ite (fun _ => rebuilds _) (fun _ => ?_) i hi
      exact Keeps.ite (fun _ => updates (fun _ => rfl) (fun _ => rfl) fun _ => rfl) fun _ => Keeps.pure _
  have serves (key : CompilationId) (entryId : CacheEntryId) (entry : CacheEntry) (submission : UnitSubmission) :
      Keeps (Impl.Calm id (some known) True) (serveHit key entryId entry submission) := by
    unfold serveHit
    refine Keeps.bind Still.getState fun s => Keeps.bind Still.now fun updatedAt => ?_
    refine Keeps.bind (updates (fun _ => rfl) (fun _ => rfl) fun _ => rfl) fun _ => ?_
    exact Keeps.bind (Noted.touchCacheEntry _) fun _ => Keeps.bind (Still.orReturn (Noted.persistCompilation _)) fun _ =>
      Keeps.pure _
  have answers (forceRebuild : Bool) (request : CompilationRequest) (unit : CompilationUnitSpec) :
      Keeps (Impl.Calm id (some known) True) (answerUnit forceRebuild request unit) := by
    unfold answerUnit
    refine Keeps.bind .read fun i => ?_
    dsimp only
    split
    · exact serves _ _ _ _
    · refine Keeps.ite (fun _ => Keeps.pure _) fun _ => ?_
      exact Keeps.bind (updates (fun _ => rfl) (fun _ => rfl) fun _ => rfl) fun _ => Keeps.pure _
  unfold DistributedCompilation.submit
  refine Keeps.bind .read fun i => Keeps.bind (Still.orLeave _) fun _ => ?_
  refine Keeps.bind Still.ensureOpen fun _ => Keeps.bind (Still.orThrow _) fun request => ?_
  refine Keeps.bind (Keeps.forEach _ fun unit _ => Still.orLeave _) fun _ => ?_
  refine Keeps.bind (Still.registerAndCheck (fun hi aside => ?_) request) fun request => ?_
  · unfold Impl.Calm
    rw [aside.compilations]
    exact hi
  unfold submitRegistered
  refine Keeps.bind Still.getState fun s => Keeps.bind (Still.storeBlobs _) fun _ => ?_
  refine Keeps.bind (Noted.retainRequest _) fun _ => Keeps.bind (Noted.openJob _) fun job => ?_
  refine Keeps.bind (Keeps.forEach _ fun unit _ => admits _ _ unit) fun _ => Keeps.bind (aside fun _ => rfl) fun _ => ?_
  refine Keeps.bind (Noted.persistOrLeave _) fun _ => Keeps.bind (Keeps.collect _ fun unit _ => ?_) fun units => ?_
  · exact Keeps.bind (answers _ _ _) fun _ => Keeps.pure _
  · exact Keeps.bind (aside fun _ => rfl) fun _ => Keeps.bind (Noted.persistOrLeave _) fun _ => Keeps.pure _

end

end Impl.Calm

end DistributedCompilation
