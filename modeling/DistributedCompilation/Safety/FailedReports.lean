import DistributedCompilation.Safety.Founded
import DistributedCompilation.Safety.Held

/-!
# Distributed Compilation — reports that fail

`commit_locked` publishes a first commit, its cache entry and the progress of its
job, and checks only then whether the journal took the commit record. The two
other phases and the other outcomes of a report publish nothing
(`failed_report_leaves_no_authority_iff`).
-/

namespace DistributedCompilation

open Program (Keeps)

-- ---------------------------------------------------------------------------
-- What a failed report must not change
-- ---------------------------------------------------------------------------

/-- The tables of commits, the cache index and the committed flags of the jobs are
the same, and no further compilation is committed. -/
structure State.SameAuthority (s s' : State) : Prop where
  authoritative : s'.authoritative = s.authoritative
  commits : s'.commits = s.commits
  provenances : s'.provenances = s.provenances
  validations : s'.validations = s.validations
  cacheIndex : s'.cacheIndex = s.cacheIndex
  jobs : ∀ identity : Digest256,
    (s'.jobs[identity]?).map (·.committed) = (s.jobs[identity]?).map (·.committed)
  compilations : ∀ (id : CompilationId) (record : CompilationRecord), s'.compilations[id]? = some record →
    record.state = .committed →
      ∃ before : CompilationRecord, s.compilations[id]? = some before ∧ before.state = .committed

namespace State.SameAuthority

theorem refl (s : State) : s.SameAuthority s :=
  ⟨rfl, rfl, rfl, rfl, rfl, fun _ => rfl, fun _ record h hstate => ⟨record, h, hstate⟩⟩

theorem trans {s s' s'' : State} (h : s.SameAuthority s') (h' : s'.SameAuthority s'') :
    s.SameAuthority s'' where
  authoritative := h'.authoritative.trans h.authoritative
  commits := h'.commits.trans h.commits
  provenances := h'.provenances.trans h.provenances
  validations := h'.validations.trans h.validations
  cacheIndex := h'.cacheIndex.trans h.cacheIndex
  jobs identity := (h'.jobs identity).trans (h.jobs identity)
  compilations id record hrecord hstate := by
    obtain ⟨between, hbetween, hcommitted⟩ := h'.compilations id record hrecord hstate
    exact h.compilations id between hbetween hcommitted

theorem withCompilation (s : State) (id : CompilationId) {f : CompilationRecord → CompilationRecord}
    (h : ∀ record, (f record).state = .committed → record.state = .committed) :
    s.SameAuthority (s.withCompilation id f) := by
  refine ⟨rfl, rfl, rfl, rfl, rfl, fun _ => rfl, fun key next hnext hstate => ?_⟩
  obtain ⟨record, hrecord, rfl | ⟨-, rfl⟩⟩ := Table.of_get_modify hnext
  · exact ⟨next, hrecord, hstate⟩
  · exact ⟨record, hrecord, h record hstate⟩

/-- Other tables. -/
theorem outside {s s' : State} (authoritative : s'.authoritative = s.authoritative)
    (commits : s'.commits = s.commits) (provenances : s'.provenances = s.provenances)
    (validations : s'.validations = s.validations) (cacheIndex : s'.cacheIndex = s.cacheIndex)
    (jobs : s'.jobs = s.jobs) (compilations : s'.compilations = s.compilations) : s.SameAuthority s' :=
  ⟨authoritative, commits, provenances, validations, cacheIndex, fun _ => by rw [jobs],
    fun id record h hstate => ⟨record, compilations ▸ h, hstate⟩⟩

@[grind ←] theorem withAttempt (s : State) (id : CompilationAttemptId)
    (f : CompilationAttempt → CompilationAttempt) : s.SameAuthority (s.withAttempt id f) :=
  outside rfl rfl rfl rfl rfl rfl rfl

@[grind ←] theorem withWorker (s : State) (id : WorkerId) (f : WorkerRecord → WorkerRecord) :
    s.SameAuthority (s.withWorker id f) := outside rfl rfl rfl rfl rfl rfl rfl

@[grind ←] theorem withLease (s : State) (id : LeaseId) (f : CompileLease → CompileLease) :
    s.SameAuthority (s.withLease id f) := outside rfl rfl rfl rfl rfl rfl rfl

@[grind ←] theorem counted (s : State) : s.SameAuthority s.counted := outside rfl rfl rfl rfl rfl rfl rfl

end State.SameAuthority

/-- Properties that look at the authorities of the state only. -/
class Sheltered (I : Impl → Prop) : Prop where
  shelter : ∀ {i j : Impl}, I i → i.state.SameAuthority j.state → I j

instance (s : State) : Sheltered fun i => s.SameAuthority i.state := ⟨fun hi h => hi.trans h⟩

namespace Sheltered

variable {I : Impl → Prop} [Sheltered I]

@[grind ←] theorem onState {f : State → State} (h : ∀ s : State, s.SameAuthority (f s)) : Keeps I (onState f) :=
  Keeps.update fun i hi => shelter hi (h i.state)

@[grind ←] theorem onAttempt (id : CompilationAttemptId) (f : CompilationAttempt → CompilationAttempt) :
    Keeps I (onAttempt id f) := onState fun s => .withAttempt s id f

@[grind ←] theorem onWorker (id : WorkerId) (f : WorkerRecord → WorkerRecord) :
    Keeps I (onWorker id f) := onState fun s => .withWorker s id f

theorem update {f : Impl → Impl} (h : ∀ i, (f i).state = i.state) : Keeps I (Program.update f : M Unit) :=
  Keeps.update fun i hi => shelter hi (by rw [h]; exact .refl _)

@[grind ←] theorem now : Keeps I now :=
  Keeps.bind .read fun _ => Keeps.bind (update fun _ => rfl) fun _ => .pure _

@[grind ←] theorem ioSucceeds : Keeps I ioSucceeds :=
  Keeps.bind .read fun _ => Keeps.bind (update fun _ => rfl) fun _ => .pure _

@[grind ←] theorem onStore (f : Store → Store) : Keeps I (onStore f) :=
  update fun _ => rfl

@[grind ←] theorem append (type : RecordType) (payload : Bytes) :
    Keeps I (append type payload) := by
  unfold DistributedCompilation.append
  grind

@[grind ←] theorem persist (entity : Entity) : Keeps I (persist entity) := by
  unfold DistributedCompilation.persist countLost
  grind

@[grind ←] theorem persistAttempt (id : CompilationAttemptId) :
    Keeps I (persistAttempt id) := by
  unfold DistributedCompilation.persistAttempt
  grind

@[grind ←] theorem persistCompilation (id : CompilationId) :
    Keeps I (persistCompilation id) := by
  unfold DistributedCompilation.persistCompilation
  grind

@[grind ←] theorem transitionAttempt (id : CompilationAttemptId) (next : AttemptState) :
    Keeps I (transitionAttempt id next) := by
  unfold DistributedCompilation.transitionAttempt
  grind

@[grind ←] theorem finishAttemptBookkeeping (id : CompilationAttemptId) :
    Keeps I (finishAttemptBookkeeping id) := by
  unfold DistributedCompilation.finishAttemptBookkeeping
  refine Keeps.bind now fun _ => Keeps.bind (onAttempt _ _) fun _ => Keeps.bind Still.getState fun s => ?_
  split
  · exact Keeps.pure _
  next attempt _ =>
    have revoked : Keeps I (DistributedCompilation.onState (·.withLease attempt.lease fun lease =>
        lease.revoke (txt "attempt reached " ++ attempt.state.text))) := onState fun s => .withLease s _ _
    split
    · exact Keeps.bind now fun _ => Keeps.bind (onWorker _ _) fun _ => revoked
    · exact revoked

@[grind ←] theorem failAttemptLocked (id : CompilationAttemptId) (code : ErrorCode) (detail : Bytes) :
    Keeps I (failAttemptLocked id code detail) := by
  unfold DistributedCompilation.failAttemptLocked
  grind

@[grind ←] theorem recordViolation (operation : String) (code : ErrorCode) (session : SessionId)
    (worker : WorkerId) (detail : Bytes) :
    Keeps I (recordViolation operation code session worker detail) := by
  unfold DistributedCompilation.recordViolation
  refine Keeps.bind Still.getState fun s => ?_
  split
  · exact Keeps.pure _
  · exact Keeps.bind now fun _ => onState fun _ => .outside rfl rfl rfl rfl rfl rfl rfl

@[grind ←] theorem walkToCommitted (id : CompilationAttemptId) (state : AttemptState) :
    Keeps I (walkToCommitted id state) := by
  unfold DistributedCompilation.walkToCommitted
  grind

end Sheltered

section

variable [HashFunction]

-- ---------------------------------------------------------------------------
-- The first two phases
-- ---------------------------------------------------------------------------

/-- The reservation leaves the authorities alone, however it ends. -/
theorem Sheltered.reserveOutput {I : Impl → Prop} [Sheltered I] (session : SessionId) (output : ReportOutput) :
    Keeps I (reserveOutput session output) := by
  have compilation (id : CompilationId) {f : CompilationRecord → CompilationRecord}
      (h : ∀ record, (f record).state = .committed → record.state = .committed) :
      Keeps I (onCompilation id f) := onState fun s => .withCompilation s id h
  have refusal (code code' : ErrorCode) (worker : WorkerId) (detail detail' : Bytes) : Keeps I (do
      DistributedCompilation.recordViolation "report_output" code session worker detail
      refused code' detail' : M Reservation) :=
    Keeps.bind (recordViolation _ _ _ _ _) fun _ => Still.refused _ _
  unfold DistributedCompilation.reserveOutput
  refine Keeps.bind Still.ensureOpen fun _ => Keeps.bind .read fun i => ?_
  simp only
  split
  next => exact refusal _ _ _ _ _
  next attempt _ =>
  split
  next => exact Still.refused _ _
  next record _ =>
  split
  next => exact Still.refused _ _
  next worker _ =>
  refine Keeps.ite (fun _ => Still.refused _ _) fun _ => Keeps.ite (fun _ => refusal _ _ _ _ _) fun _ => ?_
  split
  next => exact refusal _ _ _ _ _
  next =>
  refine Keeps.ite (fun _ => Still.refused _ _) fun _ => Keeps.ite (fun _ => Still.refused _ _) fun _ =>
    Keeps.ite (fun _ => Still.refused _ _) fun _ => ?_
  refine Keeps.bind (onAttempt _ _) fun _ => ?_
  refine Keeps.bind (Still.orReturn (transitionAttempt _ _)) fun _ => Keeps.bind now fun _ => ?_
  refine Keeps.bind (compilation _ fun record => ?_) fun _ => ?_
  · -- the state is the old one or `Producing`
    simp only
    split
    · exact nofun
    · exact fun h => h
  refine Keeps.bind (Still.orReturn (persistAttempt _)) fun _ => ?_
  exact Keeps.bind (Still.ignoring (persistCompilation _)) fun _ => Keeps.pure _

theorem Sheltered.storeOutput {I : Impl → Prop} [Sheltered I] (r : Reservation) :
    Keeps I (storeOutput r) := by
  have : Still I := ⟨fun hi hstate _ => shelter hi (by rw [hstate]; exact .refl _)⟩
  exact Still.orReturn (Still.storeBlob _)

-- ---------------------------------------------------------------------------
-- Sections that refuse nothing
-- ---------------------------------------------------------------------------

/-- No run of the section returns an error status; it may throw. -/
def Unrefusing {α : Type} (m : M α) : Prop :=
  ∀ i, Program.wp m (fun r _ => ∀ status, r ≠ .error (.status status)) i

namespace Unrefusing

variable {α β : Type}

omit [HashFunction]

@[grind ←] theorem pure (a : α) : Unrefusing (Pure.pure a : M α) := fun _ _ => nofun

@[grind ←] theorem read : Unrefusing (Program.read : M Impl) := fun _ _ => nofun

@[grind ←] theorem update (f : Impl → Impl) : Unrefusing (Program.update f : M Unit) := fun _ _ => nofun

@[grind ←] theorem throw : Unrefusing (Program.leave .lengthError : M α) := fun _ _ => nofun

@[grind ←] theorem bind {m : M α} {f : α → M β} (hm : Unrefusing m) (hf : ∀ a, Unrefusing (f a)) :
    Unrefusing (m >>= f) := fun i =>
  Program.wp_seq _ (hm i) (fun a j _ => hf a j) fun _ _ h status hr => h status (by
    obtain rfl := Except.error.inj hr
    rfl)

@[grind ←] theorem getState : Unrefusing getState := bind read fun _ => pure _

@[grind ←] theorem onState (f : State → State) : Unrefusing (onState f) := update _

@[grind ←] theorem onStore (f : Store → Store) : Unrefusing (onStore f) := update _

@[grind ←] theorem now : Unrefusing now := bind read fun _ => bind (update _) fun _ => pure _

@[grind ←] theorem ioSucceeds : Unrefusing ioSucceeds := bind read fun _ => bind (update _) fun _ => pure _

@[grind ←] theorem onAttempt (id : CompilationAttemptId) (f : CompilationAttempt → CompilationAttempt) :
    Unrefusing (onAttempt id f) := onState _

@[grind ←] theorem onCompilation (id : CompilationId) (f : CompilationRecord → CompilationRecord) :
    Unrefusing (onCompilation id f) := onState _

@[grind ←] theorem onWorker (id : WorkerId) (f : WorkerRecord → WorkerRecord) :
    Unrefusing (onWorker id f) := onState _

@[grind ←] theorem append (type : RecordType) (payload : Bytes) : Unrefusing (append type payload) := by
  unfold DistributedCompilation.append
  grind

@[grind ←] theorem persist (entity : Entity) : Unrefusing (persist entity) := by
  unfold DistributedCompilation.persist writes countLost
  by_cases hfits : entity.record.fits = true
  · rw [if_pos hfits]
    grind
  · rw [if_neg hfits]
    exact bind (onStore _) fun _ => throw

@[grind ←] theorem persistVoid (entity : Entity) : Unrefusing (persistVoid entity) := by
  unfold DistributedCompilation.persistVoid
  grind

@[grind ←] theorem ignoring {m : M (Result Unit)} (h : Unrefusing m) : Unrefusing (ignoring m) := by
  unfold DistributedCompilation.ignoring
  grind

@[grind ←] theorem persistAttempt (id : CompilationAttemptId) : Unrefusing (persistAttempt id) := by
  unfold DistributedCompilation.persistAttempt
  grind

@[grind ←] theorem persistCompilation (id : CompilationId) : Unrefusing (persistCompilation id) := by
  unfold DistributedCompilation.persistCompilation
  grind

@[grind ←] theorem persistWorker (id : WorkerId) : Unrefusing (persistWorker id) := by
  unfold DistributedCompilation.persistWorker
  grind

@[grind ←] theorem transitionAttempt (id : CompilationAttemptId) (next : AttemptState) :
    Unrefusing (transitionAttempt id next) := by
  unfold DistributedCompilation.transitionAttempt
  grind

@[grind ←] theorem finishAttemptBookkeeping (id : CompilationAttemptId) :
    Unrefusing (finishAttemptBookkeeping id) := by
  unfold DistributedCompilation.finishAttemptBookkeeping
  grind

@[grind ←] theorem failAttemptLocked (id : CompilationAttemptId) (code : ErrorCode) (detail : Bytes) :
    Unrefusing (failAttemptLocked id code detail) := by
  unfold DistributedCompilation.failAttemptLocked
  grind

@[grind ←] theorem recordViolation (operation : String) (code : ErrorCode) (session : SessionId)
    (worker : WorkerId) (detail : Bytes) :
    Unrefusing (recordViolation operation code session worker detail) := by
  unfold DistributedCompilation.recordViolation
  grind

@[grind ←] theorem refuseCandidate (claim : AuthorityClaim) (validation : ValidationReport) :
    Unrefusing (refuseCandidate claim validation) := by
  unfold DistributedCompilation.refuseCandidate
  grind

@[grind ←] theorem refuseDivergent (claim : AuthorityClaim) (candidate : ContentRef)
    (reproducibility : ReproducibilityRequirement) :
    Unrefusing (refuseDivergent claim candidate reproducibility) := by
  unfold DistributedCompilation.refuseDivergent
  refine bind (onCompilation _ _) fun _ => ?_
  split
  · refine bind (onCompilation _ _) fun _ => bind (ignoring (failAttemptLocked _ _ _)) fun _ => ?_
    exact bind (ignoring (persistCompilation _)) fun _ => pure _
  · refine bind (ignoring (failAttemptLocked _ _ _)) fun _ => ?_
    exact bind (ignoring (persistCompilation _)) fun _ => pure _

@[grind ←] theorem recordIntermediate (compilation : CompilationRecord) (provenance : Provenance) :
    Unrefusing (recordIntermediate compilation provenance) := by
  unfold DistributedCompilation.recordIntermediate
  grind

@[grind ←] theorem invalidateIndexed (unitIdentity : Digest256) :
    Unrefusing (invalidateIndexed unitIdentity) := by
  unfold DistributedCompilation.invalidateIndexed
  grind

@[grind ←] theorem recordCacheEntry (compilation : CompilationRecord) (commit : ArtifactCommit)
    (provenance : Provenance) : Unrefusing (recordCacheEntry compilation commit provenance) := by
  unfold DistributedCompilation.recordCacheEntry
  grind

@[grind ←] theorem markJobProgress (requestIdentity : Digest256) :
    Unrefusing (markJobProgress requestIdentity) := by
  unfold DistributedCompilation.markJobProgress
  grind

end Unrefusing

-- ---------------------------------------------------------------------------
-- A disk that refuses
-- ---------------------------------------------------------------------------

omit [HashFunction] in
/-- An update that keeps the state of the attempt. -/
theorem State.AttemptIs.withAttempt {s : State} {id : CompilationAttemptId} {state : AttemptState}
    (h : s.AttemptIs id state) {f : CompilationAttempt → CompilationAttempt}
    (same : ∀ attempt, (f attempt).state = attempt.state) : (s.withAttempt id f).AttemptIs id state := by
  obtain ⟨attempt, found, hstate⟩ := h
  refine ⟨f attempt, ?_, (same attempt).trans hstate⟩
  simp only [State.withAttempt, Table.get_modify, if_true, found, Option.map_some]

/-- Persistence is enabled, and the next `n` accesses to the disk fail. -/
def Impl.Refuses (n : Nat) (i : Impl) : Prop :=
  i.config.enablePersistence = true ∧ ∃ k, n ≤ k ∧ i.io = List.replicate k false

/-- What `commit_locked` does behind the publication. -/
def recordPublished (session : SessionId) (workerId : WorkerId) (claim : AuthorityClaim)
    (compilation : CompilationRecord) (stored : ValidationReport) (provenance : Provenance)
    (commit : ArtifactCommit) (attempt : CompilationAttempt) : M CommitDecision := do
  recordIntermediate compilation provenance
  recordCacheEntry compilation commit provenance
  markJobProgress compilation.requestIdentity
  let s ← getState
  onState (·.control (s.cancelLosers compilation claim.attempt))
  persistCommit workerId claim stored provenance commit
  onState (·.control [commitMessage session compilation attempt commit])
  pure {
    outcome := .committed
    commit
    validation := stored
    artifactAuthoritative := true
    detail := txt "authoritative artifact committed" }

/-- Properties of the configuration, the disk and its answers. -/
class Ambient (E : Impl → Prop) : Prop where
  ambient : ∀ {i j : Impl}, E i → j.config = i.config → j.store = i.store → j.io = i.io → E j

omit [HashFunction] in
instance Impl.Refuses.ambient (n : Nat) : Ambient (Impl.Refuses n) where
  ambient h config _ io := ⟨config ▸ h.1, io ▸ h.2⟩

omit [HashFunction] in
instance (b : Bool) : Ambient fun i => i.config.enablePersistence = b where
  ambient h config _ _ := config ▸ h

namespace Ambient

variable {E : Impl → Prop} [Ambient E]

omit [HashFunction]

@[grind ←] theorem onState (f : State → State) : Keeps E (onState f) :=
  Keeps.update fun _ h => ambient h rfl rfl rfl

@[grind ←] theorem now : Keeps E now :=
  Keeps.bind .read fun _ => Keeps.bind (Keeps.update fun _ h => ambient h rfl rfl rfl) fun _ => .pure _

@[grind ←] theorem finishAttemptBookkeeping (id : CompilationAttemptId) :
    Keeps E (finishAttemptBookkeeping id) := by
  have getState : Keeps E getState := Keeps.bind .read fun _ => .pure _
  unfold DistributedCompilation.finishAttemptBookkeeping onAttempt onWorker
  grind

section Rules

variable {α : Type} {Q : Except Fault α → Impl → Prop} {j : Impl} (h : E j)

include h

theorem wp_now {f : UnixMillis → M α}
    (ok : ∀ at' k, E k → k.state = j.state → Program.wp (f at') Q k) :
    Program.wp (DistributedCompilation.now >>= f) Q j := by
  rw [Still.wp_now_bind]
  exact ok _ _ (ambient h rfl rfl rfl) rfl

theorem wp_onState {g : State → State} {f : Unit → M α}
    (ok : ∀ k, E k → k.state = g j.state → Program.wp (f ()) Q k) :
    Program.wp (DistributedCompilation.onState g >>= f) Q j := by
  rw [Still.wp_onState_bind]
  exact ok _ (ambient h rfl rfl rfl) rfl

/-- A legal transition goes through. -/
theorem wp_walk {id : CompilationAttemptId} {state next : AttemptState}
    (stands : j.state.AttemptIs id state) (leads : state.Leads next) {f : Unit → M α}
    (ok : ∀ k, E k → k.state.AttemptIs id next → Program.wp (f ()) Q k) :
    Program.wp (orReturn (DistributedCompilation.transitionAttempt id next) >>= f) Q j := by
  obtain ⟨attempt, found, rfl⟩ := stands
  refine Program.wp_seq (fun r k => r = .ok () ∧ E k ∧ k.state.AttemptIs id next) ?_ ?_ ?_
  · refine wp_orReturn (wp_transitionAttempt found next) ?_ ?_ ?_
    · rintro k (⟨-, -, rfl⟩ | ⟨-, -, status, hstatus⟩)
      · refine ⟨rfl, ambient h rfl rfl rfl, { attempt with state := next }, ?_, rfl⟩
        simp only [State.withAttempt, Table.get_modify, if_true, found, Option.map_some]
      · cases hstatus
    · rintro status k (⟨-, hr, -⟩ | ⟨hillegal, -⟩)
      · cases hr
      · exact absurd leads hillegal
    · rintro fault k (⟨-, hr, -⟩ | ⟨-, -, status, hr⟩)
      · cases hr
      · cases hr
  · rintro ⟨⟩ k ⟨-, hk, hstands⟩
    exact ok k hk hstands
  · rintro fault k ⟨hr, -⟩
    cases hr

end Rules

/-- A first commit goes on to what follows its publication. -/
theorem wp_commitFirst {i : Impl} (h : E i) {claim : AuthorityClaim} {state : AttemptState}
    (stands : i.state.AttemptIs claim.attempt state) (leads : state.Leads .validating)
    (session : SessionId) (workerId : WorkerId) (validation : ValidationReport)
    (compilation : CompilationRecord) {Q : Except Fault CommitDecision → Impl → Prop}
    (rest : ∀ (j : Impl) (stored : ValidationReport) (provenance : Provenance) (commit : ArtifactCommit)
      (attempt : CompilationAttempt), E j → Program.wp
        (recordPublished session workerId claim compilation stored provenance commit attempt) Q j) :
    Program.wp (commitFirst session workerId claim validation compilation) Q i := by
  unfold commitFirst
  refine wp_walk h stands leads fun j₁ h₁ at₁ => wp_now h₁ fun validatingAt j₂ h₂ same₂ => ?_
  refine wp_onState h₂ fun j₃ h₃ same₃ => ?_
  have at₃ : j₃.state.AttemptIs claim.attempt .validating := by
    rw [same₃]
    show j₂.state.AttemptIs claim.attempt .validating
    rw [same₂]
    exact at₁
  rw [Still.wp_getState_bind]
  refine wp_now h₃ fun producedAt j₄ h₄ same₄ => wp_now h₄ fun committedAt j₅ h₅ same₅ => ?_
  refine wp_onState h₅ fun j₆ h₆ same₆ => ?_
  have at₆ : j₆.state.AttemptIs claim.attempt .validating := by
    rw [same₆]
    exact .withAttempt (by rw [same₅, same₄]; exact at₃) fun _ => rfl
  refine wp_walk h₆ at₆ (.inr rfl) fun j₇ h₇ at₇ => wp_onState h₇ fun j₈ h₈ same₈ => ?_
  have at₈ : j₈.state.AttemptIs claim.attempt .commitReady := by
    rw [same₈]
    exact at₇
  refine wp_walk h₈ at₈ (.inr rfl) fun j₉ h₉ at₉ => wp_now h₉ fun updatedAt j₁₀ h₁₀ _ => ?_
  refine wp_onState h₁₀ fun j₁₁ h₁₁ _ => ?_
  refine Program.wp_seq _ (Program.wp_and (finishAttemptBookkeeping claim.attempt j₁₁ h₁₁)
    (wp_finishAttemptBookkeeping claim.attempt j₁₁)) ?_ ?_
  · rintro ⟨⟩ j₁₂ ⟨h₁₂, -⟩
    exact wp_onState h₁₂ fun j₁₃ h₁₃ _ => rest j₁₃ _ _ _ _ h₁₃
  · rintro fault j ⟨-, hr⟩
    cases hr

end Ambient

-- ---------------------------------------------------------------------------
-- Behind the publication
-- ---------------------------------------------------------------------------

section Published

omit [HashFunction]

/-- The section spends at most `n` answers of the disk. -/
def Spends (n : Nat) {α : Type} (m : M α) : Prop :=
  ∀ k i, i.Refuses (k + n) → Program.wp m (fun _ j => j.Refuses k) i

theorem Impl.Refuses.mono {n k : Nat} {i : Impl} (h : i.Refuses n) (hle : k ≤ n) : i.Refuses k := by
  obtain ⟨hpersists, m, hn, hio⟩ := h
  exact ⟨hpersists, m, Nat.le_trans hle hn, hio⟩

namespace Spends

variable {α β : Type}

theorem of_keeps {m : M α} (h : ∀ k, Keeps (Impl.Refuses k) m) (n : Nat) : Spends n m := fun k i hi =>
  h k i (hi.mono (Nat.le_add_right k n))

theorem bind {n n' : Nat} {m : M α} {f : α → M β} (hm : Spends n m) (hf : ∀ a, Spends n' (f a)) :
    Spends (n + n') (m >>= f) := by
  intro k i hi
  refine Program.wp_seq _ (hm (k + n') i (by rw [Nat.add_assoc, Nat.add_comm n']; exact hi))
    (fun a j hj => hf a k j hj) fun _ j hj => hj.mono (Nat.le_add_right k n')

/-- What does not touch the disk costs nothing. -/
theorem after {n : Nat} {m : M α} {f : α → M β} (hm : ∀ k, Keeps (Impl.Refuses k) m)
    (hf : ∀ a, Spends n (f a)) : Spends n (m >>= f) := fun k i hi =>
  Program.wp_seq _ (hm (k + n) i hi) (fun a j hj => hf a k j hj) fun _ _ hj => hj.mono (Nat.le_add_right k n)

theorem pure (a : α) (n : Nat) : Spends n (Pure.pure a : M α) := of_keeps (fun _ => Keeps.pure a) n

theorem ite {c : Prop} [Decidable c] {n : Nat} {m m' : M α} (hm : Spends n m) (hm' : Spends n m') :
    Spends n (if c then m else m') := by
  split
  · exact hm
  · exact hm'

/-- An append that a refusing disk answers fails. -/
theorem wp_append {n : Nat} {i : Impl} (h : i.Refuses (n + 1)) (type : RecordType) (payload : Bytes) :
    Program.wp (append type payload) (fun r j => j.Refuses n ∧ ∃ status, r = .ok (.error status)) i := by
  obtain ⟨hpersists, k, hk, hio⟩ := h
  have hspent : ({ i with io := i.io.tail } : Impl).Refuses n := by
    refine ⟨hpersists, k - 1, by omega, ?_⟩
    show i.io.tail = _
    rw [hio, List.tail_replicate]
  have hfails : i.io.headD true = false := by
    rw [hio]
    cases k with
    | zero => omega
    | succ k => rfl
  unfold append
  rw [Program.wp_read_bind]
  split
  · split
    · exact ⟨⟨hpersists, k, by omega, hio⟩, _, rfl⟩
    · unfold ioSucceeds
      simp only [Program.wp_bind, Program.wp_read, Program.wp_update, Program.wp_pure]
      rw [hfails, if_neg (by decide)]
      exact ⟨hspent, _, rfl⟩
  · exact ⟨⟨hpersists, k, by omega, hio⟩, _, rfl⟩

theorem wp_persist {n : Nat} {i : Impl} (h : i.Refuses (n + 1)) (entity : Entity) :
    Program.wp (persist entity) (fun r j => j.Refuses n ∧ r ≠ .ok (.ok ())) i := by
  have lost {j : Impl} (hj : j.Refuses n) (f : Store → Store) :
      ({ j with store := f j.store } : Impl).Refuses n := ⟨hj.1, hj.2⟩
  unfold persist writes countLost onStore
  by_cases hfits : entity.record.fits = true
  · rw [if_pos hfits]
    simp only
    rw [Program.wp_read_bind, if_pos h.1]
    refine Program.wp_seq _ (wp_append h _ _) ?_ ?_
    · rintro status j ⟨hj, status, ⟨⟩⟩
      exact ⟨lost hj fun s => { s with lost := s.lost + 1 }, nofun⟩
    · rintro fault j ⟨hj, -⟩
      exact ⟨hj, nofun⟩
  · rw [if_neg hfits]
    exact ⟨lost (h.mono (Nat.le_succ n)) fun s => { s with lost := s.lost + 1 }, nofun⟩

theorem persistVoid (entity : Entity) : Spends 1 (persistVoid entity) := fun _ _ hi =>
  Program.wp_seq _ (wp_persist hi entity) (fun _ _ h => h.1) fun _ _ h => h.1

theorem getState (k : Nat) : Keeps (Impl.Refuses k) getState := Keeps.bind .read fun _ => .pure _

theorem onState (f : State → State) (k : Nat) : Keeps (Impl.Refuses k) (onState f) := Ambient.onState f

theorem recordIntermediate (compilation : CompilationRecord) (provenance : Provenance) :
    Spends 1 (recordIntermediate compilation provenance) := by
  unfold DistributedCompilation.recordIntermediate
  refine ite ?_ (pure _ 1)
  exact after getState fun s => after (onState _) fun _ => persistVoid _

theorem invalidateIndexed (unitIdentity : Digest256) : Spends 1 (invalidateIndexed unitIdentity) := by
  unfold DistributedCompilation.invalidateIndexed
  refine after getState fun s => ?_
  split
  · exact pure _ 1
  · split
    · exact pure _ 1
    · exact after (onState _) fun _ => persistVoid _

theorem recordCacheEntry (compilation : CompilationRecord) (commit : ArtifactCommit) (provenance : Provenance) :
    Spends 2 (recordCacheEntry compilation commit provenance) := by
  unfold DistributedCompilation.recordCacheEntry
  refine after getState fun s => after (onState _) fun _ => ?_
  refine after (fun _ => Ambient.now) fun createdAt => ?_
  exact bind (invalidateIndexed _) fun _ => after (onState _) fun _ => persistVoid _

theorem markJobProgress (requestIdentity : Digest256) : Spends 1 (markJobProgress requestIdentity) := by
  unfold DistributedCompilation.markJobProgress
  refine after getState fun s => ?_
  split
  · exact pure _ 1
  · exact after (onState _) fun _ => persistVoid _

end Spends

/-- On a disk that refuses, a commit that was published ends in an error. -/
theorem wp_recordPublished_refused {i : Impl} (h : i.Refuses 7) (session : SessionId) (workerId : WorkerId)
    (claim : AuthorityClaim) (compilation : CompilationRecord) (stored : ValidationReport)
    (provenance : Provenance) (commit : ArtifactCommit) (attempt : CompilationAttempt) :
    Program.wp (recordPublished session workerId claim compilation stored provenance commit attempt)
      (fun r _ => ∃ fault, r = .error fault) i := by
  have error (fault : Fault) : ∃ fault', (Except.error fault : Except Fault CommitDecision) = .error fault' :=
    ⟨fault, rfl⟩
  unfold recordPublished
  refine Program.wp_seq _ (Spends.recordIntermediate _ _ 6 i h) (fun _ j₁ h₁ => ?_) fun fault _ _ => error fault
  refine Program.wp_seq _ (Spends.recordCacheEntry _ _ _ 4 j₁ h₁) (fun _ j₂ h₂ => ?_) fun fault _ _ => error fault
  refine Program.wp_seq _ (Spends.markJobProgress _ 3 j₂ h₂) (fun _ j₃ h₃ => ?_) fun fault _ _ => error fault
  rw [Still.wp_getState_bind]
  refine Ambient.wp_onState h₃ fun j₄ h₄ _ => ?_
  refine Program.wp_seq (fun r _ => ∃ fault, r = .error fault) ?_ ?_ fun fault _ _ => error fault
  · unfold persistCommit
    refine Program.wp_seq _ (Spends.persistVoid _ 2 j₄ h₄) (fun _ j₅ h₅ => ?_) fun fault _ _ => ⟨fault, rfl⟩
    refine Program.wp_seq _ (Spends.persistVoid _ 1 j₅ h₅) (fun _ j₆ h₆ => ?_) fun fault _ _ => ⟨fault, rfl⟩
    refine Program.wp_seq (fun r _ => ∃ fault, r = .error fault) ?_ ?_ fun fault _ _ => ⟨fault, rfl⟩
    · unfold persistOrLeave
      refine Program.wp_seq _ (Spends.wp_persist h₆ _) ?_ fun fault _ _ => ⟨fault, rfl⟩
      rintro status j ⟨-, hstatus⟩
      cases status with
      | ok => exact absurd rfl hstatus
      | error status => exact ⟨_, rfl⟩
    · rintro _ _ ⟨fault, hr⟩
      cases hr
  · rintro _ _ ⟨fault, hr⟩
    cases hr

/-- Without persistence the append of a record refuses nothing. -/
theorem wp_persistOrLeave_volatile {i : Impl} (h : i.config.enablePersistence = false) (entity : Entity) :
    Program.wp (persistOrLeave entity) (fun r _ => ∀ status, r ≠ .error (.status status)) i := by
  unfold persistOrLeave persist writes
  by_cases hfits : entity.record.fits = true
  · rw [if_pos hfits]
    simp only [Program.wp_bind, Program.wp_read, h]
    intro status h
    cases h
  · rw [if_neg hfits]
    intro status h
    cases h

/-- Without persistence a commit that was published refuses nothing. -/
theorem wp_recordPublished_volatile {i : Impl} (h : i.config.enablePersistence = false) (session : SessionId)
    (workerId : WorkerId) (claim : AuthorityClaim) (compilation : CompilationRecord)
    (stored : ValidationReport) (provenance : Provenance) (commit : ArtifactCommit)
    (attempt : CompilationAttempt) :
    Program.wp (recordPublished session workerId claim compilation stored provenance commit attempt)
      (fun r _ => ∀ status, r ≠ .error (.status status)) i := by
  -- a section in front that keeps the configuration and refuses nothing
  have step {α β : Type} {j : Impl} {m : M α} {f : α → M β} (hj : j.config = i.config)
      (held : Keeps (fun k => k.config = i.config) m) (u : Unrefusing m)
      (rest : ∀ a k, k.config = i.config →
        Program.wp (f a) (fun r _ => ∀ status, r ≠ .error (.status status)) k) :
      Program.wp (m >>= f) (fun r _ => ∀ status, r ≠ .error (.status status)) j :=
    Program.wp_seq _ (Program.wp_and (held j hj) (u j)) (fun a k hk => rest a k hk.1) fun _ _ hk status hr =>
      hk.2 status (by
        obtain rfl := Except.error.inj hr
        rfl)
  unfold recordPublished
  refine step rfl (Held.recordIntermediate _ _) (.recordIntermediate _ _) fun _ j₁ h₁ => ?_
  refine step h₁ (Held.recordCacheEntry _ _ _) (.recordCacheEntry _ _ _) fun _ j₂ h₂ => ?_
  refine step h₂ (Held.markJobProgress _) (.markJobProgress _) fun _ j₃ h₃ => ?_
  refine step h₃ Held.getState .getState fun s j₄ h₄ => ?_
  refine step h₄ (Held.onState _) (.onState _) fun _ j₅ h₅ => ?_
  refine Program.wp_seq (fun r _ => ∀ status, r ≠ .error (.status status)) ?_ ?_ ?_
  · unfold persistCommit
    refine step h₅ (Held.persistVoid _) (.persistVoid _) fun _ j₆ h₆ => ?_
    refine step h₆ (Held.persistVoid _) (.persistVoid _) fun _ j₇ h₇ => ?_
    refine Program.wp_seq _ (wp_persistOrLeave_volatile (by rw [h₇]; exact h) _) ?_ ?_
    · intro _ j _
      refine Unrefusing.bind (.ignoring (.persistAttempt _)) (fun _ => ?_) j
      exact Unrefusing.bind (.ignoring (.persistCompilation _)) fun _ => .ignoring (.persistWorker _)
    · intro fault j hfault status hr
      exact hfault status (by rw [hr])
  · intro _ j _
    exact Unrefusing.bind (.onState _) (fun _ => .pure _) j
  · intro fault j hfault status hr
    obtain rfl := Except.error.inj hr
    exact hfault status rfl

end Published

-- ---------------------------------------------------------------------------
-- The third phase
-- ---------------------------------------------------------------------------

/-- The third phase of the report publishes a commit: the claim still has authority,
the candidate passed, the compilation holds no live commit, and the attempt may move
on to `Validating`. -/
def Impl.Publishes (i : Impl) (output : ReportOutput) (validation : ValidationReport) : Prop :=
  ∃ (attempt : CompilationAttempt) (compilation : CompilationRecord),
    i.state.attempts[output.claim.attempt]? = some attempt ∧
    i.state.compilations[output.claim.compilation]? = some compilation ∧
    validateAuthority output.claim (i.state.expectationFor compilation attempt) = .ok () ∧
    attempt.candidate.digest.isZero = false ∧ validation.aggregate = .pass ∧
    i.state.liveCommit output.claim.compilation = none ∧ attempt.state.Leads .validating

/-- When the third phase returns an error, whatever the disk answered, it left the
authorities alone. -/
def Impl.LeavesNoAuthority (i : Impl) (session : SessionId) (output : ReportOutput)
    (validation : ValidationReport) : Prop :=
  ∀ (io : List Bool) (status : Status) (j : Impl),
    (commitOutput session output validation).run { i with io } = (.error (.status status), j) →
      i.state.SameAuthority j.state

namespace Sheltered

omit [HashFunction]

/-- A section that refuses nothing needs no further argument. -/
theorem wp_of_unrefusing {α : Type} {m : M α} (h : Unrefusing m) (s : State) (i : Impl) :
    Program.wp m (fun r j => ∀ status, r = .error (.status status) → s.SameAuthority j.state) i :=
  Program.wp_mono (h i) fun _ _ hr status heq => absurd heq (hr status)

/-- Nor does one that leaves the authorities alone. -/
theorem wp_of_keeps {α : Type} {m : M α} {s : State} (h : Keeps (fun j => s.SameAuthority j.state) m) {i : Impl}
    (hi : s.SameAuthority i.state) :
    Program.wp m (fun r j => ∀ status, r = .error (.status status) → s.SameAuthority j.state) i :=
  Program.wp_mono (h i hi) fun _ _ hj _ _ => hj

theorem wp_deduplicate {s : State} {i : Impl} (hi : s.SameAuthority i.state) (claim : AuthorityClaim)
    (state : AttemptState) (prior : ArtifactCommit) (validation : ValidationReport) :
    Program.wp (deduplicate claim state prior validation)
      (fun r j => ∀ status, r = .error (.status status) → s.SameAuthority j.state) i := by
  unfold deduplicate
  refine Program.wp_seq _ (walkToCommitted (I := fun j => s.SameAuthority j.state) _ _ i hi) ?_ ?_
  · intro moved j hj
    split
    · refine wp_of_keeps (Keeps.bind (Still.ignoring (failAttemptLocked _ _ _)) fun _ => ?_) hj
      exact Still.refused _ _
    · refine wp_of_unrefusing (.bind (.onAttempt _ _) fun _ => .bind (.finishAttemptBookkeeping _) fun _ => ?_) _ _
      refine .bind (.ignoring (.persistAttempt _)) fun _ => .bind .getState fun s => ?_
      split
      · refine .bind .now fun _ => .bind (.onCompilation _ _) fun _ => ?_
        exact .bind (.ignoring (.persistCompilation _)) fun _ => .pure _
      · exact .pure _
  · intro fault j hj _ _
    exact hj

end Sheltered

omit [HashFunction] in
/-- What does not publish leaves the authorities alone when it ends in an error. -/
theorem wp_commitOutput_aside {i : Impl} (session : SessionId) {output : ReportOutput}
    {validation : ValidationReport} (h : ¬i.Publishes output validation) :
    Program.wp (commitOutput session output validation)
      (fun r j => ∀ status, r = .error (.status status) → i.state.SameAuthority j.state) i := by
  have same : i.state.SameAuthority i.state := .refl _
  have refusal (code : ErrorCode) (detail : Bytes) : Program.wp (refused code detail : M CommitDecision)
      (fun r j => ∀ status, r = .error (.status status) → i.state.SameAuthority j.state) i :=
    fun _ _ => same
  unfold commitOutput
  rw [Still.wp_getState_bind]
  split
  · exact refusal _ _
  next attempt hattempt =>
  split
  · exact refusal _ _
  next compilation hcompilation =>
  split
  next hauthority =>
    unfold commitLocked
    rw [Still.wp_getState_bind]
    split
    next attempt' compilation' hattempt' hcompilation' =>
      obtain rfl := Option.some.inj (hattempt.symm.trans hattempt')
      obtain rfl := Option.some.inj (hcompilation.symm.trans hcompilation')
      simp only
      split
      · exact refusal _ _
      next hcandidate =>
      split
      · exact Sheltered.wp_of_unrefusing (.refuseCandidate _ _) _ _
      next hpassed =>
      split
      next prior hprior =>
        split
        · exact Sheltered.wp_deduplicate same _ _ _ _
        · exact Sheltered.wp_of_unrefusing (.refuseDivergent _ _ _) _ _
      next hfree =>
        have hstuck : ¬attempt.state.Leads .validating := fun hleads => h ⟨attempt, compilation, hattempt,
          hcompilation, hauthority, by simpa using hcandidate, not_not.mp hpassed, hfree, hleads⟩
        unfold commitFirst
        refine Program.wp_seq (fun r k => k = i ∧ ∃ fault, r = .error fault) ?_ ?_ ?_
        · refine wp_orReturn (wp_transitionAttempt hattempt _) ?_ ?_ ?_
          · rintro k (⟨hlegal, -⟩ | ⟨-, -, status, hr⟩)
            · exact absurd hlegal hstuck
            · cases hr
          · rintro status k (⟨hlegal, -⟩ | ⟨-, rfl, -⟩)
            · exact absurd hlegal hstuck
            · exact ⟨rfl, _, rfl⟩
          · rintro fault k (⟨hlegal, -⟩ | ⟨-, rfl, -⟩)
            · exact absurd hlegal hstuck
            · exact ⟨rfl, _, rfl⟩
        · rintro ⟨⟩ k ⟨-, fault, hr⟩
          cases hr
        · rintro fault k ⟨rfl, -⟩ _ _
          exact same
    next => exact refusal _ _
  next status hauthority =>
    refine Sheltered.wp_of_unrefusing (.bind (.recordViolation _ _ _ _ _) fun _ => ?_) _ _
    refine .bind (.transitionAttempt _ _) fun moved => ?_
    split
    · refine .bind (.finishAttemptBookkeeping _) fun _ => ?_
      exact .bind (.ignoring (.persistAttempt _)) fun _ => .pure _
    · exact .pure _

/-- The worker a commit of the attempt is attributed to. -/
def State.reporterOf (s : State) (session : SessionId) (attempt : CompilationAttempt) : WorkerId :=
  match s.sessions[session]? with
  | some record => record.worker
  | none => attempt.worker

omit [HashFunction] in
/-- What publishes runs the first commit. -/
theorem Impl.Publishes.wp {i : Impl} {output : ReportOutput} {validation : ValidationReport}
    (h : i.Publishes output validation) (session : SessionId) :
    ∃ (attempt : CompilationAttempt) (compilation : CompilationRecord) (workerId : WorkerId),
      i.state.attempts[output.claim.attempt]? = some attempt ∧
      i.state.compilations[output.claim.compilation]? = some compilation ∧
      i.state.liveCommit output.claim.compilation = none ∧ attempt.state.Leads .validating ∧
      validation.aggregate = .pass ∧
      ∀ Q : Except Fault CommitDecision → Impl → Prop,
        Program.wp (commitFirst session workerId output.claim validation compilation) Q i →
          Program.wp (commitOutput session output validation) Q i := by
  obtain ⟨attempt, compilation, hattempt, hcompilation, hauthority, hcandidate, hpassed, hfree, hleads⟩ := h
  refine ⟨attempt, compilation, i.state.reporterOf session attempt, hattempt, hcompilation, hfree, hleads, hpassed, fun Q hQ => ?_⟩
  unfold commitOutput
  rw [Still.wp_getState_bind]
  simp only [hattempt, hcompilation, hauthority]
  unfold commitLocked
  rw [Still.wp_getState_bind]
  simp only [hattempt, hcompilation, hcandidate, hpassed, hfree]
  exact hQ

omit [HashFunction] in
/-- After a publication the compilation has a live commit. -/
theorem Published.live {s last : State} {claim : AuthorityClaim} {compilation : CompilationRecord}
    {validation : ValidationReport} {commit : ArtifactCommit}
    (h : Published s claim compilation validation commit last) : last.liveCommit claim.compilation = some commit := by
  obtain ⟨before, attempt, reported, producedAt, committedAt, -, -, -, -, hcommit, hnotes⟩ := h
  have hid : last.authoritative[claim.compilation]? = some commit.id := by
    rw [hnotes.authoritative]
    simp [State.publish]
  have hrecord : last.commits[commit.id]? = some commit := by
    rw [hnotes.commits]
    simp [State.publish]
  have hlive : commit.superseded = false := by
    rw [hcommit]
    rfl
  simp [State.liveCommit, hid, hrecord, hlive]

omit [HashFunction] in
theorem State.SameAuthority.liveCommit {s s' : State} (h : s.SameAuthority s') (id : CompilationId) :
    s'.liveCommit id = s.liveCommit id := by
  rw [State.liveCommit, State.liveCommit, h.authoritative, h.commits]

/-- A report that publishes leaves an authority behind, however it ends. -/
theorem Impl.Publishes.wp_authority {i : Impl} {output : ReportOutput} {validation : ValidationReport}
    (h : i.Publishes output validation) (session : SessionId) :
    Program.wp (commitOutput session output validation) (fun _ j => ¬i.state.SameAuthority j.state) i := by
  obtain ⟨attempt, compilation, workerId, hattempt, hcompilation, hfree, hleads, hpassed, hwp⟩ := h.wp session
  refine hwp _ (Program.wp_mono (Tracked.wp_commitFirst (I := fun _ => True) session workerId output.claim
    validation trivial hattempt hcompilation hfree hpassed) ?_)
  rintro r j ⟨-, ⟨-, commit, hpublished, -⟩ | ⟨hstuck, -⟩⟩
  · intro hsame
    have hnone := (hsame.liveCommit output.claim.compilation).trans hfree
    rw [hpublished.live] at hnone
    cases hnone
  · exact absurd hleads hstuck

omit [HashFunction] in
/-- On a disk that refuses, a report that publishes ends without a decision. -/
theorem Impl.Publishes.wp_refused {i : Impl} {output : ReportOutput} {validation : ValidationReport}
    (h : i.Publishes output validation) (session : SessionId) (refuses : i.Refuses 7) :
    Program.wp (commitOutput session output validation) (fun r _ => ∃ fault, r = .error fault) i := by
  obtain ⟨attempt, compilation, workerId, hattempt, -, -, hleads, -, hwp⟩ := h.wp session
  refine hwp _ (Ambient.wp_commitFirst refuses ⟨attempt, hattempt, rfl⟩ hleads _ _ _ _ ?_)
  intro j stored provenance commit attempt hj
  exact wp_recordPublished_refused hj _ _ _ _ _ _ _ _

omit [HashFunction] in
/-- Without persistence a report that publishes ends in no error status. -/
theorem Impl.Publishes.wp_volatile {i : Impl} {output : ReportOutput} {validation : ValidationReport}
    (h : i.Publishes output validation) (session : SessionId) (volatile : i.config.enablePersistence = false) :
    Program.wp (commitOutput session output validation) (fun r _ => ∀ status, r ≠ .error (.status status)) i := by
  obtain ⟨attempt, compilation, workerId, hattempt, -, -, hleads, -, hwp⟩ := h.wp session
  refine hwp _ (Ambient.wp_commitFirst (E := fun j => j.config.enablePersistence = false) volatile
    ⟨attempt, hattempt, rfl⟩ hleads _ _ _ _ ?_)
  intro j stored provenance commit attempt hj
  exact wp_recordPublished_volatile hj _ _ _ _ _ _ _ _

/-- The two phases in front leave the authorities alone. The third does, when it
returns an error, if nothing is persisted or nothing published; and it does not on a
disk that refuses, unless a record is too long to be written at all. -/
theorem failed_report_leaves_no_authority_iff :
    (∀ (s : State) (session : SessionId) (output : ReportOutput),
      Keeps (fun i => s.SameAuthority i.state) (reserveOutput session output)) ∧
    (∀ (s : State) (reservation : Reservation),
      Keeps (fun i => s.SameAuthority i.state) (storeOutput reservation)) ∧
    ∀ (i : Impl) (session : SessionId) (output : ReportOutput) (validation : ValidationReport),
      (i.config.enablePersistence = false ∨ ¬i.Publishes output validation →
        i.LeavesNoAuthority session output validation) ∧
      (i.LeavesNoAuthority session output validation →
        i.config.enablePersistence = false ∨ ¬i.Publishes output validation ∨
        ∃ j, (commitOutput session output validation).run { i with io := List.replicate 7 false } =
          (.error .lengthError, j)) := by
  refine ⟨fun s => Sheltered.reserveOutput, fun s => Sheltered.storeOutput, ?_⟩
  intro i session output validation
  refine ⟨fun hsafe io status j hrun => ?_, fun hleaves => ?_⟩
  · -- the answers of the disk are not looked at by what decides
    have hwp : Program.wp (commitOutput session output validation)
        (fun r j => ∀ status, r = .error (.status status) → i.state.SameAuthority j.state) { i with io } := by
      by_cases hpublishes : i.Publishes output validation
      · have hvolatile := hsafe.resolve_right (not_not.mpr hpublishes)
        have hwp := Impl.Publishes.wp_volatile (i := { i with io }) hpublishes session hvolatile
        exact Program.wp_mono hwp fun r j hr status heq => absurd heq (hr status)
      · exact wp_commitOutput_aside (i := { i with io }) session hpublishes
    unfold Program.wp at hwp
    rw [hrun] at hwp
    exact hwp status rfl
  · by_cases hvolatile : i.config.enablePersistence = false
    · exact .inl hvolatile
    by_cases hpublishes : i.Publishes output validation
    · refine .inr (.inr ?_)
      have hrefuses : ({ i with io := List.replicate 7 false } : Impl).Refuses 7 :=
        ⟨by simpa using hvolatile, 7, Nat.le_refl 7, rfl⟩
      have hfails := Impl.Publishes.wp_refused (i := { i with io := List.replicate 7 false }) hpublishes
        session hrefuses
      have hbehind := Impl.Publishes.wp_authority (i := { i with io := List.replicate 7 false }) hpublishes
        session
      unfold Program.wp at hfails hbehind
      generalize hrun : (commitOutput session output validation).run
        { i with io := List.replicate 7 false } = outcome at hfails hbehind
      obtain ⟨r, j⟩ := outcome
      obtain ⟨fault, rfl⟩ := hfails
      cases fault with
      | status status => exact absurd (hleaves _ status j hrun) hbehind
      | lengthError => exact ⟨j, rfl⟩
    · exact .inr (.inl hpublishes)

end

theorem failed_report_leaves_no_authority_iff_volatile :
    volatileFirst.impl.LeavesNoAuthority ⟨1⟩ { claim := {}, bytes := txt "o" } { aggregate := .pass } :=
  (failed_report_leaves_no_authority_iff.2.2 _ _ _ _).1 (.inl (by decide +kernel))

/-- Both units are assigned to the worker of a coordinator with a state directory. -/
def keptIssued : System := System.perform pairRun firstLife

def keptClaim : AuthorityClaim := keptIssued.claimFor ⟨1⟩ (keptIssued.compilationOf ⟨1⟩)

/-- The report about the first attempt is in its third phase. -/
def keptChecked : System := keptIssued.checked keptClaim

/-- The report in its third phase, on a disk that refuses from there on, ends in an
error status with a live commit that was not there before. -/
def System.leavesAuthority (sys : System) : Bool :=
  match sys.validated[0]? with
  | none => false
  | some (reservation, report) =>
    match (commitOutput reservation.session reservation.output report).run
      { sys.impl with io := List.replicate 7 false } with
    | (.error (.status _), j) =>
      (sys.impl.state.liveCommit reservation.output.claim.compilation).isNone &&
        (j.state.liveCommit reservation.output.claim.compilation).isSome
    | _ => false

theorem System.not_leavesNoAuthority {sys : System} (h : sys.leavesAuthority = true) :
    ∃ (reservation : Reservation) (report : ValidationReport), sys.validated[0]? = some (reservation, report) ∧
      ¬sys.impl.LeavesNoAuthority reservation.session reservation.output report := by
  unfold System.leavesAuthority at h
  split at h
  · cases h
  next reservation report hvalidated =>
  refine ⟨reservation, report, hvalidated, fun hleaves => ?_⟩
  split at h
  next status j hrun =>
    rw [Bool.and_eq_true] at h
    have hsame := (hleaves _ status j hrun).liveCommit reservation.output.claim.compilation
    rw [hsame, ← Option.not_isNone, h.1] at h
    exact absurd h.2 (by decide)
  · cases h

set_option maxRecDepth 100000 in
theorem keptChecked_leavesAuthority : keptChecked.leavesAuthority = true := by
  rw [keptChecked, keptClaim, keptIssued, firstLife, pairRun, pairBundle, System.checked, System.begun,
    hashFunction_eq]
  decide +kernel

/-- A reached state in which the commit record of a report is refused by the disk. -/
theorem not_failed_report_leaves_no_authority : ∃ (steps : List Step) (sys : System), Runs firstLife steps sys ∧
    ∃ (reservation : Reservation) (report : ValidationReport), sys.validated[0]? = some (reservation, report) ∧
      ¬sys.impl.LeavesNoAuthority reservation.session reservation.output report := by
  obtain ⟨steps, run⟩ := System.runs_checked keptIssued keptClaim
  exact ⟨_, keptChecked, (Runs.perform pairRun firstLife rfl).trans run,
    System.not_leavesNoAuthority keptChecked_leavesAuthority⟩

end DistributedCompilation
