import DistributedCompilation.Codec.Replay
import DistributedCompilation.Safety.Budget
import DistributedCompilation.Safety.Duplicates

/-!
# Distributed Compilation — sections that leave a cancellation alone

What comes after a cancellation looks at attempts and claims, not at the state of the
compilation: a report that is refused in its third phase, or the loss of a session
with an `Ambiguous` attempt, writes over it. Every other step leaves the compilation
`Cancelled` and issues and commits nothing for it.
-/

namespace DistributedCompilation

open Program (Keeps)

-- ---------------------------------------------------------------------------
-- What a cancellation leaves
-- ---------------------------------------------------------------------------

/-- The compilation is cancelled. -/
def State.Cancelled (s : State) (id : CompilationId) : Prop :=
  ∃ record : CompilationRecord, s.compilations[id]? = some record ∧ record.state = .cancelled

/-- Its commits are among those, up to the mark that they are superseded. -/
def State.CommitsWithin (s : State) (id : CompilationId) (base : Table ArtifactCommitId ArtifactCommit) : Prop :=
  ∀ (key : ArtifactCommitId) (commit : ArtifactCommit), s.commits[key]? = some commit → commit.compilation = id →
    ∃ old : ArtifactCommit, base[key]? = some old ∧ commit = { old with superseded := commit.superseded }

/-- None of its attempts may commit. -/
def State.Unclaimed (s : State) (id : CompilationId) : Prop :=
  ∀ (key : CompilationAttemptId) (attempt : CompilationAttempt), s.attempts[key]? = some attempt →
    attempt.compilation = id → holdsCommitAuthority attempt.state = false

/-- The compilation is cancelled, none of its attempts may commit, and it has no commit
that is not one of those. -/
structure State.CalledOff (s : State) (id : CompilationId) (base : Table ArtifactCommitId ArtifactCommit) : Prop where
  cancelled : s.Cancelled id
  unclaimed : s.Unclaimed id
  commits : s.CommitsWithin id base

/-- What of it the state of the record aside says. -/
structure State.Dormant (s : State) (id : CompilationId) (base : Table ArtifactCommitId ArtifactCommit) : Prop where
  keyed : s.Keyed
  unclaimed : s.Unclaimed id
  commits : s.CommitsWithin id base

namespace State.Dormant

variable {id : CompilationId} {base : Table ArtifactCommitId ArtifactCommit} {s s' : State}

/-- The tables it looks at are the same. -/
theorem outside (h : s.Dormant id base) (workers : s'.workers = s.workers)
    (compilations : s'.compilations = s.compilations) (attempts : s'.attempts = s.attempts)
    (commits : s'.commits = s.commits) : s'.Dormant id base where
  keyed := h.keyed.of_tables workers compilations
  unclaimed key attempt hattempt := h.unclaimed key attempt (attempts ▸ hattempt)
  commits key commit hcommit := h.commits key commit (commits ▸ hcommit)

theorem withCompilation (h : s.Dormant id base) (key : CompilationId) {f : CompilationRecord → CompilationRecord}
    (hf : ∀ record, (f record).id = record.id) : (s.withCompilation key f).Dormant id base where
  keyed := h.keyed.withCompilation key hf
  unclaimed := h.unclaimed
  commits := h.commits

theorem of_touch [HashFunction] (h : s.Dormant id base) (touch : Touch s s') : s'.Dormant id base where
  keyed := h.keyed.of_touch touch
  unclaimed key next hnext hcompilation := by
    obtain ⟨attempt, hattempt, hcontinues⟩ := touch.attempt_of hnext
    have hsame : next.compilation = attempt.compilation := (congrArg CompilationAttempt.compilation hcontinues.frozen :)
    exact (hcontinues.dormant (h.unclaimed key attempt hattempt (hsame.symm.trans hcompilation))).1
  commits key commit hcommit := by
    rw [(State.Steady.of_touch touch).commits] at hcommit
    exact h.commits key commit hcommit

instance touched [HashFunction] (id : CompilationId) (base : Table ArtifactCommitId ArtifactCommit) :
    Touched fun i => i.state.Dormant id base where
  quiet hi hstate _ := hstate ▸ hi
  touch hi h := State.Dormant.of_touch hi h

/-- An attempt of another compilation. -/
theorem assign (h : s.Dormant id base) {key : CompilationId} (hne : key ≠ id) {compilation : CompilationRecord}
    (found : s.compilations[key]? = some compilation) (worker : WorkerRecord) (speculative : Bool)
    (createdAt issuedAt updatedAt : UnixMillis) :
    (s.assign key (s.attemptFor worker compilation speculative createdAt)
      ((s.attemptFor worker compilation speculative createdAt).leaseOf issuedAt) updatedAt).Dormant id base where
  keyed := by
    have hassigned : (s.withCompilation key (·.assigned
        (s.attemptFor worker compilation speculative createdAt).id updatedAt)).Keyed :=
      h.keyed.withCompilation key fun _ => rfl
    have hleased := hassigned.withWorker (s.attemptFor worker compilation speculative createdAt).worker
      (f := (·.leased ((s.attemptFor worker compilation speculative createdAt).leaseOf issuedAt).id))
      fun _ _ => rfl
    exact hleased.of_tables rfl rfl
  unclaimed other attempt hattempt hcompilation := by
    rw [State.assign, Table.get_insert] at hattempt
    split at hattempt
    next =>
      obtain rfl := Option.some.inj hattempt
      exact absurd ((h.keyed.compilation key compilation found).symm.trans hcompilation) hne
    next => exact h.unclaimed other attempt hattempt hcompilation
  commits := h.commits

/-- A commit of another compilation. -/
theorem publish (h : s.Dormant id base) (key : CompilationId) (validation : ValidationReport)
    (provenance : Provenance) {commit : ArtifactCommit} (hne : commit.compilation ≠ id) :
    (s.publish key validation provenance commit).Dormant id base where
  keyed := h.keyed.of_tables rfl rfl
  unclaimed := h.unclaimed
  commits other next hnext hcompilation := by
    change (s.commits.insert commit.id commit)[other]? = some next at hnext
    rw [Table.get_insert] at hnext
    split at hnext
    next =>
      obtain rfl := Option.some.inj hnext
      exact absurd hcompilation hne
    next => exact h.commits other next hnext hcompilation

theorem create (h : s.Dormant id base) (record : CompilationRecord) : (s.create record).Dormant id base where
  keyed := by
    refine h.keyed.mono (fun _ worker hworker => .inr ⟨worker, hworker, rfl⟩) fun key next hnext => ?_
    change (s.compilations.insert record.id record)[key]? = some next at hnext
    rw [Table.get_insert] at hnext
    split at hnext
    next hkey =>
      obtain rfl := Option.some.inj hnext
      exact .inl hkey
    next => exact .inr ⟨next, hnext, rfl⟩
  unclaimed := h.unclaimed
  commits := h.commits

theorem supersede (h : s.Dormant id base) (key : CompilationId) : (s.supersede key).Dormant id base := by
  have hmoved := h.withCompilation key (f := fun record => { record with generation := record.generation.next })
    fun _ => rfl
  unfold State.supersede
  dsimp only
  split
  · exact hmoved
  next prior _ =>
    refine ⟨hmoved.keyed.of_tables rfl rfl, hmoved.unclaimed, fun other next hnext hcompilation => ?_⟩
    obtain ⟨commit, hcommit, rfl | ⟨-, rfl⟩⟩ := Table.of_get_modify hnext
    · exact hmoved.commits other next hcommit hcompilation
    · obtain ⟨old, hold, hsame⟩ := hmoved.commits other commit hcommit hcompilation
      exact ⟨old, hold, by rw [hsame]⟩

end State.Dormant

-- ---------------------------------------------------------------------------
-- Sections that leave it cancelled
-- ---------------------------------------------------------------------------

/-- The compilation is cancelled, and the rest is dormant. -/
def Impl.Rests (id : CompilationId) (base : Table ArtifactCommitId ArtifactCommit) (i : Impl) : Prop :=
  i.state.Cancelled id ∧ i.state.Dormant id base

instance State.Cancelled.aloof (id : CompilationId) : Aloof fun i => i.state.Cancelled id where
  aloof hi compilations _ _ := by
    unfold State.Cancelled
    rw [compilations]
    exact hi

instance State.Cancelled.noted [HashFunction] (id : CompilationId) : Noted fun i => i.state.Cancelled id where
  quiet hi hstate _ := hstate ▸ hi
  note hi h := by
    unfold State.Cancelled
    rw [h.compilations]
    exact hi

namespace State.Cancelled

variable {id : CompilationId}

/-- An update of the record that leaves a cancelled one cancelled. -/
theorem onCompilation {key : CompilationId} {f : CompilationRecord → CompilationRecord}
    (rests : ∀ record : CompilationRecord, key = id → record.state = .cancelled → (f record).state = .cancelled) :
    Keeps (fun i => i.state.Cancelled id) (onCompilation key f) := by
  refine Keeps.update fun i hi => ?_
  obtain ⟨record, found, hstate⟩ := hi
  unfold State.withCompilation State.Cancelled
  simp only [Table.get_modify]
  split
  next hkey =>
    subst hkey
    exact ⟨f record, by rw [found]; rfl, rests record rfl hstate⟩
  next => exact ⟨record, found, hstate⟩

theorem other {key : CompilationId} (hne : key ≠ id) (f : CompilationRecord → CompilationRecord) :
    Keeps (fun i => i.state.Cancelled id) (DistributedCompilation.onCompilation key f) :=
  onCompilation fun _ hkey => absurd hkey hne

theorem aside {f : State → State} (h : ∀ s : State, (f s).compilations = s.compilations) :
    Keeps (fun i => i.state.Cancelled id) (onState f) := by
  refine Keeps.update fun i hi => ?_
  unfold State.Cancelled
  rw [h]
  exact hi

-- ---------------------------------------------------------------------------
-- Failures
-- ---------------------------------------------------------------------------

/-- A cancelled parent is passed over. -/
theorem propagateTo (failed : CompilationId) (identity : Digest256) (request : CompilationRequest)
    (unitId : CompilationId) :
    Keeps (fun i => i.state.Cancelled id) (propagateTo failed identity request unitId) := by
  intro i hi
  unfold DistributedCompilation.propagateTo
  rw [Still.wp_getState_bind]
  split
  · exact hi
  next job _ =>
  split
  · exact hi
  next childState broken =>
    have hne : unitId ≠ id := by
      rintro rfl
      obtain ⟨record, found, hstate⟩ := hi
      unfold State.brokenParent at broken
      rw [found] at broken
      split at broken
      · cases broken
      · simp [hstate, CompilationState.settled] at broken
    refine Keeps.bind Logged.now (fun updatedAt => Keeps.bind (other hne _) fun _ => ?_) i hi
    refine Keeps.bind (Still.ignoring (Logged.persistCompilation _)) fun _ => ?_
    exact Keeps.bind (aside fun _ => rfl) fun _ => Logged.persistVoid _

theorem propagateFanInFailure (failed : CompilationId) :
    Keeps (fun i => i.state.Cancelled id) (propagateFanInFailure failed) := by
  unfold DistributedCompilation.propagateFanInFailure
  refine Keeps.bind Still.getState fun s => Keeps.forEach _ fun entry _ => ?_
  obtain ⟨identity, job⟩ := entry
  dsimp only
  split
  · exact Keeps.pure _
  · exact Keeps.forEach _ fun unitId _ => propagateTo _ _ _ _

theorem scheduleRetryOrFail {key : CompilationId} (hne : key ≠ id) (code : ErrorCode) (detail : Bytes) :
    Keeps (fun i => i.state.Cancelled id) (scheduleRetryOrFail key code detail) := by
  unfold DistributedCompilation.scheduleRetryOrFail
  refine Keeps.bind .read fun i => ?_
  split
  · exact Keeps.pure _
  · exact Keeps.bind Logged.now fun _ => Keeps.bind (other hne _) fun _ => propagateFanInFailure _

-- ---------------------------------------------------------------------------
-- Workers
-- ---------------------------------------------------------------------------

section

variable [HashFunction]

theorem registerWorker (registration : WorkerRegistration) :
    Keeps (fun i => i.state.Cancelled id) (registerWorker registration) :=
  Noted.registerWorker registration fun hi _ _ _ => hi

theorem advertiseCapabilities (session : SessionId) (capabilities : WorkerCapabilities) :
    Keeps (fun i => i.state.Cancelled id) (advertiseCapabilities session capabilities) := by
  unfold DistributedCompilation.advertiseCapabilities
  refine Keeps.bind Still.ensureOpen fun _ => Keeps.bind (Touched.sessionWorker _) fun found => ?_
  refine Keeps.ite (fun _ => Keeps.bind (Noted.recordViolation _ _ _ _ _) fun _ => Still.refused _ _) fun _ => ?_
  refine Keeps.bind (Still.orThrow _) fun _ => Keeps.bind Still.now fun _ => Keeps.bind (Aloof.onWorker _ _) fun _ => ?_
  exact Still.orReturn (Noted.persistEntity _)

theorem markReady (session : SessionId) : Keeps (fun i => i.state.Cancelled id) (markReady session) :=
  Noted.markReady session fun hi _ _ => hi

omit [HashFunction] in
theorem heartbeat (session : SessionId) : Keeps (fun i => i.state.Cancelled id) (heartbeat session) := by
  unfold DistributedCompilation.heartbeat
  refine Keeps.bind Still.ensureOpen fun _ => Keeps.bind Still.getState fun s => ?_
  split
  · exact Still.refused _ _
  · refine Keeps.ite (fun _ => Still.refused _ _) fun _ => Keeps.bind Logged.now fun _ => Keeps.bind (aside fun _ => rfl) fun _ => ?_
    refine Keeps.ite (fun _ => Keeps.pure _) fun _ => ?_
    split
    · exact Still.refused _ _
    · exact Keeps.ite (fun _ => Still.refused _ _) fun _ => Aloof.onWorker _ _

theorem handleValidateResponse (session : SessionId) (mode : UInt32) (evidence : EvidenceClass)
    (digest : Digest256) (detail : Bytes) :
    Keeps (fun i => i.state.Cancelled id) (handleValidateResponse session mode evidence digest detail) := by
  unfold DistributedCompilation.handleValidateResponse
  refine Keeps.bind Still.ensureOpen fun _ => Keeps.bind (Touched.sessionWorker _) fun found => ?_
  refine Keeps.ite (fun _ => Still.refused _ _) fun _ => Keeps.ite (fun _ => Keeps.pure _) fun _ => ?_
  refine Keeps.ite (fun _ => ?_) fun _ => ?_
  · refine Keeps.bind (Aloof.onWorker _ _) fun _ => Keeps.bind (Noted.recordViolation _ _ _ _ _) fun _ => ?_
    exact Still.orReturn (Noted.persistWorker _)
  · exact Keeps.bind Still.now fun _ => Keeps.bind (Aloof.onWorker _ _) fun _ => Still.orReturn (Noted.persistWorker _)

omit [HashFunction] in
/-- A second cancellation, or one of another compilation. -/
theorem cancel (key : CompilationId) (reason : Bytes) : Keeps (fun i => i.state.Cancelled id) (cancel key reason) := by
  unfold DistributedCompilation.cancel
  refine Keeps.bind Still.ensureOpen fun _ => Keeps.bind Still.getState fun s => ?_
  split
  · exact Still.refused _ _
  · refine Keeps.ite (fun _ => Still.refused _ _) fun _ => ?_
    refine Keeps.bind (Keeps.forEach _ fun _ _ => Aloof.cancelAttempt _ _ _) fun _ => ?_
    refine Keeps.bind (Keeps.forEach _ fun _ _ => Aloof.cancelLease _ _ _) fun _ => Keeps.bind Logged.now fun updatedAt => ?_
    refine Keeps.bind (onCompilation fun _ _ _ => rfl) fun _ => ?_
    exact Still.orReturn (Logged.persistCompilation _)

end

end State.Cancelled

-- ---------------------------------------------------------------------------
-- Steps that do not
-- ---------------------------------------------------------------------------

section

variable [HashFunction]

/-- The submission has a unit of the compilation. -/
def SubmissionBundle.Names (bundle : SubmissionBundle) (id : CompilationId) : Prop :=
  ∃ (request : CompilationRequest) (unit : CompilationUnitSpec), canonicalize bundle.request = .ok request ∧
    unit ∈ request.units ∧ deriveCompilationId unit.identityDigest = id

omit [HashFunction] in
/-- The claim is accepted for that attempt. Nothing in it says that the attempt is one of
the compilation it names. -/
def State.Accepts (s : State) (claim : AuthorityClaim) (attempt : CompilationAttempt) : Prop :=
  s.attempts[claim.attempt]? = some attempt ∧ ∃ record : CompilationRecord,
    s.compilations[claim.compilation]? = some record ∧
    validateAuthority claim (s.expectationFor record attempt) = .ok ()

omit [HashFunction] in
/-- A worker session that owns the attempt. -/
def State.Speaks (s : State) (id : SessionId) (attempt : CompilationAttempt) : Prop :=
  ∃ session : SessionRecord, s.sessions[id]? = some session ∧ session.isWorker = true ∧ session.owns attempt = true

omit [HashFunction] in
/-- A candidate of the attempt that passed gets further than the checks of its states. -/
def State.Admissible (s : State) (id : CompilationId) (attempt : CompilationAttempt) : Prop :=
  match s.liveCommit id with
  | some prior => prior.artifactDigest = attempt.candidate.digest ∧
      attempt.state ∈ [AttemptState.produced, .validating, .commitReady, .committed]
  | none => attempt.state.Leads .validating

/-- The steps that write over a cancellation: a submission that names the compilation, a
report or a start under a claim that names it and is still accepted, and the loss of a
session with an attempt of it that has not ended. -/
def System.Revives (sys : System) (id : CompilationId) : Op → Prop
  | .submit bundle => bundle.Names id
  | .beginCompile claim => claim.compilation = id ∧ ∃ attempt : CompilationAttempt,
      sys.impl.state.Accepts claim attempt ∧ attempt.state = .assigned
  | .failAttempt session report => report.claim.compilation = id ∧ ∃ attempt : CompilationAttempt,
      sys.impl.state.Accepts report.claim attempt ∧ sys.impl.state.Speaks session attempt ∧
      isTerminalState attempt.state = false ∧ attempt.state.Leads (failedState report.code)
  | .disconnect session _ => ∃ (record : SessionRecord) (key : CompilationAttemptId) (attempt : CompilationAttempt),
      sys.impl.state.sessions[session]? = some record ∧ sys.impl.state.attempts[key]? = some attempt ∧
      attempt.compilation = id ∧ record.owns attempt = true ∧ isTerminalState attempt.state = false ∧
      ¬sys.impl.Guards session
  | .reserve session output => output.claim.compilation = id ∧ sys.impl.state.authoritative.contains id = false ∧
      ∃ attempt : CompilationAttempt, sys.impl.state.Accepts output.claim attempt ∧
      sys.impl.state.Speaks session attempt ∧ (attempt.state = .running ∨ attempt.state = .preparing) ∧
      output.bytes.length ≤ sys.impl.config.maxArtifactBytes ∧
      (output.declaredDigest.isZero = true ∨ sha256 output.bytes = output.declaredDigest)
  | .commit n => ∃ (reservation : Reservation) (report : ValidationReport),
      sys.validated[n]? = some (reservation, report) ∧ reservation.output.claim.compilation = id ∧
      ∃ attempt : CompilationAttempt, sys.impl.state.Accepts reservation.output.claim attempt ∧
      attempt.candidate.digest.isZero = false ∧ (report.aggregate = .pass → sys.impl.state.Admissible id attempt)
  | _ => False

/-- The attempts of the compilation that the session owns have ended. -/
def State.EndedUnder (s : State) (id : CompilationId) (session : SessionRecord) : Prop :=
  ∀ (key : CompilationAttemptId) (attempt : CompilationAttempt), s.attempts[key]? = some attempt →
    attempt.compilation = id → session.owns attempt = true → isTerminalState attempt.state = true

omit [HashFunction] in
theorem AttemptState.Leads.terminal {st st' : AttemptState} (h : st.Leads st') (ended : isTerminalState st = true) :
    isTerminalState st' = true := by
  rcases h with rfl | hlegal
  · exact ended
  · revert hlegal ended
    cases st <;> cases st' <;> decide

instance State.EndedUnder.touched (id : CompilationId) (session : SessionRecord) :
    Touched fun i => i.state.EndedUnder id session where
  quiet hi hstate _ := hstate ▸ hi
  touch {i s'} hi touch := by
    cases touch with
    | note note => exact fun key attempt hattempt => hi key attempt (note.attempts ▸ hattempt)
    | attempt other advances =>
      intro key next hnext hcompilation howns
      obtain ⟨attempt, hattempt, rfl | ⟨rfl, rfl⟩⟩ := Table.of_get_modify hnext
      · exact hi key next hattempt hcompilation howns
      · have hadvances := advances attempt hattempt
        have hfrozen := hadvances.frozen
        refine hadvances.leads.terminal (hi _ attempt hattempt ?_ ?_)
        · exact (congrArg CompilationAttempt.compilation hfrozen).symm.trans hcompilation
        · rw [SessionRecord.owns] at howns ⊢
          rw [← show _ = attempt.worker from (congrArg CompilationAttempt.worker hfrozen :),
            ← show _ = attempt.workerBoot from (congrArg CompilationAttempt.workerBoot hfrozen :)]
          exact howns
    | record | worker | lease | revoke | session => exact hi

namespace State.Cancelled

variable {id : CompilationId}

theorem beginCompile {i : Impl} (hi : i.state.Cancelled id) {claim : AuthorityClaim}
    (spares : ¬(claim.compilation = id ∧ ∃ attempt : CompilationAttempt, i.state.Accepts claim attempt ∧
      attempt.state = .assigned)) :
    Program.wp (beginCompile claim) (fun _ j => j.state.Cancelled id) i := by
  have persisted : Keeps (fun i => i.state.Cancelled id) (do
      orReturn (persistAttempt claim.attempt)
      orReturn (persistCompilation claim.compilation)) :=
    Keeps.bind (Still.orReturn (Logged.persistAttempt _)) fun _ => Still.orReturn (Logged.persistCompilation _)
  unfold DistributedCompilation.beginCompile
  refine Still.wp_ensureOpen_bind (fun _ => ?_) fun _ => hi
  rw [Still.wp_getState_bind]
  split
  · exact Keeps.bind (Noted.recordViolation _ _ _ _ _) (fun _ => Still.refused _ _) i hi
  next attempt hattempt =>
  split
  · exact hi
  next record hrecord =>
  split
  · exact Keeps.bind (Noted.recordViolation _ _ _ _ _) (fun _ => Still.refused _ _) i hi
  next hauthority =>
  split
  · exact hi
  split
  next hassigned =>
    have hne : claim.compilation ≠ id := fun heq =>
      spares ⟨heq, attempt, ⟨hattempt, record, hrecord, hauthority⟩, hassigned⟩
    refine Keeps.bind (Still.orReturn (Aloof.transitionAttempt _ _)) (fun _ => Keeps.bind Logged.now fun startedAt => ?_) i hi
    exact Keeps.bind (Aloof.onAttempt _ _) fun _ => Keeps.bind (other hne _) fun _ => persisted
  next => exact persisted i hi

theorem reserveOutput {i : Impl} (hi : i.state.Cancelled id) {session : SessionId} {output : ReportOutput}
    (spares : ¬(output.claim.compilation = id ∧ i.state.authoritative.contains id = false ∧
      ∃ attempt : CompilationAttempt, i.state.Accepts output.claim attempt ∧ i.state.Speaks session attempt ∧
      (attempt.state = .running ∨ attempt.state = .preparing) ∧ output.bytes.length ≤ i.config.maxArtifactBytes ∧
      (output.declaredDigest.isZero = true ∨ sha256 output.bytes = output.declaredDigest))) :
    Program.wp (reserveOutput session output) (fun _ j => j.state.Cancelled id) i := by
  have refusal {α : Type} (operation : String) (code code' : ErrorCode) (worker : WorkerId)
      (detail detail' : Bytes) : Keeps (fun i => i.state.Cancelled id) (do
        DistributedCompilation.recordViolation operation code session worker detail
        DistributedCompilation.refused code' detail' : M α) :=
    Keeps.bind (Noted.recordViolation _ _ _ _ _) fun _ => Still.refused _ _
  unfold DistributedCompilation.reserveOutput
  refine Still.wp_ensureOpen_bind (fun _ => ?_) fun _ => hi
  rw [Program.wp_read_bind]
  simp only
  split
  next => exact refusal _ _ _ _ _ _ i hi
  next attempt hattempt =>
  split
  next => exact hi
  next record hrecord =>
  split
  next => exact hi
  next speaker hspeaker =>
  split
  next => exact hi
  next hworker =>
  split
  next => exact refusal _ _ _ _ _ _ i hi
  next howns =>
  split
  next => exact refusal _ _ _ _ _ _ i hi
  next hauthority =>
  split
  next => exact hi
  next hstate =>
  split
  next => exact hi
  next hsize =>
  split
  next => exact hi
  next hdigest =>
  have calm : ∀ old : CompilationRecord, output.claim.compilation = id → old.state = .cancelled →
      (if old.state ≠ .committed ∧ ¬i.state.authoritative.contains output.claim.compilation = true
        then CompilationState.producing else old.state) = .cancelled := by
    intro old heq hcancelled
    rw [if_neg, hcancelled]
    rintro ⟨-, hauthoritative⟩
    refine spares ⟨heq, ?_, attempt, ⟨hattempt, record, hrecord, hauthority⟩, ⟨speaker, hspeaker, ?_, ?_⟩, ?_, ?_, ?_⟩
    · rw [heq] at hauthoritative
      exact (Bool.not_eq_true _).mp hauthoritative
    · exact not_not.mp hworker
    · exact not_not.mp howns
    · rcases not_and_or.mp hstate with h | h
      · exact .inl (not_not.mp h)
      · exact .inr (not_not.mp h)
    · omega
    · rcases not_and_or.mp hdigest with h | h
      · exact .inl (not_not.mp h)
      · exact .inr (not_not.mp h)
  refine Keeps.bind (Aloof.onAttempt _ _) (fun _ => ?_) i hi
  refine Keeps.bind (Still.orReturn (Aloof.transitionAttempt _ _)) fun _ => Keeps.bind Logged.now fun updatedAt => ?_
  refine Keeps.bind (onCompilation calm) fun _ => Keeps.bind (Still.orReturn (Logged.persistAttempt _)) fun _ => ?_
  exact Keeps.bind (Still.ignoring (Logged.persistCompilation _)) fun _ => Keeps.pure _

omit [HashFunction] in
/-- An attempt that may not go where its failure leads ends the section. -/
theorem wp_failAttemptLocked_refuses {i : Impl} {key : CompilationAttemptId} {attempt : CompilationAttempt}
    {code : ErrorCode} (found : i.state.attempts[key]? = some attempt) (illegal : ¬attempt.state.Leads (failedState code))
    (live : isTerminalState attempt.state = false) (detail : Bytes) :
    Program.wp (orReturn (failAttemptLocked key code detail)) (fun r j => j = i ∧ ∃ fault, r = .error fault) i := by
  have refuses : Program.wp (failAttemptLocked key code detail)
      (fun r j => j = i ∧ ∃ status, r = .ok (.error status)) i := by
    unfold failAttemptLocked
    refine Program.wp_seq _ (wp_transitionAttempt found _) ?_ ?_
    · rintro moved j (⟨hleads, -⟩ | ⟨-, rfl, status, hstatus⟩)
      · exact absurd hleads illegal
      · obtain rfl := Except.ok.inj hstatus
        rw [Still.wp_getState_bind]
        simp only [found, Option.any_some, live, Bool.false_eq_true, if_false]
        exact ⟨rfl, status, rfl⟩
    · rintro fault j (⟨-, hmoved, -⟩ | ⟨-, -, status, hstatus⟩)
      · cases hmoved
      · cases hstatus
  refine wp_orReturn refuses ?_ ?_ ?_
  · rintro j ⟨-, status, hstatus⟩
    cases hstatus
  · rintro status j ⟨rfl, -⟩
    exact ⟨rfl, _, rfl⟩
  · rintro fault j ⟨-, status, hstatus⟩
    cases hstatus

omit [HashFunction] in
theorem failAttempt {i : Impl} (hi : i.state.Cancelled id) {session : SessionId} {report : AttemptFailure}
    (spares : ¬(report.claim.compilation = id ∧ ∃ attempt : CompilationAttempt, i.state.Accepts report.claim attempt ∧
      i.state.Speaks session attempt ∧ isTerminalState attempt.state = false ∧
      attempt.state.Leads (failedState report.code))) :
    Program.wp (failAttempt session report) (fun _ j => j.state.Cancelled id) i := by
  have violates (code code' : ErrorCode) (worker : WorkerId) (detail detail' : Bytes) :
      Keeps (fun i => i.state.Cancelled id) (do
        recordViolation "fail_attempt" code session worker detail
        refused code' detail' : M Unit) := by
    refine Keeps.bind ?_ fun _ => Still.refused _ _
    unfold recordViolation
    refine Keeps.bind Still.getState fun s => ?_
    split
    · exact Keeps.pure _
    · exact Keeps.bind Logged.now fun _ => aside fun _ => rfl
  unfold DistributedCompilation.failAttempt
  refine Still.wp_ensureOpen_bind (fun _ => ?_) fun _ => hi
  rw [Still.wp_getState_bind]
  split
  · exact violates _ _ _ _ _ i hi
  next attempt hattempt =>
  split
  · exact hi
  next record hrecord =>
  dsimp only
  split
  · exact violates _ _ _ _ _ i hi
  next hspeaks =>
  split
  · exact violates _ _ _ _ _ i hi
  next hauthority =>
  split
  · exact hi
  next hlive =>
  by_cases hne : report.claim.compilation = id
  · -- the attempt stays, and the section ends
    have hillegal : ¬attempt.state.Leads (failedState report.code) := by
      intro hleads
      refine spares ⟨hne, attempt, ⟨hattempt, record, hrecord, hauthority⟩, ?_, (Bool.not_eq_true _).mp hlive, hleads⟩
      cases hsession : i.state.sessions[session]? with
      | none => simp [hsession] at hspeaks
      | some speaker =>
        simp only [hsession, Option.all_some, Bool.or_eq_true, Bool.not_eq_true', not_or,
          Bool.not_eq_false] at hspeaks
        exact ⟨speaker, hsession, hspeaks⟩
    refine Program.wp_seq _ (wp_failAttemptLocked_refuses hattempt hillegal ((Bool.not_eq_true _).mp hlive) _) ?_ ?_
    · rintro ⟨⟩ j ⟨-, fault, hfault⟩
      cases hfault
    · rintro fault j ⟨rfl, -⟩
      exact hi
  · refine Keeps.bind (Still.orReturn (Aloof.failAttemptLocked _ _ _)) (fun _ => ?_) i hi
    exact Keeps.bind (scheduleRetryOrFail hne _ _) fun _ => Still.orReturn (Logged.persistCompilation _)

omit [HashFunction] in
/-- With the attempts of the compilation that the session owns at their end, those that it
loses are of others. -/
theorem loseAttempt (session : SessionRecord) (detail : Bytes) (key : CompilationAttemptId) :
    Keeps (fun i => i.state.Cancelled id ∧ i.state.EndedUnder id session) (loseAttempt session detail key) := by
  have : Touched fun i => i.state.EndedUnder id session := State.EndedUnder.touched id session
  intro i hi
  refine Program.wp_and ?_ (Touched.loseAttempt (I := fun i => i.state.EndedUnder id session) session detail key i hi.2)
  unfold DistributedCompilation.loseAttempt
  rw [Still.wp_getState_bind]
  split
  · exact hi.1
  next attempt hattempt =>
  split
  · exact hi.1
  next hlost =>
    rw [not_or, not_not] at hlost
    have hne : attempt.compilation ≠ id := fun heq => hlost.2 (hi.2 key attempt hattempt heq hlost.1)
    refine Keeps.bind (Still.ignoring (Aloof.failAttemptLocked _ _ _)) (fun _ => Keeps.bind Still.getState fun s => ?_) i hi.1
    split
    · exact Keeps.bind (scheduleRetryOrFail hne _ _) fun _ => Still.ignoring (Logged.persistCompilation _)
    · exact Keeps.pure _

theorem disconnectSession {i : Impl} (hi : i.state.Cancelled id) {session : SessionId} (reason : Bytes)
    (spares : ¬∃ (record : SessionRecord) (key : CompilationAttemptId) (attempt : CompilationAttempt),
      i.state.sessions[session]? = some record ∧ i.state.attempts[key]? = some attempt ∧ attempt.compilation = id ∧
      record.owns attempt = true ∧ isTerminalState attempt.state = false ∧ ¬i.Guards session) :
    Program.wp (disconnectSession session reason) (fun _ j => j.state.Cancelled id) i := by
  by_cases hguards : i.Guards session
  · refine Program.wp_mono (wp_disconnectSession_guarded reason hguards) fun _ j hj => ?_
    unfold State.Cancelled
    rw [hj.compilations]
    exact hi
  have fences (key : WorkerId) (detail : Bytes) : Keeps (fun i => i.state.Cancelled id) (fenceWorker key detail) := by
    unfold fenceWorker markCapabilitiesUnknown
    refine Keeps.bind (aside fun _ => rfl) fun _ => Keeps.bind ?_ fun _ => aside fun _ => rfl
    refine Keeps.bind Still.getState fun s => ?_
    split
    · exact Keeps.pure _
    · refine Keeps.bind (aside fun _ => rfl) fun _ => ?_
      split
      · exact Keeps.pure _
      · exact Keeps.leave _
  unfold DistributedCompilation.disconnectSession
  rw [Program.wp_read_bind]
  split
  · exact hi
  split
  · exact hi
  next record hrecord =>
  rw [Still.wp_onState_bind]
  split
  · exact hi
  split
  · exact hi
  split
  · exact hi
  have hended : i.state.EndedUnder id record := by
    intro key attempt hattempt hcompilation howns
    by_contra hlive
    exact spares ⟨record, key, attempt, hrecord, hattempt, hcompilation, howns, (Bool.not_eq_true _).mp hlive, hguards⟩
  refine Program.wp_seq (fun _ j => j.state.Cancelled id ∧ j.state.EndedUnder id record)
    (Keeps.forEach _ (fun key _ => loseAttempt record _ key) _ ⟨hi, hended⟩) (fun _ j hj => ?_) fun _ _ hj => hj.1
  exact Keeps.bind (fences _ _) (fun _ => Still.ignoring (Logged.persistWorker _)) j hj.1

end State.Cancelled

-- ---------------------------------------------------------------------------
-- Sections that create
-- ---------------------------------------------------------------------------

instance Impl.Rests.noted (id : CompilationId) (base : Table ArtifactCommitId ArtifactCommit) :
    Noted (Impl.Rests id base) where
  quiet hi hstate _ := by
    unfold Impl.Rests
    rw [hstate]
    exact hi
  note hi h := ⟨Noted.note (I := fun i => i.state.Cancelled id) hi.1 h,
    Noted.note (I := fun i => i.state.Dormant id base) hi.2 h⟩

namespace Impl.Rests

variable {id : CompilationId} {base : Table ArtifactCommitId ArtifactCommit}

omit [HashFunction] in
theorem both {α : Type} {m : M α} (cancelled : Keeps (fun i => i.state.Cancelled id) m)
    (dormant : Keeps (fun i => i.state.Dormant id base) m) : Keeps (Impl.Rests id base) m :=
  fun i hi => Program.wp_and (cancelled i hi.1) (dormant i hi.2)

omit [HashFunction] in
theorem other {key : CompilationId} (hne : key ≠ id) {f : CompilationRecord → CompilationRecord}
    (frozen : ∀ record, (f record).id = record.id) : Keeps (Impl.Rests id base) (onCompilation key f) :=
  both (State.Cancelled.other hne f) (Keeps.update fun _ hi => hi.withCompilation key frozen)

-- ---------------------------------------------------------------------------
-- Commits
-- ---------------------------------------------------------------------------

/-- The third phase under a claim of another compilation. -/
theorem commitOutput_other {session : SessionId} {output : ReportOutput} {validation : ValidationReport}
    (hne : output.claim.compilation ≠ id) :
    Keeps (Impl.Rests id base) (commitOutput session output validation) := by
  have failed (key : CompilationAttemptId) (code : ErrorCode) (detail : Bytes) :
      Keeps (Impl.Rests id base) (ignoring (failAttemptLocked key code detail)) :=
    Still.ignoring (both (Aloof.failAttemptLocked _ _ _) (Touched.failAttemptLocked _ _ _))
  have moved (key : CompilationAttemptId) {next : AttemptState} (hassigned : next ≠ .assigned) :
      Keeps (Impl.Rests id base) (transitionAttempt key next) :=
    both (Aloof.transitionAttempt _ _) (Touched.transitionAttempt _ hassigned)
  have finished (key : CompilationAttemptId) : Keeps (Impl.Rests id base) (finishAttemptBookkeeping key) :=
    both (Aloof.finishAttemptBookkeeping _) (Touched.finishAttemptBookkeeping _)
  have attempt (key : CompilationAttemptId) {f : CompilationAttempt → CompilationAttempt}
      (h : ∀ attempt : CompilationAttempt, attempt.Advances (f attempt)) :
      Keeps (Impl.Rests id base) (onAttempt key f) := both (Aloof.onAttempt _ _) (Touched.onAttempt h)
  have refuses (claim : AuthorityClaim) (hne : claim.compilation ≠ id) :
      Keeps (Impl.Rests id base) (refuseCandidate claim validation) := by
    unfold refuseCandidate
    refine Keeps.bind (failed _ _ _) fun _ => Keeps.bind Still.now fun updatedAt => ?_
    refine Keeps.bind (other hne fun _ => rfl) fun _ => ?_
    exact Keeps.bind (Still.ignoring (Noted.persistCompilation _)) fun _ => Keeps.pure _
  have walks (key : CompilationAttemptId) (state : AttemptState) :
      Keeps (Impl.Rests id base) (walkToCommitted key state) :=
    both (by unfold walkToCommitted; grind) (Touched.walkToCommitted _ _)
  have deduplicates (claim : AuthorityClaim) (hne : claim.compilation ≠ id) (state : AttemptState)
      (prior : ArtifactCommit) : Keeps (Impl.Rests id base) (deduplicate claim state prior validation) := by
    unfold deduplicate
    refine Keeps.bind (walks _ _) fun moved => ?_
    split
    · exact Keeps.bind (failed _ _ _) fun _ => Still.refused _ _
    · refine Keeps.bind (attempt _ fun _ => .same rfl rfl rfl) fun _ => Keeps.bind (finished _) fun _ => ?_
      refine Keeps.bind (Still.ignoring (Noted.persistAttempt _)) fun _ => Keeps.bind Still.getState fun s => ?_
      split
      · refine Keeps.bind Still.now fun updatedAt => Keeps.bind (other hne fun _ => rfl) fun _ => ?_
        exact Keeps.bind (Still.ignoring (Noted.persistCompilation _)) fun _ => Keeps.pure _
      · exact Keeps.pure _
  have diverges (claim : AuthorityClaim) (hne : claim.compilation ≠ id) (candidate : ContentRef)
      (reproducibility : ReproducibilityRequirement) :
      Keeps (Impl.Rests id base) (refuseDivergent claim candidate reproducibility) := by
    unfold refuseDivergent
    refine Keeps.bind (other hne fun _ => rfl) fun _ => ?_
    split
    · refine Keeps.bind (other hne fun _ => rfl) fun _ => Keeps.bind (failed _ _ _) fun _ => ?_
      exact Keeps.bind (Still.ignoring (Noted.persistCompilation _)) fun _ => Keeps.pure _
    · refine Keeps.bind (failed _ _ _) fun _ => ?_
      exact Keeps.bind (Still.ignoring (Noted.persistCompilation _)) fun _ => Keeps.pure _
  have commits (worker : WorkerId) (claim : AuthorityClaim) (hne : claim.compilation ≠ id)
      (compilation : CompilationRecord) (own : compilation.id ≠ id) :
      Keeps (Impl.Rests id base) (commitFirst session worker claim validation compilation) := by
    unfold commitFirst
    refine Keeps.bind (Still.orReturn (moved _ (by decide))) fun _ => Keeps.bind Still.now fun _ => ?_
    refine Keeps.bind (other hne fun _ => rfl) fun _ => ?_
    refine Keeps.bind Still.getState fun s => Keeps.bind Still.now fun _ => Keeps.bind Still.now fun _ => ?_
    refine Keeps.bind (attempt _ fun _ => .same rfl rfl rfl) fun _ => ?_
    refine Keeps.bind (Still.orReturn (moved _ (by decide))) fun _ => Keeps.bind (other hne fun _ => rfl) fun _ => ?_
    refine Keeps.bind (Still.orReturn (moved _ (by decide))) fun _ => Keeps.bind Still.now fun _ => ?_
    refine Keeps.bind (other hne fun _ => rfl) fun _ => Keeps.bind (finished _) fun _ => ?_
    refine Keeps.bind (Keeps.update fun i hi => ⟨hi.1, hi.2.publish _ _ _ own⟩) fun _ => ?_
    refine Keeps.bind (Noted.recordIntermediate _ _) fun _ => Keeps.bind (Noted.recordCacheEntry _ _ _) fun _ => ?_
    refine Keeps.bind (Noted.markJobProgress _) fun _ => Keeps.bind Still.getState fun s => ?_
    refine Keeps.bind (Noted.onState fun s => .control s _) fun _ => Keeps.bind (Noted.persistCommit _ _ _ _ _) fun _ => ?_
    exact Keeps.bind (Noted.onState fun s => .control s _) fun _ => Keeps.pure _
  intro i hi
  unfold DistributedCompilation.commitOutput
  rw [Still.wp_getState_bind]
  split
  · exact hi
  next attempt hattempt =>
  split
  · exact hi
  next compilation hcompilation =>
  have own : compilation.id ≠ id := by
    rw [hi.2.keyed.compilation _ compilation hcompilation]
    exact hne
  split
  next =>
    unfold commitLocked
    rw [Still.wp_getState_bind, hattempt, hcompilation]
    dsimp only
    split
    · exact hi
    split
    · exact refuses _ hne i hi
    split
    next prior _ =>
      split
      · exact deduplicates _ hne _ _ i hi
      · exact diverges _ hne _ _ i hi
    next => exact commits _ _ hne _ own i hi
  next =>
    refine Keeps.bind (Noted.recordViolation _ _ _ _ _) (fun _ => Keeps.bind (moved _ (by decide)) fun moved => ?_) i hi
    split
    · refine Keeps.bind (finished _) fun _ => ?_
      exact Keeps.bind (Still.ignoring (Noted.persistAttempt _)) fun _ => Keeps.pure _
    · exact Keeps.pure _

omit [HashFunction] in
/-- An attempt that cannot be walked to `Committed` stays where it is. -/
theorem wp_walkToCommitted_refuses {i : Impl} {key : CompilationAttemptId} {attempt : CompilationAttempt}
    (found : i.state.attempts[key]? = some attempt)
    (away : attempt.state ∉ [AttemptState.produced, .validating, .commitReady, .committed]) :
    Program.wp (walkToCommitted key attempt.state) (fun r j => j = i ∧ ∃ status, r = .ok (.error status)) i := by
  have hillegal : attempt.state ≠ .produced ∧ (attempt.state == .validating) = false ∧
      ¬attempt.state.Leads .committed := by
    unfold AttemptState.Leads
    revert away
    cases attempt.state <;> decide
  obtain ⟨hproduced, hvalidating, hillegal⟩ := hillegal
  unfold walkToCommitted
  rw [if_neg hproduced, Program.wp_pure_bind, Still.wp_getState_bind, found]
  simp only [Option.any_some, hvalidating, Bool.false_eq_true, and_false, if_false]
  rw [Program.wp_pure_bind, if_pos (show (Except.ok () : Result Unit).isOk = true from rfl)]
  refine Program.wp_mono (wp_transitionAttempt found _) ?_
  rintro r j (⟨hleads, -⟩ | ⟨-, rfl, status, hr⟩)
  · exact absurd hleads hillegal
  · exact ⟨rfl, status, hr⟩

/-- The third phase under a claim of the compilation that goes nowhere. -/
theorem commitOutput_own {session : SessionId} {output : ReportOutput} {validation : ValidationReport} {i : Impl}
    (hi : i.Rests id base) (own : output.claim.compilation = id)
    (spares : ¬∃ attempt : CompilationAttempt, i.state.Accepts output.claim attempt ∧
      attempt.candidate.digest.isZero = false ∧
      (validation.aggregate = .pass → i.state.Admissible id attempt)) :
    Program.wp (commitOutput session output validation) (fun _ j => j.Rests id base) i := by
  have failed (key : CompilationAttemptId) (code : ErrorCode) (detail : Bytes) :
      Keeps (Impl.Rests id base) (ignoring (failAttemptLocked key code detail)) :=
    Still.ignoring (both (Aloof.failAttemptLocked _ _ _) (Touched.failAttemptLocked _ _ _))
  have marked {f : CompilationRecord → CompilationRecord} (state : ∀ record, (f record).state = record.state)
      (frozen : ∀ record, (f record).id = record.id) :
      Keeps (Impl.Rests id base) (onCompilation output.claim.compilation f) :=
    both (State.Cancelled.onCompilation fun record _ h => (state record).trans h)
      (Keeps.update fun _ hi => hi.withCompilation _ frozen)
  have diverges (candidate : ContentRef) (reproducibility : ReproducibilityRequirement) :
      Keeps (Impl.Rests id base) (refuseDivergent output.claim candidate reproducibility) := by
    unfold refuseDivergent
    refine Keeps.bind (marked (fun _ => rfl) fun _ => rfl) fun _ => ?_
    split
    · refine Keeps.bind (marked (fun _ => rfl) fun _ => rfl) fun _ => Keeps.bind (failed _ _ _) fun _ => ?_
      exact Keeps.bind (Still.ignoring (Noted.persistCompilation _)) fun _ => Keeps.pure _
    · refine Keeps.bind (failed _ _ _) fun _ => ?_
      exact Keeps.bind (Still.ignoring (Noted.persistCompilation _)) fun _ => Keeps.pure _
  unfold DistributedCompilation.commitOutput
  rw [Still.wp_getState_bind]
  split
  · exact hi
  next attempt hattempt =>
  split
  · exact hi
  next compilation hcompilation =>
  split
  next hauthority =>
    unfold commitLocked
    rw [Still.wp_getState_bind, hattempt, hcompilation]
    dsimp only
    split
    · exact hi
    next hcandidate =>
    have hstops : validation.aggregate = .pass ∧ ¬i.state.Admissible id attempt := by
      rw [not_exists] at spares
      have hspared := spares attempt
      rw [not_and, not_and, Classical.not_imp] at hspared
      exact hspared ⟨hattempt, compilation, hcompilation, hauthority⟩ ((Bool.not_eq_true _).mp hcandidate)
    obtain ⟨hpassed, hstops⟩ := hstops
    unfold State.Admissible at hstops
    rw [own]
    split
    next hrefused => exact absurd hpassed hrefused
    split
    next prior hprior =>
      rw [hprior] at hstops
      dsimp only at hstops
      split
      next hsame =>
        rw [not_and] at hstops
        unfold deduplicate
        refine Program.wp_seq _ (wp_walkToCommitted_refuses hattempt (hstops hsame)) ?_ ?_
        · rintro moved j ⟨rfl, status, hmoved⟩
          obtain rfl := Except.ok.inj hmoved
          exact Keeps.bind (failed _ _ _) (fun _ => Still.refused _ _) j hi
        · rintro fault j ⟨-, status, hmoved⟩
          cases hmoved
      next => exact diverges _ _ i hi
    next hnone =>
      rw [hnone] at hstops
      dsimp only at hstops
      rw [← own] at hnone
      refine Program.wp_mono (Tracked.wp_commitFirst (I := fun _ => True) session _ output.claim validation
        trivial hattempt hcompilation hnone hpassed) ?_
      rintro r j ⟨-, ⟨hleads, -⟩ | ⟨-, hsame, -⟩⟩
      · exact absurd hleads hstops
      · unfold Impl.Rests
        rw [hsame]
        exact hi
  next =>
    refine Keeps.bind (Noted.recordViolation _ _ _ _ _) (fun _ => Keeps.bind (both (Aloof.transitionAttempt _ _)
      (Touched.transitionAttempt _ (by decide))) fun moved => ?_) i hi
    split
    · refine Keeps.bind (both (Aloof.finishAttemptBookkeeping _) (Touched.finishAttemptBookkeeping _)) fun _ => ?_
      exact Keeps.bind (Still.ignoring (Noted.persistAttempt _)) fun _ => Keeps.pure _
    · exact Keeps.pure _

-- ---------------------------------------------------------------------------
-- Assignments
-- ---------------------------------------------------------------------------

theorem buildAssignment {key : CompilationId} (hne : key ≠ id) (worker : WorkerRecord) (speculative : Bool) :
    Keeps (Impl.Rests id base) (buildAssignment worker key speculative) := by
  intro i hi
  unfold DistributedCompilation.buildAssignment
  rw [Program.wp_read_bind]
  split
  · exact hi
  next compilation hcompilation =>
  split
  · exact hi
  have gives {α : Type} {m : M α} {f : α → M (Option Assignment)} {j : Impl} (hj : j.Rests id base ∧ j.state = i.state)
      (hm : Keeps (fun k => k.Rests id base ∧ k.state = i.state) m)
      (hf : ∀ a k, k.Rests id base ∧ k.state = i.state → Program.wp (f a) (fun _ k => k.Rests id base) k) :
      Program.wp (m >>= f) (fun _ k => k.Rests id base) j :=
    Program.wp_seq _ (hm j hj) (fun a k hk => hf a k hk) fun _ _ hk => hk.1
  refine gives ⟨hi, rfl⟩ (Still.loadEach _ _ _) fun sources j hj => ?_
  split
  · exact hj.1
  refine gives hj (Still.loadEach _ _ _) fun dependencies j hj => ?_
  split
  · exact hj.1
  refine gives hj (Still.loadLinkInputs _ _ _) fun children j hj => ?_
  split
  · exact hj.1
  dsimp only
  rw [Still.wp_now_bind, Still.wp_now_bind, Still.wp_now_bind, Still.wp_onState_bind]
  dsimp only
  rw [hj.2]
  have hassigned := hi.2.assign hne hcompilation worker speculative (j.readings.headD 0) (j.readings.tail.headD 0)
    (j.readings.tail.tail.headD 0)
  have hcancelled : (i.state.assign key (i.state.attemptFor worker compilation speculative (j.readings.headD 0))
      ((i.state.attemptFor worker compilation speculative (j.readings.headD 0)).leaseOf (j.readings.tail.headD 0))
      (j.readings.tail.tail.headD 0)).Cancelled id := by
    obtain ⟨record, hrecord, hstate⟩ := hi.1
    refine ⟨record, ?_, hstate⟩
    rw [State.assign, Table.get_modify, if_neg hne]
    exact hrecord
  refine Keeps.bind (I := Impl.Rests id base) (Noted.persistVoid _) (fun _ => ?_) _ ⟨hcancelled, hassigned⟩
  refine Keeps.bind (Noted.persistVoid _) fun _ => Keeps.bind (Still.ignoring (Noted.persistCompilation _)) fun _ => ?_
  exact Keeps.bind (Still.ignoring (Noted.persistWorker _)) fun _ => Keeps.pure _

/-- A compilation that is cancelled has no round of `pump`, and those of others leave it
alone. -/
theorem pumpOne (key : CompilationId) : Keeps (Impl.Rests id base) (pumpOne key) := by
  intro i hi
  unfold DistributedCompilation.pumpOne
  rw [Still.wp_getState_bind]
  split
  · exact hi
  next compilation hcompilation =>
  split
  · exact hi
  next hwaits =>
  have hne : key ≠ id := by
    rintro rfl
    obtain ⟨record, hrecord, hstate⟩ := hi.1
    obtain rfl := Option.some.inj (hrecord.symm.trans hcompilation)
    rw [hstate] at hwaits
    exact hwaits ⟨by decide, by decide⟩
  have queued (f : CompilationRecord → CompilationRecord) (frozen : ∀ record, (f record).id = record.id) :
      Program.wp (do
        onCompilation key f
        pure []) (fun (_ : Except Fault (List Assignment)) j => j.Rests id base) i := other hne frozen i hi
  split
  · exact hi
  split
  · exact hi
  split
  · exact queued _ fun _ => rfl
  dsimp only
  split
  · exact queued _ fun _ => rfl
  split
  · exact queued _ fun _ => rfl
  split
  · exact hi
  refine Keeps.bind (buildAssignment hne _ _) (fun assignment => ?_) i hi
  split
  · exact Keeps.pure _
  refine Keeps.bind ?_ fun _ => Keeps.pure _
  unfold buildDuplicate
  refine Keeps.ite (fun _ => ?_) fun _ => Keeps.pure _
  split
  · exact Keeps.pure _
  · exact Keeps.bind (buildAssignment hne _ _) fun _ => Keeps.pure _

theorem pump : Keeps (Impl.Rests id base) pump := by
  unfold DistributedCompilation.pump
  refine Keeps.bind .read fun i => Keeps.ite (fun _ => ?_) fun _ => Keeps.pure _
  exact Keeps.collect _ fun key _ => pumpOne key

-- ---------------------------------------------------------------------------
-- Submissions
-- ---------------------------------------------------------------------------

theorem rebuild {key : CompilationId} (hne : key ≠ id) : Keeps (Impl.Rests id base) (rebuild key) := by
  have superseded : Keeps (Impl.Rests id base) (onState (·.supersede key)) := by
    refine Keeps.update fun i hi => ⟨?_, hi.2.supersede key⟩
    obtain ⟨record, hrecord, hstate⟩ := hi.1
    refine ⟨record, ?_, hstate⟩
    unfold State.supersede
    dsimp only
    have hsame : (i.state.compilations.modify key fun record =>
        { record with generation := record.generation.next })[id]? = some record := by
      rw [Table.get_modify, if_neg hne]
      exact hrecord
    split
    · exact hsame
    · exact hsame
  have withdrawn : Keeps (Impl.Rests id base) (onState (·.withdraw key)) :=
    Keeps.update fun i hi => ⟨hi.1, hi.2.outside rfl rfl rfl rfl⟩
  have reset : Keeps (Impl.Rests id base) (do
      let updatedAt ← now
      onCompilation key (·.reset updatedAt)
      orReturn (persistCompilation key)) :=
    Keeps.bind Still.now fun _ => Keeps.bind (other hne fun _ => rfl) fun _ => Still.orReturn (Noted.persistCompilation _)
  unfold DistributedCompilation.rebuild
  refine Keeps.bind superseded fun _ => Keeps.bind Still.getState fun s => ?_
  split
  · exact reset
  · split
    · exact Keeps.bind withdrawn fun _ => reset
    · exact Keeps.bind (Noted.persistOrLeave _) fun _ => Keeps.bind withdrawn fun _ => reset

theorem admitUnit (forceRebuild : Bool) (request : CompilationRequest) {unit : CompilationUnitSpec}
    (hne : deriveCompilationId unit.identityDigest ≠ id) :
    Keeps (Impl.Rests id base) (admitUnit forceRebuild request unit) := by
  have created (createdAt : UnixMillis) :
      Keeps (Impl.Rests id base) (onState (·.create (newCompilation request unit createdAt))) := by
    refine Keeps.update fun i hi => ⟨?_, hi.2.create _⟩
    obtain ⟨record, hrecord, hstate⟩ := hi.1
    refine ⟨record, ?_, hstate⟩
    show (i.state.compilations.insert (deriveCompilationId unit.identityDigest) _)[id]? = some record
    rw [Table.get_insert, if_neg hne]
    exact hrecord
  unfold DistributedCompilation.admitUnit
  refine Keeps.bind Still.getState fun s => ?_
  split
  · exact Keeps.bind Still.now fun createdAt => Keeps.bind (created _) fun _ => Noted.persistOrLeave _
  · exact Keeps.ite (fun _ => rebuild hne) fun _ => Keeps.ite (fun _ => other hne fun _ => rfl) fun _ => Keeps.pure _

theorem answerUnit (forceRebuild : Bool) (request : CompilationRequest) {unit : CompilationUnitSpec}
    (hne : deriveCompilationId unit.identityDigest ≠ id) :
    Keeps (Impl.Rests id base) (answerUnit forceRebuild request unit) := by
  have serves (entryId : CacheEntryId) (entry : CacheEntry) (submission : UnitSubmission) :
      Keeps (Impl.Rests id base) (serveHit (deriveCompilationId unit.identityDigest) entryId entry submission) := by
    unfold serveHit
    refine Keeps.bind Still.getState fun s => Keeps.bind Still.now fun updatedAt => ?_
    refine Keeps.bind (other hne fun _ => rfl) fun _ => Keeps.bind (Noted.touchCacheEntry _) fun _ => ?_
    exact Keeps.bind (Still.orReturn (Noted.persistCompilation _)) fun _ => Keeps.pure _
  unfold DistributedCompilation.answerUnit
  refine Keeps.bind .read fun i => ?_
  dsimp only
  split
  · exact serves _ _ _
  · refine Keeps.ite (fun _ => Keeps.pure _) fun _ => ?_
    exact Keeps.bind (other hne fun _ => rfl) fun _ => Keeps.pure _

/-- A submission of other compilations. -/
theorem submit {bundle : SubmissionBundle} (spares : ¬bundle.Names id) : Keeps (Impl.Rests id base) (submit bundle) := by
  have resolved {i : Impl} {s' : State} (hi : i.Rests id base) (h : i.state.Aside s') :
      Impl.Rests id base { i with state := s' } := by
    refine ⟨?_, hi.2.outside h.workers h.compilations h.attempts h.commits⟩
    unfold State.Cancelled
    rw [h.compilations]
    exact hi.1
  intro i hi
  unfold DistributedCompilation.submit
  rw [Program.wp_read_bind]
  refine Program.wp_seq _ (Still.orLeave _ i hi) (fun _ i hi => ?_) fun _ _ hi => hi
  refine Still.wp_ensureOpen_bind (fun _ => ?_) fun _ => hi
  cases canonical : canonicalize bundle.request with
  | error fault => exact hi
  | ok request =>
    have hok : orThrow (Except.ok request) = (pure request : M CompilationRequest) := rfl
    rw [hok, Program.wp_pure_bind]
    refine Program.wp_seq _ (Keeps.forEach (I := Impl.Rests id base) _ (fun unit _ => Still.orLeave _) i hi)
      (fun _ i hi => ?_) fun _ _ hi => hi
    have hregistered : Program.wp (registerAndCheck request) (fun r j => j.Rests id base ∧
        ∀ registered, r = .ok registered → registered.units = request.units) i := by
      refine Program.wp_and (Still.registerAndCheck resolved request i hi) fun registered h => ?_
      rw [(registered_of_registerAndCheck h).eq]
      rfl
    refine Program.wp_seq _ hregistered (fun registered j hj => ?_) fun _ _ hj => hj.1
    obtain ⟨hj, hunits⟩ := hj
    have apart : ∀ unit ∈ registered.units, deriveCompilationId unit.identityDigest ≠ id := by
      intro unit hunit heq
      rw [hunits registered rfl] at hunit
      exact spares ⟨request, unit, canonical, hunit, heq⟩
    unfold submitRegistered
    refine Keeps.bind (I := Impl.Rests id base) Still.getState (fun s => Keeps.bind (Still.storeBlobs _) fun _ => ?_) j hj
    refine Keeps.bind (Noted.retainRequest _) fun _ => Keeps.bind (Noted.openJob _) fun job => ?_
    refine Keeps.bind (Keeps.forEach _ fun unit hunit => admitUnit _ _ (apart unit hunit)) fun _ => ?_
    refine Keeps.bind (Noted.onState fun s => .putJob s _ _) fun _ => Keeps.bind (Noted.persistOrLeave _) fun _ => ?_
    refine Keeps.bind (Keeps.collect _ fun unit hunit => ?_) fun units => ?_
    · exact Keeps.bind (answerUnit _ _ (apart unit hunit)) fun _ => Keeps.pure _
    · refine Keeps.bind (Noted.onState fun s => .putJob s _ _) fun _ => ?_
      exact Keeps.bind (Noted.persistOrLeave _) fun _ => Keeps.pure _

-- ---------------------------------------------------------------------------
-- Steps
-- ---------------------------------------------------------------------------

/-- A step that does not write over a cancellation. -/
theorem step {sys : System} (hi : sys.impl.Rests id base) (environment : Environment) (op : Op)
    (within : ∀ config, op = .openWith config → sys.impl.opened = true) (spares : ¬sys.Revives id op) :
    (System.step environment op sys).impl.Rests id base := by
  have start : (System.given environment sys.impl).Rests id base := hi
  have touched {α : Type} {m : M α} (cancelled : Program.wp m (fun _ j => j.state.Cancelled id)
      (System.given environment sys.impl)) (dormant : Keeps (fun i => i.state.Dormant id base) m) :
      (System.after m (System.given environment sys.impl)).Rests id base := by
    have hdormant := dormant _ start.2
    exact ⟨cancelled, hdormant⟩
  cases op with
  | openWith config =>
    obtain ⟨-, hsame⟩ := @wp_openCoordinator_opened _ config (System.given environment sys.impl) (within config rfl)
    show (System.after (openCoordinator config) _).Rests id base
    rw [System.after, hsame]
    exact start
  | close => exact Noted.closeCoordinator (I := Impl.Rests id base) _ start
  | snapshot => exact Noted.snapshotCoordinator (I := Impl.Rests id base) _ start
  | submit bundle => exact submit spares _ start
  | pump => exact pump _ start
  | drainControls => exact Noted.drainControls (I := Impl.Rests id base) _ start
  | registerWorker registration =>
    refine touched (State.Cancelled.registerWorker registration _ start.1) ?_
    refine Noted.registerWorker registration fun hi _ _ admission => ?_
    exact ⟨hi.keyed.of_admission admission, hi.unclaimed, hi.commits⟩
  | advertiseCapabilities session capabilities =>
    exact touched (State.Cancelled.advertiseCapabilities session capabilities _ start.1)
      (Touched.advertiseCapabilities session capabilities)
  | markReady session =>
    refine touched (State.Cancelled.markReady session _ start.1) ?_
    refine Noted.markReady session fun hi _ admission => ?_
    exact ⟨hi.keyed.of_admission admission, hi.unclaimed, hi.commits⟩
  | heartbeat session => exact touched (State.Cancelled.heartbeat session _ start.1) (Touched.heartbeat session)
  | beginCompile claim => exact touched (State.Cancelled.beginCompile start.1 spares) (Touched.beginCompile claim)
  | validateResponse session mode evidence digest detail =>
    exact touched (State.Cancelled.handleValidateResponse session mode evidence digest detail _ start.1)
      (Touched.handleValidateResponse session mode evidence digest detail)
  | shutdownSessions => exact Noted.shutdownSessions (I := Impl.Rests id base) _ start
  | failAttempt session report =>
    exact touched (State.Cancelled.failAttempt start.1 spares) (Touched.failAttempt session report)
  | disconnect session reason =>
    exact touched (State.Cancelled.disconnectSession start.1 reason spares) (Touched.disconnectSession session reason)
  | cancel compilation reason =>
    exact touched (State.Cancelled.cancel compilation reason _ start.1) (Touched.cancel compilation reason)
  | reserve session output =>
    have hkeeps := touched (State.Cancelled.reserveOutput start.1 spares) (Touched.reserveOutput session output)
    unfold System.after at hkeeps
    simp only [System.step, System.reserveStep]
    split
    next heq => rw [heq] at hkeeps; exact hkeeps
    next heq => rw [heq] at hkeeps; exact hkeeps
  | validate n smoke =>
    simp only [System.step, System.validateStep]
    split
    · exact start
    next reservation _ =>
      have hkeeps : (System.after (storeOutput reservation) (System.given environment sys.impl)).Rests id base :=
        Still.storeOutput (I := Impl.Rests id base) reservation _ start
      unfold System.after at hkeeps
      split
      next heq => rw [heq] at hkeeps; exact hkeeps
      next heq => rw [heq] at hkeeps; exact hkeeps
  | commit n =>
    simp only [System.step, System.commitStep]
    split
    · exact start
    next reservation report hvalidated =>
      by_cases own : reservation.output.claim.compilation = id
      · refine commitOutput_own start own fun h => spares ⟨reservation, report, hvalidated, own, h⟩
      · exact commitOutput_other own _ start

end Impl.Rests

end

end DistributedCompilation
