import DistributedCompilation.Safety.FailedReports
import DistributedCompilation.Safety.StoredBlobs
import DistributedCompilation.Server.Handler

/-!
# Distributed Compilation — what a report is answered with

The server runs the three phases of `report_output` with nothing between them. What
it answers then is a function of the tables in front of the report, `verdict`: every
gate of the phases in its order, and behind the last one the decision.
-/

namespace DistributedCompilation

open Program (Keeps Yields)

section

variable [HashFunction]

-- ---------------------------------------------------------------------------
-- The verdict
-- ---------------------------------------------------------------------------

namespace Server

/-- The gates of the first phase behind its lookups. -/
def grants (i : Impl) (output : ReportOutput) (attempt : CompilationAttempt) (compilation : CompilationRecord)
    (record : SessionRecord) : Except ErrorCode CompilationRecord :=
  if ¬record.isWorker then .error .unauthorized
  else if ¬record.owns attempt then .error .staleWorkerBoot
  else match validateAuthority output.claim (i.state.expectationFor compilation attempt) with
  | .error status => .error status.code
  | .ok () =>
    if attempt.state ≠ .running ∧ attempt.state ≠ .preparing then .error .staleAttempt
    else if i.config.maxArtifactBytes < output.bytes.length then .error .limitExceeded
    else if ¬output.declaredDigest.isZero ∧ sha256 output.bytes ≠ output.declaredDigest then
      .error .integrityFailure
    else .ok compilation

/-- The gates of the first phase, and the compilation of a report that passes them. -/
def admits (i : Impl) (session : SessionId) (output : ReportOutput) : Except ErrorCode CompilationRecord :=
  if ¬i.opened then .error .persistenceClosed else
  match i.state.attempts[output.claim.attempt]? with
  | none => .error .staleAttempt
  | some attempt =>
  match i.state.compilations[output.claim.compilation]? with
  | none => .error .staleCompilation
  | some compilation =>
  match i.state.sessions[session]? with
  | none => .error .unauthorized
  | some record => grants i output attempt compilation record

/-- What becomes of a stored candidate: the outcome and the code of its error. -/
def settles (s : State) (compilation : CompilationRecord) (id : CompilationId) (digest : Digest256)
    (aggregate : ValidationOutcome) : Except ErrorCode (CommitOutcome × ErrorCode) :=
  if digest.isZero then .error .integrityFailure
  else if aggregate ≠ .pass then .ok (.refused, .validationFailure)
  else match s.liveCommit id with
    | none => .ok (.committed, .ok)
    | some prior =>
      if prior.artifactDigest = digest then .ok (.deduplicated, .ok)
      else if compilation.reproducibility = .required then
        .ok (.reproducibilityViolation, .reproducibilityViolation)
      else .ok (.refused, .artifactMismatch)

/-- What a report comes to, as the tables in front of it have it. -/
def verdict (i : Impl) (session : SessionId) (output : ReportOutput) (smoke : SmokeTest) :
    Except ErrorCode (CommitOutcome × ErrorCode) :=
  match admits i session output with
  | .error code => .error code
  | .ok compilation =>
    if i.config.maxBlobBytes < output.bytes.length then .error .limitExceeded
    else settles i.state compilation output.claim.compilation (sha256 output.bytes)
      ((i.state.reservationFor session output (sha256 output.bytes) compilation).validate smoke).aggregate

end Server

-- ---------------------------------------------------------------------------
-- The first phase
-- ---------------------------------------------------------------------------

omit [HashFunction] in
/-- Without persistence the append of a record returns no error. -/
theorem wp_persist_volatile {i : Impl} (h : i.config.enablePersistence = false) (entity : Entity) :
    Program.wp (persist entity) (fun r _ => ∀ status, r ≠ .ok (.error status)) i := by
  unfold persist writes
  by_cases hfits : entity.record.fits = true
  · rw [if_pos hfits]
    simp only [Program.wp_bind, Program.wp_read, h]
    intro status h
    cases h
  · rw [if_neg hfits]
    intro status h
    cases h

omit [HashFunction] in
/-- A checked append returns an error only with persistence. -/
theorem wp_orReturn_persist {i : Impl} {m : M (Result Unit)}
    (volatile : i.config.enablePersistence = false → Program.wp m (fun r _ => ∀ status, r ≠ .ok (.error status)) i)
    (unrefusing : Unrefusing m) :
    Program.wp (orReturn m) (fun r _ => ∀ status, r = .error (.status status) →
      i.config.enablePersistence = true) i := by
  by_cases hvolatile : i.config.enablePersistence = false
  · refine wp_orReturn (Program.wp_and (volatile hvolatile) (unrefusing i)) ?_ ?_ ?_
    · intro j _ status h
      cases h
    · rintro status j ⟨h, -⟩
      exact absurd rfl (h status)
    · rintro fault j ⟨-, h⟩ status hstatus
      obtain rfl := Except.error.inj hstatus
      exact absurd rfl (h status)
  · have hpersists : i.config.enablePersistence = true := by simpa using hvolatile
    exact wp_orReturn (unrefusing i) (fun _ _ _ _ => hpersists) (fun _ _ _ _ _ => hpersists)
      fun _ _ _ _ _ => hpersists

omit [HashFunction] in
theorem wp_orReturn_persistAttempt {i : Impl} (id : CompilationAttemptId) :
    Program.wp (orReturn (persistAttempt id)) (fun r _ => ∀ status, r = .error (.status status) →
      i.config.enablePersistence = true) i := by
  refine wp_orReturn_persist (fun hvolatile => ?_) (.persistAttempt id)
  unfold persistAttempt
  rw [Still.wp_getState_bind]
  split
  · exact wp_persist_volatile hvolatile _
  · intro status h
    cases h

omit [HashFunction] in
theorem wp_orReturn_persistCompilation {i : Impl} (id : CompilationId) :
    Program.wp (orReturn (persistCompilation id)) (fun r _ => ∀ status, r = .error (.status status) →
      i.config.enablePersistence = true) i := by
  refine wp_orReturn_persist (fun hvolatile => ?_) (.persistCompilation id)
  unfold persistCompilation
  rw [Still.wp_getState_bind]
  split
  · exact wp_persist_volatile hvolatile _
  · intro status h
    cases h

/-- What phase one leaves of a report it lets pass. -/
structure Impl.Admits (i : Impl) (session : SessionId) (output : ReportOutput) (compilation : CompilationRecord)
    (r : Reservation) (k : Impl) : Prop where
  admitted : Server.admits i session output = .ok compilation
  reservation : r = i.state.reservationFor session output (sha256 output.bytes) compilation
  produced : ∃ attempt, k.state.attempts[output.claim.attempt]? = some attempt ∧
    attempt.state = .produced ∧ attempt.candidate.digest = sha256 output.bytes

/-- How phase one ends. -/
def Impl.Reserves (i : Impl) (session : SessionId) (output : ReportOutput) :
    Except Fault Reservation → Impl → Prop
  | .ok r, k => ∃ compilation, i.Admits session output compilation r k
  | .error (.status status), _ =>
    i.config.enablePersistence = false → Server.admits i session output = .error status.code
  | .error .lengthError, _ => True

omit [HashFunction] in
/-- A section that returns no error status goes on, or throws. -/
theorem Unrefusing.wp_bind {α β : Type} {m : M α} (h : Unrefusing m) {f : α → M β} {i : Impl}
    {Q : Except Fault β → Impl → Prop} (next : ∀ a j, Program.wp (f a) Q j)
    (thrown : ∀ j, Q (.error .lengthError) j) : Program.wp (m >>= f) Q i := by
  refine Program.wp_seq _ (h i) (fun a j _ => next a j) fun fault j hfault => ?_
  cases fault with
  | status status => exact absurd rfl (hfault status)
  | lengthError => exact thrown j

omit [HashFunction] in
/-- A closed coordinator is left with that error, whatever was to follow. -/
theorem wp_ensureOpen_bind_iff {α : Type} {f : Unit → M α} {Q : Except Fault α → Impl → Prop} {i : Impl} :
    Program.wp (ensureOpen >>= f) Q i ↔ if i.opened then Program.wp (f ()) Q i
      else Q (.error (.status ⟨.persistenceClosed, txt "coordinator is not open"⟩)) i := by
  unfold ensureOpen
  rw [Program.wp_bind, Program.wp_read_bind]
  split
  next => rfl
  next => rfl

omit [HashFunction] in
/-- Notes and the append of records leave the attempts as they are. -/
theorem wp_reserved {s : State} {i : Impl} (h : Impl.Past (fun _ => True) s i) (attempt : CompilationAttemptId)
    (compilation : CompilationId) (r : Reservation) {Q : Except Fault Reservation → Impl → Prop}
    (ok : ∀ k, s.Notes k.state → Q (.ok r) k)
    (refused : ∀ status k, i.config.enablePersistence = true → Q (.error (.status status)) k)
    (thrown : ∀ k, Q (.error .lengthError) k) : Program.wp (do
      orReturn (persistAttempt attempt)
      ignoring (persistCompilation compilation)
      pure r : M Reservation) Q i := by
  refine Program.wp_seq (fun r k => Impl.Past (fun _ => True) s k ∧ ∀ status, r = .error (.status status) →
    i.config.enablePersistence = true)
    (Program.wp_and (Still.orReturn (Noted.persistAttempt _) i h) (wp_orReturn_persistAttempt _)) ?_ ?_
  · rintro ⟨⟩ j ⟨hj, -⟩
    refine Program.wp_seq (fun r k => Impl.Past (fun _ => True) s k ∧ ∀ status, r ≠ .error (.status status))
      (Program.wp_and (Still.ignoring (Noted.persistCompilation _) j hj)
        (Unrefusing.ignoring (.persistCompilation _) j)) ?_ ?_
    · rintro ⟨⟩ k ⟨hk, -⟩
      exact ok k hk.notes
    · rintro fault k ⟨-, hfault⟩
      cases fault with
      | status status => exact absurd rfl (hfault status)
      | lengthError => exact thrown k
  · rintro fault j ⟨-, hfault⟩
    cases fault with
    | status status => exact refused status j (hfault status rfl)
    | lengthError => exact thrown j

/-- Phase one is its gates. -/
theorem wp_reserveOutput_reserves (session : SessionId) (output : ReportOutput) (i : Impl) :
    Program.wp (reserveOutput session output) (i.Reserves session output) i := by
  have refusal {code code' : ErrorCode} {worker : WorkerId} {detail detail' : Bytes}
      (h : Server.admits i session output = .error code') : Program.wp (do
        recordViolation "report_output" code session worker detail
        refused code' detail' : M Reservation) (i.Reserves session output) i :=
    Unrefusing.wp_bind (.recordViolation _ _ _ _ _) (fun _ _ _ => h) fun _ => trivial
  unfold reserveOutput
  rw [wp_ensureOpen_bind_iff]
  split
  case isFalse hclosed => exact fun _ => by simp [Server.admits, hclosed]
  next hopened =>
  rw [Program.wp_read_bind]
  simp only
  split
  next hattempt => exact refusal (by simp [Server.admits, hopened, hattempt])
  next attempt hattempt =>
  split
  next hcompilation => exact fun _ => by simp [Server.admits, hopened, hattempt, hcompilation]
  next compilation hcompilation =>
  split
  next hrecord => exact fun _ => by simp [Server.admits, hopened, hattempt, hcompilation, hrecord]
  next record hrecord =>
  have front : Server.admits i session output = Server.grants i output attempt compilation record := by
    simp only [Server.admits, hopened, hattempt, hcompilation, hrecord, not_true_eq_false, if_false]
  split
  next hworker => exact fun _ => by rw [front, Server.grants, if_pos hworker]
  next hworker =>
  rw [Server.grants, if_neg hworker] at front
  split
  next howns => exact refusal (by rw [front, if_pos howns])
  next howns =>
  rw [if_neg howns] at front
  split
  next status hauthority => exact refusal (by rw [front, hauthority])
  next hauthority =>
  rw [hauthority] at front
  simp only at front
  split
  next hstate => exact fun _ => by rw [front, if_pos hstate]
  next hstate =>
  rw [if_neg hstate] at front
  split
  next hlarge => exact fun _ => by rw [front, if_pos hlarge]
  next hlarge =>
  rw [if_neg hlarge] at front
  split
  next hdigest => exact fun _ => by rw [front, if_pos hdigest]
  next hdigest =>
  rw [if_neg hdigest] at front
  rw [onAttempt, Still.wp_onState_bind]
  have hset : (i.state.withAttempt output.claim.attempt
      (·.withCandidate output (sha256 output.bytes))).attempts[output.claim.attempt]? =
        some (attempt.withCandidate output (sha256 output.bytes)) := by
    show (i.state.attempts.modify _ _)[output.claim.attempt]? = _
    rw [Table.get_modify, if_pos rfl, hattempt]
    rfl
  have hleads : attempt.state.Leads .produced := by
    rcases not_and_or.mp hstate with h | h
    · exact .inr (by rw [not_not.mp h]; decide)
    · exact .inr (by rw [not_not.mp h]; decide)
  refine Program.wp_seq (fun r k => r = .ok () ∧ k.config = i.config ∧ ∃ next : CompilationAttempt,
    k.state.attempts[output.claim.attempt]? = some next ∧ next.state = .produced ∧
      next.candidate.digest = sha256 output.bytes) ?_ ?_ ?_
  · refine wp_orReturn (wp_transitionAttempt hset .produced) ?_ ?_ ?_
    · rintro k (⟨-, -, rfl⟩ | ⟨-, -, status, hr⟩)
      · refine ⟨rfl, rfl, { attempt.withCandidate output (sha256 output.bytes) with state := .produced }, ?_, rfl, rfl⟩
        show ((i.state.withAttempt output.claim.attempt
          (·.withCandidate output (sha256 output.bytes))).attempts.modify _ _)[output.claim.attempt]? = _
        rw [Table.get_modify, if_pos rfl, hset]
        rfl
      · cases hr
    · rintro status k (⟨-, hr, -⟩ | ⟨hillegal, -⟩)
      · cases hr
      · exact absurd hleads hillegal
    · rintro fault k (⟨-, hr, -⟩ | ⟨-, -, status, hr⟩)
      · cases hr
      · cases hr
  · rintro ⟨⟩ k ⟨-, hconfig, next, hnext, hproduced, hcandidate⟩
    rw [Still.wp_now_bind, onCompilation, Still.wp_onState_bind]
    refine wp_reserved ⟨trivial, .refl _⟩ _ _ _ (fun l hl => ⟨compilation, front, rfl, next, ?_, hproduced,
      hcandidate⟩) (fun status l hpersists hvolatile => ?_) fun _ => trivial
    · rw [hl.attempts]
      exact hnext
    · have : k.config.enablePersistence = true := hpersists
      rw [hconfig, hvolatile] at this
      cases this
  · rintro fault k ⟨hr, -⟩
    cases hr

-- ---------------------------------------------------------------------------
-- The second phase
-- ---------------------------------------------------------------------------

/-- The candidate goes to the store, whose bound is the only gate. -/
theorem wp_storeOutput (r : Reservation) (i : Impl) :
    Program.wp (storeOutput r) (fun o k => (k.state = i.state ∧ k.config = i.config) ∧
      (o = .ok () → r.output.bytes.length ≤ i.config.maxBlobBytes) ∧
      ∀ status, o = .error (.status status) → i.config.enablePersistence = false →
        i.config.maxBlobBytes < r.output.bytes.length ∧ status.code = .limitExceeded) i := by
  have hstate := Still.storeOutput (I := fun j => True ∧ j.state = i.state) r i ⟨trivial, rfl⟩
  have hconfig := Held.storeOutput (I := fun j => j.config = i.config) r i rfl
  refine Program.wp_and (Program.wp_mono (Program.wp_and hstate hconfig) fun _ _ h => ⟨h.1.2, h.2⟩) ?_
  unfold storeOutput
  by_cases hlarge : i.config.maxBlobBytes < r.output.bytes.length
  · refine wp_orReturn (R := fun o _ => o = .ok (failure .limitExceeded
      (txt "blob exceeds the configured bound"))) ?_ ?_ ?_ ?_
    · unfold storeBlob
      rw [Program.wp_read_bind]
      dsimp only
      rw [if_pos hlarge]
      rfl
    · intro j h
      cases h
    · intro status j h
      refine ⟨fun h => (by cases h), fun status' h' _ => ⟨hlarge, ?_⟩⟩
      cases h
      cases h'
      rfl
    · intro fault j h
      cases h
  · have hbounded := Nat.le_of_not_lt hlarge
    refine wp_orReturn (R := fun o _ => i.config.enablePersistence = false → o = .ok (.ok ())) ?_ ?_ ?_ ?_
    · intro hvolatile
      exact stored_of_volatile hvolatile hbounded
    · exact fun _ _ => ⟨fun _ => hbounded, fun _ h => by cases h⟩
    · intro status j h
      refine ⟨fun h => (by cases h), fun _ _ hvolatile => ?_⟩
      cases h hvolatile
    · intro fault j h
      refine ⟨fun h => (by cases h), fun _ _ hvolatile => ?_⟩
      cases h hvolatile

-- ---------------------------------------------------------------------------
-- The third phase
-- ---------------------------------------------------------------------------

/-- The outcomes that stand for a live commit. -/
def CommitOutcome.stands : CommitOutcome → Bool
  | committed | deduplicated => true
  | refused | reproducibilityViolation => false

/-- An answer of the third phase: what it says is so, and it is all that was changed of
the live commits. -/
structure Impl.Answers (i : Impl) (claim : AuthorityClaim) (digest : Digest256)
    (settled : Except ErrorCode (CommitOutcome × ErrorCode)) (decision : CommitDecision) (j : Impl) : Prop where
  settled : settled = .ok (decision.outcome, decision.error)
  authoritative : decision.artifactAuthoritative = decision.outcome.stands
  named : decision.outcome.stands = true →
    decision.commit.artifactDigest = digest ∧ j.state.liveCommit claim.compilation = some decision.commit
  aside : decision.outcome.stands = false → ∀ id, j.state.liveCommit id = i.state.liveCommit id

/-- How the third phase ends. -/
def Impl.Settles (i : Impl) (claim : AuthorityClaim) (digest : Digest256)
    (settled : Except ErrorCode (CommitOutcome × ErrorCode)) : Except Fault CommitDecision → Impl → Prop
  | .ok decision, j => i.Answers claim digest settled decision j
  | .error (.status status), _ => i.config.enablePersistence = false → settled = .error status.code
  | .error .lengthError, _ => True

section Decisions

omit [HashFunction]

theorem yields_refuseCandidate (claim : AuthorityClaim) (validation : ValidationReport) :
    Yields (refuseCandidate claim validation) fun decision => decision.outcome = .refused ∧
      decision.error = .validationFailure ∧ decision.artifactAuthoritative = false := by
  unfold refuseCandidate
  refine Yields.after _ fun _ => Yields.after _ fun _ => Yields.after _ fun _ => Yields.after _ fun _ => ?_
  exact Yields.pure ⟨rfl, rfl, rfl⟩

theorem yields_refuseDivergent (claim : AuthorityClaim) (candidate : ContentRef)
    (reproducibility : ReproducibilityRequirement) :
    Yields (refuseDivergent claim candidate reproducibility) fun decision =>
      (decision.outcome, decision.error) = (if reproducibility = .required then
        (.reproducibilityViolation, .reproducibilityViolation) else (.refused, .artifactMismatch)) ∧
      decision.artifactAuthoritative = false := by
  unfold refuseDivergent
  refine Yields.after _ fun _ => Yields.ite (fun hrequired => ?_) fun hrequired => ?_
  · refine Yields.after _ fun _ => Yields.after _ fun _ => Yields.after _ fun _ => Yields.pure ⟨?_, rfl⟩
    rw [if_pos hrequired]
  · refine Yields.after _ fun _ => Yields.after _ fun _ => Yields.pure ⟨?_, rfl⟩
    rw [if_neg hrequired]

theorem yields_deduplicate (claim : AuthorityClaim) (state : AttemptState) (prior : ArtifactCommit)
    (validation : ValidationReport) :
    Yields (deduplicate claim state prior validation) fun decision => decision.outcome = .deduplicated ∧
      decision.error = .ok ∧ decision.artifactAuthoritative = true ∧ decision.commit = prior := by
  unfold deduplicate
  refine Yields.after _ fun moved => ?_
  split
  · exact Yields.after _ fun _ => Yields.leave _
  · refine Yields.after _ fun _ => Yields.after _ fun _ => Yields.after _ fun _ => Yields.after _ fun s => ?_
    split
    · refine Yields.after _ fun _ => Yields.after _ fun _ => Yields.after _ fun _ => ?_
      exact Yields.pure ⟨rfl, rfl, rfl, rfl⟩
    · exact Yields.pure ⟨rfl, rfl, rfl, rfl⟩

theorem yields_commitFirst (session : SessionId) (workerId : WorkerId) (claim : AuthorityClaim)
    (validation : ValidationReport) (compilation : CompilationRecord) :
    Yields (commitFirst session workerId claim validation compilation) fun decision =>
      decision.error = .ok ∧ decision.artifactAuthoritative = true := by
  unfold commitFirst
  repeat refine Yields.after _ fun _ => ?_
  exact Yields.pure ⟨rfl, rfl⟩

/-- A produced attempt walks to `Committed`. -/
theorem wp_walkToCommitted {i : Impl} {id : CompilationAttemptId} (stands : i.state.AttemptIs id .produced) :
    Program.wp (walkToCommitted id .produced) (fun r _ => r = .ok (.ok ())) i := by
  -- one legal move of it
  have move {j : Impl} {state next : AttemptState} (at' : j.state.AttemptIs id state) (leads : state.Leads next) :
      Program.wp (transitionAttempt id next) (fun r k => r = .ok (.ok ()) ∧ k.state.AttemptIs id next) j := by
    obtain ⟨attempt, found, rfl⟩ := at'
    refine Program.wp_mono (wp_transitionAttempt found next) ?_
    rintro r k (⟨-, rfl, rfl⟩ | ⟨hillegal, -⟩)
    · refine ⟨rfl, { attempt with state := next }, ?_, rfl⟩
      simp only [State.withAttempt, Table.get_modify, if_true, found, Option.map_some]
    · exact absurd leads hillegal
  unfold walkToCommitted
  simp only [if_true]
  refine Program.wp_seq _ (move stands (.inr rfl)) ?_ fun fault j h => by cases h.1
  rintro moved j ⟨hmoved, attempt, found, hvalidating⟩
  obtain rfl := Except.ok.inj hmoved
  have hany : (j.state.attempts[id]?).any (·.state == .validating) = true := by
    rw [found, Option.any_some, hvalidating]
    rfl
  rw [Still.wp_getState_bind]
  simp only [hany, Except.isOk, Except.toBool, and_self, if_true]
  refine Program.wp_seq _ (move ⟨attempt, found, hvalidating⟩ (.inr rfl)) ?_ fun fault k h => by cases h.1
  rintro moved k ⟨hmoved, hready⟩
  obtain rfl := Except.ok.inj hmoved
  exact Program.wp_mono (move hready (.inr rfl)) fun _ _ h => h.1

/-- A section that refuses nothing and touches only, and what it answers. -/
theorem Impl.Settles.of_touched {i : Impl} {claim : AuthorityClaim} {digest : Digest256}
    {settled : Except ErrorCode (CommitOutcome × ErrorCode)} {m : M CommitDecision} {P : CommitDecision → Prop}
    (yields : Yields m P) (unrefusing : Program.wp m (fun r _ => ∀ status, r ≠ .error (.status status)) i)
    (touched : Keeps (Impl.After (fun _ => True) i.state) m)
    (answers : ∀ decision, P decision → ∀ j, (∀ id, j.state.liveCommit id = i.state.liveCommit id) →
      i.Answers claim digest settled decision j) : Program.wp m (i.Settles claim digest settled) i := by
  have hkeeps := touched i ⟨trivial, .refl _⟩
  refine Program.wp_mono (Program.wp_and (yields i) (Program.wp_and unrefusing hkeeps)) ?_
  rintro r j ⟨hyields, hunrefusing, hafter⟩
  cases r with
  | ok decision => exact answers decision (hyields decision rfl) j hafter.steady.liveCommit
  | error fault =>
    cases fault with
    | status status => exact absurd rfl (hunrefusing status)
    | lengthError => trivial

/-- A duplicate of what is live is answered with the live commit. -/
theorem wp_deduplicate_settles {i : Impl} {claim : AuthorityClaim}
    (stands : i.state.AttemptIs claim.attempt .produced) {prior : ArtifactCommit}
    (live : i.state.liveCommit claim.compilation = some prior) (validation : ValidationReport) :
    Program.wp (deduplicate claim .produced prior validation)
      (i.Settles claim prior.artifactDigest (.ok (.deduplicated, .ok))) i := by
  refine Impl.Settles.of_touched (yields_deduplicate _ _ _ _) ?_ (Touched.deduplicate _ _ _ _) ?_
  · unfold deduplicate
    refine Program.wp_seq _ (wp_walkToCommitted stands) ?_ fun fault j h => by cases h
    rintro moved j hmoved
    obtain rfl := Except.ok.inj hmoved
    refine Unrefusing.bind (.onAttempt _ _) (fun _ => .bind (.finishAttemptBookkeeping _) fun _ => ?_) j
    refine .bind (.ignoring (.persistAttempt _)) fun _ => .bind .getState fun s => ?_
    split
    · refine .bind .now fun _ => .bind (.onCompilation _ _) fun _ => ?_
      exact .bind (.ignoring (.persistCompilation _)) fun _ => .pure _
    · exact .pure _
  · rintro decision ⟨houtcome, herror, hauthoritative, rfl⟩ j hlive
    refine ⟨by rw [houtcome, herror], by rw [houtcome, hauthoritative]; rfl, fun _ => ⟨rfl, (hlive _).trans live⟩,
      fun h => ?_⟩
    rw [houtcome] at h
    cases h

end Decisions

omit [HashFunction] in
/-- A commit is of the candidate its attempt reported. -/
theorem Published.digest {s last : State} {claim : AuthorityClaim} {compilation : CompilationRecord}
    {validation : ValidationReport} {commit : ArtifactCommit}
    (h : Published s claim compilation validation commit last) {attempt : CompilationAttempt}
    (found : s.attempts[claim.attempt]? = some attempt) (reported : attempt.state.reported = true) :
    commit.artifactDigest = attempt.candidate.digest := by
  obtain ⟨before, own, later, producedAt, committedAt, hsteady, hlater, -, hcandidate, rfl, -⟩ := h
  obtain ⟨next, hnext, hcontinues⟩ := hsteady.attempts _ attempt found
  obtain rfl := Option.some.inj (hlater.symm.trans hnext)
  show own.candidate.digest = attempt.candidate.digest
  rw [hcandidate, (hcontinues.reported reported).2]

/-- The first commit is answered with what is live from then on. -/
theorem wp_commitFirst_settles {i : Impl} (session : SessionId) (workerId : WorkerId) {claim : AuthorityClaim}
    {validation : ValidationReport} {attempt : CompilationAttempt} {compilation : CompilationRecord}
    (foundAttempt : i.state.attempts[claim.attempt]? = some attempt) (produced : attempt.state = .produced)
    (found : i.state.compilations[claim.compilation]? = some compilation)
    (free : i.state.liveCommit claim.compilation = none) (passed : validation.aggregate = .pass) :
    Program.wp (commitFirst session workerId claim validation compilation)
      (i.Settles claim attempt.candidate.digest (.ok (.committed, .ok))) i := by
  have hleads : attempt.state.Leads .validating := .inr (by rw [produced]; decide)
  have hvolatile : Program.wp (commitFirst session workerId claim validation compilation)
      (fun r _ => i.config.enablePersistence = false → ∀ status, r ≠ .error (.status status)) i := by
    by_cases volatile : i.config.enablePersistence = false
    · refine Program.wp_mono (Ambient.wp_commitFirst (E := fun j => j.config.enablePersistence = false) volatile
        ⟨attempt, foundAttempt, rfl⟩ hleads _ _ _ _ ?_) fun _ _ h _ => h
      intro j stored provenance commit attempt hj
      exact wp_recordPublished_volatile hj _ _ _ _ _ _ _ _
    · exact Program.wp_mono (yields_commitFirst _ _ _ _ _ i) fun _ _ _ h => absurd h volatile
  refine Program.wp_mono (Program.wp_and (yields_commitFirst _ _ _ _ _ i) (Program.wp_and hvolatile
    (Tracked.wp_commitFirst (I := fun _ => True) session workerId claim validation trivial foundAttempt found free
      passed))) ?_
  rintro r j ⟨hyields, hstatus, -, ⟨-, commit, hpublished, hdecision⟩ | ⟨hillegal, -⟩⟩
  · cases r with
    | ok decision =>
      obtain ⟨herror, hauthoritative⟩ := hyields decision rfl
      obtain ⟨houtcome, rfl⟩ := hdecision decision rfl
      refine ⟨by rw [houtcome, herror], by rw [houtcome, hauthoritative]; rfl, fun _ => ⟨?_, hpublished.live⟩,
        fun h => ?_⟩
      · exact hpublished.digest foundAttempt (by rw [produced]; rfl)
      · rw [houtcome] at h
        cases h
    | error fault =>
      cases fault with
      | status status => exact fun h => absurd rfl (hstatus h status)
      | lengthError => trivial
  · exact absurd hleads hillegal

/-- The third phase, when nothing has come between. -/
theorem wp_commitOutput_settles {i : Impl} (session : SessionId) {output : ReportOutput}
    (validation : ValidationReport) {attempt : CompilationAttempt} {compilation : CompilationRecord}
    (foundAttempt : i.state.attempts[output.claim.attempt]? = some attempt) (produced : attempt.state = .produced)
    (found : i.state.compilations[output.claim.compilation]? = some compilation)
    (expected : output.claim = i.state.expectationFor compilation attempt) :
    Program.wp (commitOutput session output validation)
      (i.Settles output.claim attempt.candidate.digest (Server.settles i.state compilation
        output.claim.compilation attempt.candidate.digest validation.aggregate)) i := by
  have hleads : attempt.state.Leads .validating := .inr (by rw [produced]; decide)
  have hauthority := validateAuthority_eq_ok.mpr expected
  unfold commitOutput
  rw [Still.wp_getState_bind]
  simp only [foundAttempt, found, hauthority]
  unfold commitLocked
  rw [Still.wp_getState_bind]
  simp only [foundAttempt, found, Server.settles]
  split
  next => exact fun _ => rfl
  next hcandidate =>
  split
  next =>
    refine Impl.Settles.of_touched (yields_refuseCandidate _ _) (Unrefusing.refuseCandidate _ _ i)
      (Touched.refuseCandidate _ _) ?_
    rintro decision ⟨houtcome, herror, haside⟩ j hlive
    refine ⟨by rw [houtcome, herror], by rw [houtcome, haside]; rfl, fun h => ?_, fun _ => hlive⟩
    rw [houtcome] at h
    cases h
  next hpassed =>
  cases hfree : i.state.liveCommit output.claim.compilation with
  | some prior =>
    simp only
    split
    next hsame =>
      rw [produced, ← hsame]
      exact wp_deduplicate_settles ⟨attempt, foundAttempt, produced⟩ hfree validation
    next hdiffers =>
      refine Impl.Settles.of_touched (yields_refuseDivergent _ _ _) (Unrefusing.refuseDivergent _ _ _ i)
        (Touched.refuseDivergent _ _ _) ?_
      rintro decision ⟨hdecision, haside⟩ j hlive
      have hstands : decision.outcome.stands = false := by
        have houtcome := congrArg Prod.fst hdecision
        simp only at houtcome
        rw [houtcome]
        split
        · rfl
        · rfl
      refine ⟨?_, haside.trans hstands.symm, fun h => ?_, fun _ => hlive⟩
      · rw [hdecision]
        split
        · rfl
        · rfl
      · rw [hstands] at h
        cases h
  | none =>
    exact wp_commitFirst_settles session _ foundAttempt produced found hfree (not_not.mp hpassed)

-- ---------------------------------------------------------------------------
-- The three phases
-- ---------------------------------------------------------------------------

/-- What the gates of phase one have seen. -/
theorem Server.admits_eq_ok {i : Impl} {session : SessionId} {output : ReportOutput}
    {compilation : CompilationRecord} (h : Server.admits i session output = .ok compilation) :
    ∃ attempt, i.state.attempts[output.claim.attempt]? = some attempt ∧
      i.state.compilations[output.claim.compilation]? = some compilation ∧
      output.claim = i.state.expectationFor compilation attempt := by
  unfold Server.admits at h
  split at h
  · cases h
  split at h
  · cases h
  next attempt hattempt =>
  split at h
  · cases h
  next compilation' hcompilation =>
  split at h
  · cases h
  next record hrecord =>
  unfold Server.grants at h
  split at h
  · cases h
  split at h
  · cases h
  split at h
  · cases h
  next hauthority =>
  split at h
  · cases h
  split at h
  · cases h
  split at h
  · cases h
  obtain rfl := Except.ok.inj h
  exact ⟨attempt, hattempt, hcompilation, validateAuthority_eq_ok.mp hauthority⟩

/-- The third phase finds what the first one left. -/
theorem Impl.Admits.stands {i k : Impl} {session : SessionId} {output : ReportOutput}
    {compilation : CompilationRecord} {r : Reservation} (h : i.Admits session output compilation r k)
    (steady : i.state.Steady k.state) : ∃ attempt compilation',
      k.state.attempts[output.claim.attempt]? = some attempt ∧ attempt.state = .produced ∧
      attempt.candidate.digest = sha256 output.bytes ∧
      k.state.compilations[output.claim.compilation]? = some compilation' ∧
      compilation'.reproducibility = compilation.reproducibility ∧
      output.claim = k.state.expectationFor compilation' attempt := by
  obtain ⟨attempt, hattempt, hcompilation, hexpected⟩ := Server.admits_eq_ok h.admitted
  obtain ⟨next, hnext, hproduced, hdigest⟩ := h.produced
  obtain ⟨later, hlater, hfrozen⟩ := steady.record hcompilation
  obtain ⟨next', hnext', hcontinues⟩ := steady.attempts _ attempt hattempt
  obtain rfl := Option.some.inj (hnext.symm.trans hnext')
  have hreproducibility := congrArg CompilationRecord.reproducibility hfrozen
  refine ⟨next, later, hnext, hproduced, hdigest, hlater, hreproducibility, ?_⟩
  have hsame := hcontinues.frozen
  have hstable := steady.stable
  simp only [CompilationRecord.frozen, CompilationRecord.mk.injEq] at hfrozen
  simp only [CompilationAttempt.frozen, CompilationAttempt.mk.injEq] at hsame
  simp only [StateHeader.stable, StateHeader.mk.injEq] at hstable
  rw [hexpected]
  simp only [State.expectationFor, hfrozen, hsame, hstable]

omit [HashFunction] in
/-- An ending is judged the same from any state with the same live commits. -/
theorem Impl.Settles.mono {i k j : Impl} {claim : AuthorityClaim} {digest : Digest256}
    {settled : Except ErrorCode (CommitOutcome × ErrorCode)} {r : Except Fault CommitDecision}
    (h : k.Settles claim digest settled r j) (config : k.config = i.config)
    (live : ∀ id, k.state.liveCommit id = i.state.liveCommit id) : i.Settles claim digest settled r j := by
  cases r with
  | ok decision =>
    have answers : k.Answers claim digest settled decision j := h
    exact ⟨answers.settled, answers.authoritative, answers.named, fun haside id =>
      (answers.aside haside id).trans (live id)⟩
  | error fault =>
    cases fault with
    | status status =>
      intro hvolatile
      rw [← config] at hvolatile
      exact h hvolatile
    | lengthError => trivial

/-- Phase one does not write to the configuration. -/
theorem Held.reserveOutput {I : Impl → Prop} [Held I] (session : SessionId) (output : ReportOutput) :
    Keeps I (reserveOutput session output) := by
  have refusal (code code' : ErrorCode) (worker : WorkerId) (detail detail' : Bytes) : Keeps I (do
      DistributedCompilation.recordViolation "report_output" code session worker detail
      DistributedCompilation.refused code' detail' : M Reservation) :=
    Keeps.bind (recordViolation _ _ _ _ _) fun _ => refused _ _
  unfold DistributedCompilation.reserveOutput
  refine Keeps.bind ensureOpen fun _ => Keeps.bind .read fun i => ?_
  simp only
  split
  next => exact refusal _ _ _ _ _
  next attempt _ =>
  split
  next => exact refused _ _
  next record _ =>
  split
  next => exact refused _ _
  next worker _ =>
  refine Keeps.ite (fun _ => refused _ _) fun _ => Keeps.ite (fun _ => refusal _ _ _ _ _) fun _ => ?_
  split
  next => exact refusal _ _ _ _ _
  next =>
  refine Keeps.ite (fun _ => refused _ _) fun _ => Keeps.ite (fun _ => refused _ _) fun _ =>
    Keeps.ite (fun _ => refused _ _) fun _ => ?_
  refine Keeps.bind (onState _) fun _ => Keeps.bind (orReturn (transitionAttempt _ _)) fun _ => ?_
  refine Keeps.bind now fun _ => Keeps.bind (onState _) fun _ => ?_
  refine Keeps.bind (orReturn (persistAttempt _)) fun _ => ?_
  exact Keeps.bind (ignoring (persistCompilation _)) fun _ => Keeps.pure _

/-- A report the server works through is answered with its verdict. -/
theorem Server.wp_reportOutput (session : SessionId) (output : ReportOutput) (smoke : SmokeTest) (i : Impl) :
    Program.wp (Server.reportOutput session output smoke) (i.Settles output.claim (sha256 output.bytes)
      (Server.verdict i session output smoke)) i := by
  unfold Server.reportOutput
  have hafter := @Touched.reserveOutput (Impl.After (fun _ => True) i.state) _ _ session output i ⟨trivial, .refl _⟩
  have hconfig := Held.reserveOutput (I := fun j => j.config = i.config) session output i rfl
  refine Program.wp_seq _ (Program.wp_and (wp_reserveOutput_reserves session output i)
    (Program.wp_and hafter hconfig)) ?_ ?_
  · rintro r k ⟨⟨compilation, hadmits⟩, hafter, hconfig⟩
    obtain ⟨attempt, compilation', hattempt, hproduced, hdigest, hcompilation, hreproducibility, hexpected⟩ :=
      hadmits.stands hafter.steady
    have hr := hadmits.reservation
    have hfields : r.output = output ∧ r.session = session := by
      rw [hr]
      unfold State.reservationFor
      split
      · exact ⟨rfl, rfl⟩
      · exact ⟨rfl, rfl⟩
    refine Program.wp_seq _ (wp_storeOutput r k) ?_ ?_
    · rintro ⟨⟩ l ⟨⟨hstate, hsame⟩, hbounded, -⟩
      have hlength := hbounded rfl
      rw [hfields.1, hconfig] at hlength
      rw [hfields.1, hfields.2]
      rw [← hstate] at hattempt hcompilation hexpected
      have hsettles := wp_commitOutput_settles session (r.validate smoke) hattempt hproduced hcompilation hexpected
      have hlive : ∀ id, l.state.liveCommit id = i.state.liveCommit id := by
        rw [hstate]
        exact hafter.steady.liveCommit
      have hverdict : Server.settles l.state compilation' output.claim.compilation attempt.candidate.digest
          (r.validate smoke).aggregate = Server.verdict i session output smoke := by
        rw [Server.verdict, hadmits.admitted]
        simp only [Server.settles, hlive, hreproducibility, hdigest, hr, if_neg (Nat.not_lt.mpr hlength)]
      rw [hverdict, hdigest] at hsettles
      exact Program.wp_mono hsettles fun _ _ h => h.mono (hsame.trans hconfig) hlive
    · rintro fault l ⟨-, -, hrefused⟩
      cases fault with
      | status status =>
        intro hvolatile
        obtain ⟨hlarge, hcode⟩ := hrefused status rfl (by rw [hconfig]; exact hvolatile)
        rw [hfields.1, hconfig] at hlarge
        rw [Server.verdict, hadmits.admitted, hcode]
        simp only [if_pos hlarge]
      | lengthError => trivial
  · rintro fault k ⟨hreserves, -⟩
    cases fault with
    | status status =>
      intro hvolatile
      rw [Server.verdict, hreserves hvolatile]
    | lengthError => trivial

namespace Server

/-- A report is answered with the verdict of the tables in front of it. An answer that
stands for a commit, and no other, calls the artifact authoritative and names the live
commit of the compilation, which has the digest of the bytes; any other leaves the live
commits as they were. Without persistence a report that is refused is refused by its
verdict. -/
theorem report_decides (i : Impl) (session : SessionId) (output : ReportOutput) (smoke : SmokeTest) :
    match (reportOutput session output smoke).run i with
    | (.ok decision, j) => verdict i session output smoke = .ok (decision.outcome, decision.error) ∧
      decision.artifactAuthoritative = decision.outcome.stands ∧
      if decision.outcome.stands then decision.commit.artifactDigest = sha256 output.bytes ∧
        j.state.liveCommit output.claim.compilation = some decision.commit
      else ∀ id, j.state.liveCommit id = i.state.liveCommit id
    | (.error (.status status), _) =>
      i.config.enablePersistence = false → verdict i session output smoke = .error status.code
    | (.error .lengthError, _) => True := by
  have hsettles := wp_reportOutput session output smoke i
  unfold Program.wp at hsettles
  split
  next decision j hrun =>
    rw [hrun] at hsettles
    have answers : i.Answers output.claim (sha256 output.bytes) _ decision j := hsettles
    refine ⟨answers.settled, answers.authoritative, ?_⟩
    split
    next hstands => exact answers.named hstands
    next haside => exact answers.aside (Bool.eq_false_of_not_eq_true haside)
  next status j hrun =>
    rw [hrun] at hsettles
    exact hsettles
  next => trivial

end Server

end

set_option maxRecDepth 100000 in
example : Server.verdict pairIssued.begun.impl ⟨1⟩ { claim := ownClaim, bytes := txt "o" } none =
    .ok (.committed, .ok) := by
  rw [ownClaim, System.begun, pairIssued, volatileFirst, pairRun, pairBundle, hashFunction_eq]
  decide +kernel

end DistributedCompilation
