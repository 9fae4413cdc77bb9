import DistributedCompilation.Safety.Steady

/-!
# Distributed Compilation — sections that change

Each section with the change that is its own, and with them the steps of the
system within a lifetime: what is `Tracked` holds after every one of them.
-/

namespace DistributedCompilation

open Program (Keeps)

/-- The workers `eligible_workers` returns are able. -/
theorem able_of_mem_eligibleWorkers {s : State} {requirements : HardRequirements} {worker : WorkerRecord}
    (h : worker ∈ s.eligibleWorkers requirements) : s.Able worker.id := by
  obtain ⟨hmem, hcandidate⟩ := List.mem_filter.mp h
  obtain ⟨key, hkey⟩ := Table.mem_values hmem
  refine ⟨key, worker, hkey, rfl, able_of_eligible (r := requirements) ?_⟩
  unfold State.isCandidate at hcandidate
  simp only [Bool.and_eq_true] at hcandidate
  obtain ⟨-, hcandidate⟩ := hcandidate
  split at hcandidate
  · cases hcandidate
  · simp only [Bool.and_eq_true] at hcandidate
    exact hcandidate.2

/-- Different workers of a table that keeps them under their ids have different ids. -/
theorem nodup_eligibleWorkers {s : State} (seated : s.Seated) (requirements : HardRequirements) :
    ((s.eligibleWorkers requirements).map (·.id)).Nodup := by
  unfold State.eligibleWorkers
  refine List.Nodup.sublist (List.filter_sublist.map _) (List.pairwise_map.mpr ?_)
  refine Table.pairwise_values fun key key' worker worker' hworker hworker' hne hsame => hne ?_
  rw [← seated key worker hworker, ← seated key' worker' hworker', hsame]

/-- The second in the ranking is another worker than the first. -/
theorem ne_of_rankWorkers {candidates : List WorkerRecord} (nodup : (candidates.map (·.id)).Nodup)
    {requirements : HardRequirements} {cost : UInt64} {best second : RankedWorker} {others : List RankedWorker}
    (ranked : rankWorkers candidates requirements cost = best :: others) (next : others.head? = some second)
    {chosen alternate : WorkerRecord} (first : best.isOf chosen = true) (other : second.isOf alternate = true) :
    chosen.id ≠ alternate.id := by
  have hids : ((best :: others).map (·.id)).Nodup := by
    rw [← ranked, rankWorkers]
    refine (((sortBy_perm _ _).map _).nodup_iff).mpr ?_
    rw [List.map_map]
    exact nodup
  obtain ⟨rest, rfl⟩ := List.head?_eq_some_iff.mp next
  rw [RankedWorker.isOf, Bool.and_eq_true, beq_iff_eq, beq_iff_eq] at first other
  rw [first.1, other.1]
  rw [List.map_cons, List.map_cons, List.nodup_cons, List.mem_cons, not_or] at hids
  exact hids.1.1

/-- Where no attempt of the compilation is in flight, there is room for any. -/
theorem vacant_of_not_inFlight {s : State} {id : CompilationId} {record : CompilationRecord}
    (found : s.compilations[id]? = some record) (idle : s.inFlight record = false) (speculative : Bool)
    (worker : WorkerId) : s.Vacant id speculative worker := by
  intro other hother key hkey attempt hattempt hholds
  obtain rfl := Option.some.inj (found.symm.trans hother)
  rw [State.inFlight, List.any_eq_false] at idle
  have hidle := idle key hkey
  rw [hattempt, Option.any_some] at hidle
  exact absurd hholds hidle

-- ---------------------------------------------------------------------------
-- The walk to a commit
-- ---------------------------------------------------------------------------

/-- A known attempt moves along the state machine or stays. -/
theorem wp_transitionAttempt {i : Impl} {id : CompilationAttemptId} {attempt : CompilationAttempt}
    (found : i.state.attempts[id]? = some attempt) (next : AttemptState) :
    Program.wp (transitionAttempt id next) (fun r j =>
      attempt.state.Leads next ∧ r = .ok (.ok ()) ∧
        j = { i with state := (i.state.withAttempt id fun _ => { attempt with state := next } : State) } ∨
      ¬attempt.state.Leads next ∧ j = i ∧ ∃ status, r = .ok (.error status)) i := by
  unfold transitionAttempt
  rw [Still.wp_getState_bind, found]
  simp only
  split
  next status hmoved =>
    refine .inr ⟨fun hleads => ?_, rfl, status, rfl⟩
    unfold moveAttempt at hmoved
    rcases hleads with hsame | hlegal
    · rw [if_pos hsame.symm] at hmoved
      cases hmoved
    · rw [hlegal] at hmoved
      split at hmoved <;> cases hmoved
  next moved hmoved =>
    obtain ⟨rfl, hleads⟩ := legal_of_moveAttempt hmoved
    exact .inl ⟨hleads, rfl, rfl⟩

/-- `orReturn` goes on after success. -/
theorem wp_orReturn {m : M (Result Unit)} {Q : Except Fault Unit → Impl → Prop} {i : Impl}
    {R : Except Fault (Result Unit) → Impl → Prop} (h : Program.wp m R i)
    (ok : ∀ j, R (.ok (.ok ())) j → Q (.ok ()) j)
    (refused : ∀ status j, R (.ok (.error status)) j → Q (.error (.status status)) j)
    (thrown : ∀ fault j, R (.error fault) j → Q (.error fault) j) : Program.wp (orReturn m) Q i := by
  unfold orReturn
  refine Program.wp_seq R h (fun status j hj => ?_) thrown
  cases status with
  | ok => exact ok j hj
  | error status => exact refused status j hj

/-- The bookkeeping of an ended attempt always completes. -/
theorem wp_finishAttemptBookkeeping (id : CompilationAttemptId) (i : Impl) :
    Program.wp (finishAttemptBookkeeping id) (fun r _ => r = .ok ()) i := by
  unfold finishAttemptBookkeeping
  rw [Still.wp_now_bind, onAttempt, Still.wp_onState_bind, Still.wp_getState_bind]
  split
  · rfl
  · split <;> rfl

/-- The attempt is there and in that state. -/
def State.AttemptIs (s : State) (id : CompilationAttemptId) (state : AttemptState) : Prop :=
  ∃ attempt : CompilationAttempt, s.attempts[id]? = some attempt ∧ attempt.state = state

section Rules

variable {α : Type} {J : Impl → Prop} {Q : Except Fault α → Impl → Prop} {j : Impl}

theorem Still.wp_now [Still J] (h : J j) {f : UnixMillis → M α}
    (ok : ∀ at' k, J k → k.state = j.state → Program.wp (f at') Q k) : Program.wp (DistributedCompilation.now >>= f) Q j := by
  rw [Still.wp_now_bind]
  exact ok _ _ (Still.quiet h rfl (.inl rfl)) rfl

theorem Noted.wp_onState [Noted J] (h : J j) {g : State → State} (note : j.state.Notes (g j.state))
    {f : Unit → M α} (ok : ∀ k, J k → k.state = g j.state → Program.wp (f ()) Q k) :
    Program.wp (DistributedCompilation.onState g >>= f) Q j := by
  rw [Still.wp_onState_bind]
  exact ok _ (Noted.note h note) rfl

variable [Touched J] (h : J j)

include h

theorem Touched.wp_onCompilation {id : CompilationId} {g : CompilationRecord → CompilationRecord}
    (frozen : ∀ record, (g record).frozen = record.frozen) {f : Unit → M α}
    (ok : ∀ k, J k → k.state.attempts = j.state.attempts → Program.wp (f ()) Q k) :
    Program.wp (DistributedCompilation.onCompilation id g >>= f) Q j := by
  rw [DistributedCompilation.onCompilation, Still.wp_onState_bind]
  exact ok _ (Touched.touch h (.record id frozen)) rfl

theorem Touched.wp_onAttempt {id : CompilationAttemptId} {state : AttemptState}
    (stands : j.state.AttemptIs id state) {g : CompilationAttempt → CompilationAttempt}
    (frozen : ∀ attempt, (g attempt).frozen = attempt.frozen)
    (same : ∀ attempt, (g attempt).state = attempt.state ∧ (g attempt).candidate = attempt.candidate)
    {f : Unit → M α} (ok : ∀ k, J k → k.state.AttemptIs id state → Program.wp (f ()) Q k) :
    Program.wp (DistributedCompilation.onAttempt id g >>= f) Q j := by
  obtain ⟨attempt, found, rfl⟩ := stands
  rw [DistributedCompilation.onAttempt, Still.wp_onState_bind]
  refine ok _ (Touched.touch h (.attempt id fun attempt _ =>
    .same (frozen attempt) (same attempt).1 (same attempt).2)) ⟨g attempt, ?_, (same attempt).1⟩
  simp only [State.withAttempt, Table.get_modify, if_true, found, Option.map_some]

/-- A legal transition goes through. -/
theorem Touched.wp_walk {id : CompilationAttemptId} {state next : AttemptState}
    (stands : j.state.AttemptIs id state) (leads : state.Leads next) (hne : next ≠ .assigned)
    {f : Unit → M α} (ok : ∀ k, J k → k.state.AttemptIs id next → Program.wp (f ()) Q k) :
    Program.wp (orReturn (DistributedCompilation.transitionAttempt id next) >>= f) Q j := by
  obtain ⟨attempt, found, rfl⟩ := stands
  refine Program.wp_seq (fun r k => r = .ok () ∧ J k ∧ k.state.AttemptIs id next) ?_ ?_ ?_
  · refine wp_orReturn (Program.wp_and (Touched.transitionAttempt id hne j h)
      (wp_transitionAttempt found next)) ?_ ?_ ?_
    · rintro k ⟨hk, ⟨-, -, rfl⟩ | ⟨-, -, status, hstatus⟩⟩
      · refine ⟨rfl, hk, { attempt with state := next }, ?_, rfl⟩
        simp only [State.withAttempt, Table.get_modify, if_true, found, Option.map_some]
      · cases hstatus
    · rintro status k ⟨-, ⟨-, hr, -⟩ | ⟨hillegal, -⟩⟩
      · cases hr
      · exact absurd leads hillegal
    · rintro fault k ⟨-, ⟨-, hr, -⟩ | ⟨-, -, status, hr⟩⟩
      · cases hr
      · cases hr
  · rintro ⟨⟩ k ⟨-, hk, hstands⟩
    exact ok k hk hstands
  · rintro fault k ⟨hr, -⟩
    cases hr

end Rules

/-- A commit of an attempt that reported, over a compilation without a live
one: it is published in a state the touches of the walk lead to, and what follows
is noted. -/
def Published (s : State) (claim : AuthorityClaim) (compilation : CompilationRecord)
    (validation : ValidationReport) (commit : ArtifactCommit) (last : State) : Prop :=
  ∃ (before : State) (attempt reported : CompilationAttempt) (producedAt committedAt : UnixMillis),
    s.Steady before ∧ before.attempts[claim.attempt]? = some reported ∧
    attempt.frozen = reported.frozen ∧ attempt.candidate = reported.candidate ∧
    commit = before.commitFor compilation attempt committedAt ∧
    (before.publish claim.compilation { validation with id := ⟨before.header.nextValidationId⟩ }
      (before.provenanceFor compilation attempt producedAt) commit).Notes last

/-- Behind the publication a commit is only recorded; an append that fails ends the
section, which else answers with the commit. -/
theorem wp_recordCommit {J : Impl → Prop} [Noted J] {j : Impl} (h : J j) (session : SessionId)
    (workerId : WorkerId) (claim : AuthorityClaim) (compilation : CompilationRecord)
    (stored : ValidationReport) (provenance : Provenance) (commit : ArtifactCommit)
    (attempt : CompilationAttempt) :
    Program.wp (do
      recordIntermediate compilation provenance
      recordCacheEntry compilation commit provenance
      markJobProgress compilation.requestIdentity
      let s ← getState
      onState (·.control (s.cancelLosers compilation claim.attempt))
      persistCommit workerId claim stored provenance commit
      onState (·.control [commitMessage session compilation attempt commit])
      pure {
        outcome := .committed
        commit
        validation := stored
        artifactAuthoritative := true
        detail := txt "authoritative artifact committed" })
      (fun r k => J k ∧ ∀ decision : CommitDecision, r = .ok decision →
        decision.outcome = .committed ∧ decision.commit = commit) j := by
  have error : ∀ (fault : Fault) k, J k → J k ∧ ∀ decision : CommitDecision,
      Except.error fault = .ok decision → decision.outcome = .committed ∧ decision.commit = commit :=
    fun _ k hk => ⟨hk, nofun⟩
  refine Program.wp_seq (fun _ k => J k) (Noted.recordIntermediate _ _ j h) (fun _ j h => ?_) error
  refine Program.wp_seq (fun _ k => J k) (Noted.recordCacheEntry _ _ _ j h) (fun _ j h => ?_) error
  refine Program.wp_seq (fun _ k => J k) (Noted.markJobProgress _ j h) (fun _ j h => ?_) error
  rw [Still.wp_getState_bind]
  refine Noted.wp_onState h (.control _ _) fun j h _ => ?_
  refine Program.wp_seq (fun _ k => J k) (Noted.persistCommit _ _ _ _ _ j h) (fun _ j h => ?_) error
  refine Noted.wp_onState h (.control _ _) fun j h _ => ?_
  refine ⟨h, fun decision hdecision => ?_⟩
  obtain rfl := Except.ok.inj hdecision
  exact ⟨rfl, rfl⟩

/-- The identifiers a commit draws are those of the header. -/
theorem State.provenanceFor_congr {s s' : State} (h : s'.header.stable = s.header.stable)
    (record : CompilationRecord) (attempt : CompilationAttempt) (producedAt : UnixMillis) :
    s'.provenanceFor record attempt producedAt = s.provenanceFor record attempt producedAt := by
  have hprovenance : s'.header.nextProvenanceId = s.header.nextProvenanceId :=
    (congrArg StateHeader.nextProvenanceId h :)
  have hvalidation : s'.header.nextValidationId = s.header.nextValidationId :=
    (congrArg StateHeader.nextValidationId h :)
  have hepoch : s'.header.epoch = s.header.epoch := (congrArg StateHeader.epoch h :)
  rw [State.provenanceFor, State.provenanceFor, hprovenance, hvalidation, hepoch]

theorem State.commitFor_congr {s s' : State} (h : s'.header.stable = s.header.stable)
    (record : CompilationRecord) (attempt : CompilationAttempt) (committedAt : UnixMillis) :
    s'.commitFor record attempt committedAt = s.commitFor record attempt committedAt := by
  have hcommit : s'.header.nextCommitId = s.header.nextCommitId := (congrArg StateHeader.nextCommitId h :)
  have hartifact : s'.header.nextArtifactId = s.header.nextArtifactId :=
    (congrArg StateHeader.nextArtifactId h :)
  have hprovenance : s'.header.nextProvenanceId = s.header.nextProvenanceId :=
    (congrArg StateHeader.nextProvenanceId h :)
  have hvalidation : s'.header.nextValidationId = s.header.nextValidationId :=
    (congrArg StateHeader.nextValidationId h :)
  have hepoch : s'.header.epoch = s.header.epoch := (congrArg StateHeader.epoch h :)
  rw [State.commitFor, State.commitFor, hcommit, hartifact, hprovenance, hvalidation, hepoch]

-- ---------------------------------------------------------------------------
-- Registries
-- ---------------------------------------------------------------------------

section Registries

variable {I : Impl → Prop} [Still I]

theorem Still.resolveDeclared (resolved : ∀ {i : Impl} {s' : State}, I i → i.state.Aside s' → I { i with state := s' })
    {tag : GenTag} {code : ErrorCode} {dimension : String} {declared : Gen tag}
    {resolve : State → Gen tag × State} (h : ∀ s : State, s.Aside (resolve s).2) :
    Keeps I (resolveDeclared code dimension declared resolve) := by
  intro i hi
  unfold DistributedCompilation.resolveDeclared
  rw [Still.wp_getState_bind, Still.wp_onState_bind]
  have hafter := resolved hi (h i.state)
  split
  · exact Still.refused _ _ _ hafter
  · exact hafter

/-- What survives the resolution of the registries survives `register_and_check`. -/
theorem Still.registerAndCheck [HashFunction]
    (resolved : ∀ {i : Impl} {s' : State}, I i → i.state.Aside s' → I { i with state := s' })
    (request : CompilationRequest) : Keeps I (registerAndCheck request) := by
  have aside {s s' : State} (h : s' = { s with
      sources := s'.sources, toolchains := s'.toolchains, targets := s'.targets
      specializations := s'.specializations, policies := s'.policies
      dependencies := s'.dependencies }) : s.Aside s' := by
    rw [h]
    exact ⟨rfl, rfl, rfl, rfl, rfl, rfl, rfl, rfl, rfl, rfl⟩
  have sources : ∀ (xs : List UnitSource) (s : State), s.Aside (xs.foldl State.resolveSource s) := by
    intro xs
    induction xs with
    | nil => exact fun s => aside rfl
    | cons x xs ih => exact fun s => .trans (aside rfl) (ih _)
  unfold DistributedCompilation.registerAndCheck
  refine Keeps.ite (fun _ => Still.refused _ _) fun _ => ?_
  refine Keeps.bind (Still.resolveDeclared resolved fun s => aside rfl) fun _ => ?_
  refine Keeps.bind (Still.resolveDeclared resolved fun s => aside rfl) fun _ => ?_
  refine Keeps.bind (Still.resolveDeclared resolved fun s => aside rfl) fun _ => ?_
  refine Keeps.bind (Still.resolveDeclared resolved fun s => aside rfl) fun _ => ?_
  refine Keeps.bind (Still.resolveDeclared resolved fun s => aside rfl) fun _ => ?_
  refine Keeps.bind (Keeps.update fun i hi => resolved hi (sources _ _)) fun _ => ?_
  exact Keeps.pure _

end Registries

namespace Tracked

variable [HashFunction] {I : Impl → Prop} [Tracked I]

theorem wp_commitFirst (session : SessionId) (workerId : WorkerId) (claim : AuthorityClaim)
    (validation : ValidationReport) {i : Impl} (hi : I i) {attempt : CompilationAttempt}
    {compilation : CompilationRecord} (foundAttempt : i.state.attempts[claim.attempt]? = some attempt)
    (found : i.state.compilations[claim.compilation]? = some compilation)
    (free : i.state.liveCommit claim.compilation = none) (passed : validation.aggregate = .pass) :
    Program.wp (commitFirst session workerId claim validation compilation) (fun r j => I j ∧
      (attempt.state.Leads .validating ∧
          (∃ commit, Published i.state claim compilation validation commit j.state ∧
            ∀ decision, r = .ok decision →
              decision.outcome = .committed ∧ decision.commit = commit) ∨
        ¬attempt.state.Leads .validating ∧ j.state = i.state ∧ ∃ fault, r = .error fault)) i := by
  unfold commitFirst
  by_cases hleads : attempt.state.Leads .validating
  · have h₀ : Impl.After I i.state i := ⟨hi, .refl _⟩
    refine Touched.wp_walk h₀ ⟨attempt, foundAttempt, rfl⟩ hleads (by decide) fun j₁ h₁ at₁ => ?_
    refine Still.wp_now h₁ fun validatingAt j₂ h₂ same₂ => ?_
    refine Touched.wp_onCompilation h₂ (by intro record; rfl) fun j₃ h₃ same₃ => ?_
    have at₃ : j₃.state.AttemptIs claim.attempt .validating := by
      rw [State.AttemptIs, same₃, same₂]
      exact at₁
    obtain ⟨own, hown, hstate⟩ := id at₃
    rw [Still.wp_getState_bind]
    simp only [hown, Option.getD_some]
    -- from here on the local copy of the attempt is followed
    have h₃' : Impl.After (Impl.After I i.state) j₃.state j₃ := ⟨h₃, .refl _⟩
    refine Still.wp_now h₃' fun producedAt j₄ h₄ same₄ => ?_
    refine Still.wp_now h₄ fun committedAt j₅ h₅ same₅ => ?_
    have at₅ : j₅.state.AttemptIs claim.attempt .validating := by
      rw [same₅, same₄]
      exact at₃
    refine Touched.wp_onAttempt h₅ at₅ (by intro a; rfl) (by intro a; exact ⟨rfl, rfl⟩) fun j₆ h₆ at₆ => ?_
    refine Touched.wp_walk h₆ at₆ (.inr rfl) (by decide) fun j₇ h₇ at₇ => ?_
    refine Touched.wp_onCompilation h₇ (by intro record; rfl) fun j₈ h₈ same₈ => ?_
    have at₈ : j₈.state.AttemptIs claim.attempt .commitReady := by
      rw [State.AttemptIs, same₈]
      exact at₇
    refine Touched.wp_walk h₈ at₈ (.inr rfl) (by decide) fun j₉ h₉ at₉ => ?_
    refine Still.wp_now h₉ fun updatedAt j₁₀ h₁₀ same₁₀ => ?_
    refine Touched.wp_onCompilation h₁₀ (by intro record; rfl) fun j₁₁ h₁₁ same₁₁ => ?_
    refine Program.wp_seq (fun r k => Impl.After (Impl.After I i.state) j₃.state k ∧ r = .ok ())
      (Program.wp_and (Touched.finishAttemptBookkeeping claim.attempt j₁₁ h₁₁)
      (wp_finishAttemptBookkeeping claim.attempt j₁₁)) ?_ ?_
    · rintro ⟨⟩ j₁₂ ⟨h₁₂, -⟩
      have hstable : j₁₂.state.header.stable = j₃.state.header.stable := h₁₂.steady.stable
      obtain ⟨reported, hreported, hcontinues⟩ := h₁₂.steady.attempts _ own hown
      obtain ⟨stored, hstored, hfrozen⟩ := h₁₂.keeps.steady.record found
      have hcandidate : reported.candidate = own.candidate :=
        (hcontinues.reported (by rw [hstate]; rfl)).2
      have hvalidation : j₁₂.state.header.nextValidationId = j₃.state.header.nextValidationId :=
        (congrArg StateHeader.nextValidationId hstable :)
      have hfree : j₁₂.state.liveCommit claim.compilation = none := by
        rw [h₁₂.keeps.steady.liveCommit]
        exact free
      rw [Still.wp_onState_bind, ← State.provenanceFor_congr hstable, ← State.commitFor_congr hstable,
        ← hvalidation]
      -- what follows the publication is noted
      have hpublished := Tracked.change h₁₂.keeps.keeps (@Change.publish _ j₁₂.state _ _ _
        { validation with id := ⟨j₁₂.state.header.nextValidationId⟩ } own _ _ producedAt committedAt
        hstored hfrozen.symm hreported hcontinues.frozen.symm hcandidate.symm passed rfl hfree)
      have h₁₃ := Impl.Past.mk hpublished (.refl _)
      refine Program.wp_mono (wp_recordCommit h₁₃ session workerId claim compilation _ _ _ own) ?_
      rintro r k ⟨hk, hr⟩
      exact ⟨hk.keeps, .inl ⟨hleads, _, ⟨j₁₂.state, own, reported, producedAt, committedAt,
        h₁₂.keeps.steady, hreported, hcontinues.frozen.symm, hcandidate.symm, rfl, hk.notes⟩, hr⟩⟩
    · rintro fault j ⟨-, hr⟩
      cases hr
  · refine Program.wp_seq (fun r k => k = i ∧ ∃ fault, r = .error fault) ?_ ?_ ?_
    · refine wp_orReturn (wp_transitionAttempt foundAttempt _) ?_ ?_ ?_
      · rintro k (⟨hlegal, -⟩ | ⟨-, -, status, hr⟩)
        · exact absurd hlegal hleads
        · cases hr
      · rintro status k (⟨hlegal, -⟩ | ⟨-, rfl, -⟩)
        · exact absurd hlegal hleads
        · exact ⟨rfl, _, rfl⟩
      · rintro fault k (⟨hlegal, -⟩ | ⟨-, rfl, -⟩)
        · exact absurd hlegal hleads
        · exact ⟨rfl, _, rfl⟩
    · rintro ⟨⟩ k ⟨-, fault, hr⟩
      cases hr
    · rintro fault k ⟨rfl, -⟩
      exact ⟨hi, .inr ⟨hleads, rfl, fault, rfl⟩⟩

theorem commitLocked (session : SessionId) (claim : AuthorityClaim) (validation : ValidationReport) :
    Keeps I (commitLocked session claim validation) := by
  intro i hi
  unfold DistributedCompilation.commitLocked
  rw [Still.wp_getState_bind]
  split
  next attempt compilation hattempt hcompilation =>
    simp only
    split
    next => exact hi
    next =>
    split
    next => exact Touched.refuseCandidate _ _ i hi
    next hpassed =>
    split
    next prior hprior =>
      split
      · exact Touched.deduplicate _ _ _ _ i hi
      · exact Touched.refuseDivergent _ _ _ i hi
    next hfree =>
      exact Program.wp_mono (wp_commitFirst _ _ _ _ hi hattempt hcompilation hfree (not_not.mp hpassed))
        fun _ _ h => h.1
  next => exact hi

@[grind ←] theorem commitOutput (session : SessionId) (output : ReportOutput)
    (validation : ValidationReport) : Keeps I (commitOutput session output validation) := by
  unfold DistributedCompilation.commitOutput
  refine Keeps.bind Still.getState fun s => ?_
  split
  · exact Still.refused _ _
  · split
    · exact Still.refused _ _
    · split
      · exact commitLocked _ _ _
      · refine Keeps.bind (Noted.recordViolation _ _ _ _ _) fun _ => ?_
        refine Keeps.bind (Touched.transitionAttempt _ (by decide)) fun moved => ?_
        split
        · refine Keeps.bind (Touched.finishAttemptBookkeeping _) fun _ => ?_
          exact Keeps.bind (Still.ignoring (Noted.persistAttempt _)) fun _ => Keeps.pure _
        · exact Keeps.pure _

-- ---------------------------------------------------------------------------
-- Assignments
-- ---------------------------------------------------------------------------

/-- The assignment was issued in the first state, and what followed up to the last is
noted. -/
def Issued (s : State) (assignment : Assignment) (last : State) : Prop :=
  ∃ (id : CompilationId) (compilation : CompilationRecord) (worker : WorkerRecord)
    (speculative : Bool) (createdAt issuedAt updatedAt : UnixMillis),
    s.compilations[id]? = some compilation ∧ s.Able worker.id ∧
    assignment.lease = (s.attemptFor worker compilation speculative createdAt).leaseOf issuedAt ∧
    assignment.claim = s.expectationFor compilation
      (s.attemptFor worker compilation speculative createdAt) ∧
    (s.assign id (s.attemptFor worker compilation speculative createdAt)
      ((s.attemptFor worker compilation speculative createdAt).leaseOf issuedAt) updatedAt).Notes last

/-- An assignment of that compilation to that worker, up to notes. -/
def Assigned (s : State) (id : CompilationId) (worker : WorkerRecord) (speculative : Bool) (last : State) : Prop :=
  ∃ (compilation : CompilationRecord) (createdAt issuedAt updatedAt : UnixMillis),
    (s.assign id (s.attemptFor worker compilation speculative createdAt)
      ((s.attemptFor worker compilation speculative createdAt).leaseOf issuedAt) updatedAt).Notes last

/-- After a first assignment there is room for a duplicate at another worker. -/
theorem Assigned.vacant {s last : State} {id : CompilationId} {worker : WorkerRecord}
    (h : Assigned s id worker false last) (vacant : s.Vacant id false worker.id) {other : WorkerId}
    (differs : s.Seated → worker.id ≠ other) : last.Vacant id true other := by
  obtain ⟨compilation, createdAt, issuedAt, updatedAt, hnotes⟩ := h
  intro record hrecord key hkey attempt hattempt hholds
  rw [hnotes.attempts, State.assign, Table.get_insert] at hattempt
  rw [hnotes.compilations, State.assign] at hrecord
  split at hattempt
  next =>
    obtain rfl := Option.some.inj hattempt
    refine ⟨rfl, rfl, fun hseated => differs fun seat entry hentry => ?_⟩
    -- leasing keeps workers where they are
    have hlast : last.workers[seat]? = if worker.id = seat then (s.workers[worker.id]?).map
        (·.leased ⟨s.header.nextLeaseId⟩) else s.workers[seat]? := by
      rw [hnotes.workers]
      exact Table.get_modify _ _ _ _
    split at hlast
    next hsame =>
      rw [hsame, hentry, Option.map_some] at hlast
      exact (hseated seat _ hlast :)
    next => exact hseated seat entry (hlast.trans hentry)
  next hnew =>
    obtain ⟨old, hold, hupdated⟩ := Table.of_get_modify hrecord
    have hmem : key ∈ old.attempts := by
      rcases hupdated with rfl | ⟨-, rfl⟩
      · exact hkey
      · rcases List.mem_append.mp hkey with hmem | hmem
        · exact hmem
        · exact absurd (List.mem_singleton.mp hmem).symm hnew
    obtain ⟨hfirst, -⟩ := vacant old hold key hmem attempt hattempt hholds
    cases hfirst

/-- An assignment goes to a worker that is able, and leaves able who was. -/
theorem wp_buildAssignment {i : Impl} (hi : I i) {worker : WorkerRecord} (able : i.state.Able worker.id)
    (id : CompilationId) (speculative : Bool) (vacant : i.state.Vacant id speculative worker.id) :
    Program.wp (buildAssignment worker id speculative)
      (fun r j => I j ∧ (∀ other, i.state.Able other → j.state.Able other) ∧
        Program.Returned (fun assignment => Issued i.state assignment j.state ∧
          Assigned i.state id worker speculative j.state) r) i := by
  have stop : ∀ (k : Impl), (I k ∧ k.state = i.state) →
      I k ∧ (∀ other, i.state.Able other → k.state.Able other) ∧ True :=
    fun k hk => ⟨hk.1, fun other h => hk.2 ▸ h, trivial⟩
  unfold buildAssignment
  rw [Program.wp_read_bind]
  split
  next => exact stop i ⟨hi, rfl⟩
  next compilation hcompilation =>
  split
  next => exact stop i ⟨hi, rfl⟩
  next request unit hresolve =>
  refine Program.wp_seq (fun _ k => I k ∧ k.state = i.state) (Still.loadEach _ _ _ i ⟨hi, rfl⟩)
    (fun sources j hj => ?_) fun _ k hk => stop k hk
  split
  next => exact stop j hj
  next sources =>
  refine Program.wp_seq (fun _ k => I k ∧ k.state = i.state) (Still.loadEach _ _ _ j hj)
    (fun dependencies j hj => ?_) fun _ k hk => stop k hk
  split
  next => exact stop j hj
  next dependencies =>
  refine Program.wp_seq (fun _ k => I k ∧ k.state = i.state) (Still.loadLinkInputs _ _ _ j hj)
    (fun children j hj => ?_) fun _ k hk => stop k hk
  split
  next => exact stop j hj
  next children =>
  obtain ⟨hj, hsame⟩ := hj
  refine Still.wp_now hj fun createdAt j₁ h₁ same₁ => ?_
  refine Still.wp_now h₁ fun issuedAt j₂ h₂ same₂ => ?_
  refine Still.wp_now h₂ fun updatedAt j₃ h₃ same₃ => ?_
  have hstate : j₃.state = i.state := same₃.trans (same₂.trans (same₁.trans hsame))
  rw [Still.wp_onState_bind, hstate]
  have hassigned : I { j₃ with state := (i.state.assign id
      (i.state.attemptFor worker compilation speculative createdAt)
      ((i.state.attemptFor worker compilation speculative createdAt).leaseOf issuedAt) updatedAt : State) } :=
    Tracked.change h₃ (by rw [hstate]; exact .assign hcompilation able vacant)
  have hpast := Impl.Past.mk hassigned (.refl _)
  -- leasing a worker leaves it able, and the records are appended aside
  have hable : ∀ k, Impl.Past I (i.state.assign id
      (i.state.attemptFor worker compilation speculative createdAt)
      ((i.state.attemptFor worker compilation speculative createdAt).leaseOf issuedAt) updatedAt) k →
      ∀ other, i.state.Able other → k.state.Able other := by
    rintro k ⟨-, hnotes⟩ other ⟨key, entry, hentry, hid, hready, hfenced⟩
    rw [State.Able, hnotes.workers]
    simp only [State.assign, Table.get_modify]
    by_cases hkey : (i.state.attemptFor worker compilation speculative createdAt).worker = key
    · exact ⟨key, entry.leased _, by rw [if_pos hkey, hkey, hentry]; rfl, hid, hready, hfenced⟩
    · exact ⟨key, entry, by rw [if_neg hkey, hentry], hid, hready, hfenced⟩
  have failed : ∀ (fault : Fault) (k : Impl), Impl.Past I (i.state.assign id
      (i.state.attemptFor worker compilation speculative createdAt)
      ((i.state.attemptFor worker compilation speculative createdAt).leaseOf issuedAt) updatedAt) k →
      I k ∧ (∀ other, i.state.Able other → k.state.Able other) ∧ True :=
    fun _ k hk => ⟨hk.keeps, hable k hk, trivial⟩
  refine Program.wp_seq (fun _ k => Impl.Past I _ k) (Noted.persistVoid _ _ hpast) (fun _ k hk => ?_) failed
  refine Program.wp_seq (fun _ k => Impl.Past I _ k) (Noted.persistVoid _ _ hk) (fun _ k hk => ?_) failed
  refine Program.wp_seq (fun _ k => Impl.Past I _ k) (Still.ignoring (Noted.persistCompilation _) _ hk)
    (fun _ k hk => ?_) failed
  refine Program.wp_seq (fun _ k => Impl.Past I _ k) (Still.ignoring (Noted.persistWorker _) _ hk)
    (fun _ k hk => ?_) failed
  refine ⟨hk.keeps, hable k hk, ?_⟩
  exact ⟨⟨id, compilation, worker, speculative, createdAt, issuedAt, updatedAt, hcompilation, able, rfl, rfl,
    hk.notes⟩, compilation, createdAt, issuedAt, updatedAt, hk.notes⟩

/-- The second assignment of a round finds an able worker other than that of the
first. -/
def Spare (s : State) (id : CompilationId) (candidates : List WorkerRecord) (others : List RankedWorker) : Prop :=
  ∀ (second : RankedWorker) (alternate : WorkerRecord), others.head? = some second →
    candidates.find? second.isOf = some alternate → s.Able alternate.id ∧ s.Vacant id true alternate.id

section Results

variable {P : Assignment → Impl → Prop}
  (issue : ∀ {i j : Impl} {assignment : Assignment}, I i → I j →
    Issued i.state assignment j.state → P assignment j)

include issue

/-- What a round of `pump` may assign to keeps able. -/
theorem wp_buildDuplicate (id : CompilationId) (request : Option CompilationRequest)
    {candidates : List WorkerRecord} {others : List RankedWorker} {i : Impl} (hi : I i)
    (spare : Spare i.state id candidates others) :
    Program.wp (buildDuplicate id request candidates others) (fun r j => I j ∧ Program.Collected (P · j) r) i := by
  unfold buildDuplicate
  have nothing : I i ∧ ∀ assignment ∈ [], P assignment i :=
    ⟨hi, fun _ h => absurd h List.not_mem_nil⟩
  split
  · split
    · exact nothing
    next alternate halternate =>
      obtain ⟨second, hhead, hsecond⟩ := Option.bind_eq_some_iff.mp halternate
      obtain ⟨able, vacant⟩ := spare second alternate hhead hsecond
      refine Program.wp_seq _ (wp_buildAssignment hi able id true vacant) ?_ fun _ _ h => ⟨h.1, trivial⟩
      rintro duplicate j ⟨hj, -, hissued⟩
      refine ⟨hj, fun assignment hmem => ?_⟩
      obtain rfl := Option.mem_toList.mp hmem
      exact issue hi hj hissued.1
  · exact nothing

/-- A round of `pump`, with what it assigned. -/
theorem wp_pumpOne (keeps : ∀ (assignment : Assignment) (id : CompilationId)
      (request : Option CompilationRequest) (candidates : List WorkerRecord)
      (others : List RankedWorker) (i : Impl), P assignment i → Spare i.state id candidates others →
      Program.wp (buildDuplicate id request candidates others) (fun _ j => P assignment j) i)
    (id : CompilationId) {i : Impl} (hi : I i) :
    Program.wp (DistributedCompilation.pumpOne id) (fun r j => I j ∧ Program.Collected (P · j) r) i := by
  have nothing {j : Impl} (hj : I j) : I j ∧ ∀ assignment ∈ [], P assignment j :=
    ⟨hj, fun _ h => absurd h List.not_mem_nil⟩
  unfold DistributedCompilation.pumpOne
  rw [Still.wp_getState_bind]
  split
  · exact nothing hi
  next compilation hcompilation =>
  have queued {f : CompilationRecord → CompilationRecord}
      (h : ∀ record, (f record).frozen = record.frozen) :
      Program.wp (do onCompilation id f; pure [] : M (List Assignment)) (fun r j => I j ∧ Program.Collected (P · j) r) i :=
    Program.wp_seq (fun _ j => I j) (Touched.onCompilation h i hi) (fun _ _ hj => nothing hj)
      fun _ _ hj => ⟨hj, trivial⟩
  split
  next => exact nothing hi
  next =>
  split
  next => exact nothing hi
  next =>
  split
  next => exact nothing hi
  next hidle =>
  split
  next => exact queued fun _ => rfl
  next =>
  simp only
  split
  next => exact queued fun _ => rfl
  next =>
  split
  next => exact queued fun _ => rfl
  next best others hranked =>
  split
  next => exact nothing hi
  next chosen hchosen =>
    have able : ∀ worker ∈ i.state.eligibleWorkers (i.state.requirementsFor compilation),
        i.state.Able worker.id := fun _ => able_of_mem_eligibleWorkers
    have vacant := vacant_of_not_inFlight hcompilation (Bool.eq_false_of_not_eq_true hidle) false chosen.id
    refine Program.wp_seq _ (wp_buildAssignment hi (able chosen (List.mem_of_find?_eq_some hchosen)) id
      false vacant) ?_ fun _ _ h => ⟨h.1, trivial⟩
    rintro assignment j ⟨hj, hable, hissued⟩
    split
    · exact nothing hj
    next assignment =>
      have hfirst := issue hi hj hissued.1
      have hspare : Spare j.state id (i.state.eligibleWorkers (i.state.requirementsFor compilation)) others := by
        intro second alternate hhead hsecond
        refine ⟨hable _ (able alternate (List.mem_of_find?_eq_some hsecond)), hissued.2.vacant vacant ?_⟩
        exact fun hseated => ne_of_rankWorkers (nodup_eligibleWorkers hseated _) hranked hhead
          (List.find?_some hchosen) (List.find?_some hsecond)
      refine Program.wp_seq _ (Program.wp_and (wp_buildDuplicate issue id _ hj hspare)
        (keeps assignment id _ _ _ j hfirst hspare)) ?_ fun _ _ h => ⟨h.1.1, trivial⟩
      rintro duplicate k ⟨⟨hk, hsecond⟩, hfirst⟩
      refine ⟨hk, fun other hmem => ?_⟩
      rcases List.mem_cons.mp hmem with rfl | hmem
      · exact hfirst
      · exact hsecond other hmem

end Results

@[grind ←] theorem pumpOne (id : CompilationId) : Keeps I (pumpOne id) := fun _ hi =>
  Program.wp_mono (wp_pumpOne (P := fun _ _ => True) (fun _ _ _ => trivial)
    (fun _ _ _ _ _ _ _ _ => trivial) id hi) fun _ _ h => h.1

@[grind ←] theorem pump : Keeps I pump := by
  unfold DistributedCompilation.pump
  refine Keeps.bind .read fun i => Keeps.ite (fun _ => ?_) fun _ => Keeps.pure _
  exact Keeps.collect _ fun id _ => pumpOne id

/-- What is handed out, and stays so, holds of every assignment `pump` returns. -/
theorem wp_pump {P : Assignment → Impl → Prop} [∀ assignment, Tracked (P assignment)]
    (issue : ∀ {i j : Impl} {assignment : Assignment}, I i → I j →
      Issued i.state assignment j.state → P assignment j) {i : Impl} (hi : I i) :
    Program.wp DistributedCompilation.pump (fun r j => I j ∧ Program.Collected (P · j) r) i := by
  have nothing : I i ∧ ∀ assignment ∈ [], P assignment i :=
    ⟨hi, fun _ h => absurd h List.not_mem_nil⟩
  unfold DistributedCompilation.pump
  rw [Program.wp_read_bind]
  split
  · refine Program.wp_collect _ (fun id j hj => wp_pumpOne issue ?_ id hj)
      (fun assignment id => pumpOne id) hi
    intro assignment id request candidates others j hj spare
    exact Program.wp_mono (wp_buildDuplicate (P := fun _ _ => True) (fun _ _ _ => trivial) id request
      hj spare) fun _ _ h => h.1
  · exact nothing

-- ---------------------------------------------------------------------------
-- Submission
-- ---------------------------------------------------------------------------

theorem rebuild (id : CompilationId) {i : Impl} (hi : I i) {record : CompilationRecord}
    (found : i.state.compilations[id]? = some record) (committed : record.state = .committed) :
    Program.wp (DistributedCompilation.rebuild id) (fun _ j => I j) i := by
  unfold DistributedCompilation.rebuild
  rw [Still.wp_onState_bind, Still.wp_getState_bind]
  have hsuperseded : I { i with state := i.state.supersede id } :=
    Tracked.change hi (.supersede found committed)
  have hauthoritative : (i.state.supersede id).authoritative = i.state.authoritative := by
    unfold State.supersede
    simp only [State.withCompilation]
    split <;> rfl
  have reset : Keeps I (do
      let updatedAt ← now
      onCompilation id (·.reset updatedAt)
      orReturn (persistCompilation id)) :=
    Keeps.bind Still.now fun _ => Keeps.bind (Touched.onCompilation fun _ => rfl) fun _ =>
      Still.orReturn (Noted.persistCompilation id)
  simp only
  split
  next => exact reset _ hsuperseded
  next prior hprior =>
    -- the commit it names carries the mark, also behind the append
    have hmarked : ∀ commit : ArtifactCommit, (i.state.supersede id).commits[prior]? = some commit →
        commit.superseded = true := by
      intro commit hcommit
      rw [hauthoritative] at hprior
      simp only [State.supersede, State.withCompilation, hprior] at hcommit
      rw [State.withCommit, Table.get_modify, if_pos rfl, Option.map_eq_some_iff] at hcommit
      obtain ⟨old, -, rfl⟩ := hcommit
      rfl
    have withdrawn : ∀ j : Impl, Impl.Past I (i.state.supersede id) j →
        Program.wp (do
          DistributedCompilation.onState (·.withdraw id)
          let updatedAt ← now
          onCompilation id (·.reset updatedAt)
          orReturn (persistCompilation id)) (fun _ j => I j) j := by
      rintro j ⟨hj, hnotes⟩
      rw [Still.wp_onState_bind]
      rw [← hnotes.authoritative] at hprior
      rw [← hnotes.commits] at hmarked
      exact reset _ (Tracked.change hj (.withdraw hprior hmarked))
    have hpast : Impl.Past I (i.state.supersede id) { i with state := i.state.supersede id } :=
      ⟨hsuperseded, .refl _⟩
    split
    next => exact withdrawn _ hpast
    next commit hcommit =>
      exact Program.wp_seq (fun _ j => Impl.Past I (i.state.supersede id) j)
        (Noted.persistOrLeave _ _ hpast) (fun _ j hj => withdrawn j hj) fun _ _ hj => hj.keeps

@[grind ←] theorem admitUnit (forceRebuild : Bool) (request : CompilationRequest)
    (unit : CompilationUnitSpec) : Keeps I (admitUnit forceRebuild request unit) := by
  intro i hi
  unfold DistributedCompilation.admitUnit
  rw [Still.wp_getState_bind]
  split
  next fresh =>
    refine Still.wp_now hi fun createdAt j h same => ?_
    rw [Still.wp_onState_bind]
    rw [← same] at fresh
    exact Noted.persistOrLeave _ _ (Tracked.change h (.create fresh))
  next existing found =>
    split
    next hforced => exact rebuild _ hi found hforced.2
    next =>
    split
    next =>
      rw [onCompilation, DistributedCompilation.onState, Program.wp_update]
      exact Tracked.change hi (.lower _ _)
    next => exact hi

@[grind ←] theorem registerAndCheck (request : CompilationRequest) :
    Keeps I (registerAndCheck request) :=
  Still.registerAndCheck (fun hi aside => Tracked.change hi (.resolve aside)) request

@[grind ←] theorem submit (bundle : SubmissionBundle) : Keeps I (submit bundle) := by
  unfold DistributedCompilation.submit
  refine Keeps.bind .read fun i => Keeps.bind (Still.orLeave _) fun _ => ?_
  refine Keeps.bind Still.ensureOpen fun _ => Keeps.bind (Still.orThrow _) fun request => ?_
  refine Keeps.bind (Keeps.forEach _ fun unit _ => Still.orLeave _) fun _ => ?_
  refine Keeps.bind (registerAndCheck request) fun request => ?_
  unfold submitRegistered
  refine Keeps.bind Still.getState fun s => Keeps.bind (Still.storeBlobs _) fun _ => ?_
  refine Keeps.bind (Noted.retainRequest _) fun _ => Keeps.bind (Noted.openJob _) fun job => ?_
  refine Keeps.bind (Keeps.forEach _ fun unit _ => admitUnit _ _ unit) fun _ => ?_
  refine Keeps.bind (Noted.onState fun s => .putJob s _ _) fun _ => ?_
  refine Keeps.bind (Noted.persistOrLeave _) fun _ => ?_
  refine Keeps.bind (Keeps.collect _ fun unit _ => ?_) fun units => ?_
  · exact Keeps.bind (Touched.answerUnit _ _ _) fun _ => Keeps.pure _
  · refine Keeps.bind (Noted.onState fun s => .putJob s _ _) fun _ => ?_
    exact Keeps.bind (Noted.persistOrLeave _) fun _ => Keeps.pure _

end Tracked

-- ---------------------------------------------------------------------------
-- Workers
-- ---------------------------------------------------------------------------

section Workers

variable {I : Impl → Prop}

/-- A registration enrolls its worker, or nothing. -/
theorem Noted.registerWorker [HashFunction] [Noted I] (registration : WorkerRegistration)
    (enrolled : ∀ {i : Impl} {worker : WorkerRecord} {session : SessionRecord}, I i →
      worker.id = ((i.state.workers[registration.workerId]?).getD { id := registration.workerId }).id →
      worker.ready = false → Admission i.state (i.state.enroll worker session) →
      I { i with state := i.state.enroll worker session }) :
    Keeps I (registerWorker registration) := by
  intro i hi
  unfold DistributedCompilation.registerWorker
  refine Still.wp_ensureOpen_bind (fun _ => ?_) fun _ => hi
  split
  next => exact Still.refused _ _ i hi
  next =>
  split
  next => exact Still.refused _ _ i hi
  next =>
  refine Program.wp_seq (fun _ k => I k ∧ k.state = i.state) (Still.orThrow _ i ⟨hi, rfl⟩)
    (fun advertised j hj => ?_) fun _ _ hk => hk.1
  obtain ⟨hj, hstate⟩ := hj
  simp only
  rw [Program.wp_read_bind]
  split
  next => exact Still.refused _ _ j hj
  next =>
  refine Still.wp_now hj fun registeredAt j₁ h₁ same₁ => ?_
  rw [Still.wp_onState_bind, ← same₁]
  refine Keeps.bind (Still.orReturn (Noted.persistEntity _)) (fun _ => Keeps.pure _) _ ?_
  exact enrolled h₁ rfl rfl (.enroll rfl ⟨rfl, rfl⟩ rfl rfl)

/-- Readiness is granted to the worker of the session, or nothing. -/
theorem Noted.markReady [Noted I] (session : SessionId)
    (readied : ∀ {i : Impl} {record : SessionRecord} {lastSeen : UnixMillis}, I i →
      i.state.sessions[session]? = some record →
      Admission i.state (i.state.withWorker record.worker fun worker =>
        { worker with ready := true, health := .healthy, lastSeen }) →
      I { i with state := i.state.withWorker record.worker fun worker =>
        { worker with ready := true, health := .healthy, lastSeen } }) :
    Keeps I (markReady session) := by
  intro i hi
  unfold DistributedCompilation.markReady
  refine Still.wp_ensureOpen_bind (fun _ => ?_) fun _ => hi
  refine Program.wp_seq _ (Touched.wp_sessionWorker session i) ?_ fun _ j hj => hj.1 ▸ hi
  rintro ⟨record, worker⟩ j ⟨rfl, hfound⟩
  obtain ⟨hsession, hworker⟩ := hfound _ rfl
  simp only at hsession hworker ⊢
  split
  next => exact Still.refused _ _ j hi
  next hboot =>
  split
  next => exact Still.refused _ _ j hi
  next =>
  refine Still.wp_now hi fun lastSeen j₁ h₁ same₁ => ?_
  rw [onWorker, Still.wp_onState_bind]
  rw [← same₁] at hsession hworker
  refine Still.orReturn (Noted.persistWorker _) _ ?_
  exact readied h₁ hsession (.ready hsession hworker (not_not.mp hboot))

end Workers

-- ---------------------------------------------------------------------------
-- Steps
-- ---------------------------------------------------------------------------

/-- Opening an open coordinator does nothing. -/
theorem wp_openCoordinator_opened [HashFunction] (config : CoordinatorConfig) {i : Impl} (h : i.opened = true) :
    Program.wp (openCoordinator config) (fun r j => r = .ok () ∧ j = i) i := by
  unfold openCoordinator
  rw [Program.wp_read_bind, if_pos h]
  exact ⟨rfl, rfl⟩

/-- Every step within a lifetime keeps what is tracked, apart from admissions. -/
theorem Tracked.step [HashFunction] {I : Impl → Prop} [Tracked I] {sys : System} (h : I sys.impl)
    (environment : Environment) (op : Op)
    (within : ∀ config, op = .openWith config → sys.impl.opened = true)
    (registers : ∀ registration, op = .registerWorker registration →
      Keeps I (registerWorker registration))
    (readies : ∀ session, op = .markReady session → Keeps I (markReady session)) :
    I (System.step environment op sys).impl := by
  have given : I (System.given environment sys.impl) := Still.quiet h rfl (.inl rfl)
  have run {α : Type} {m : M α} (hm : Keeps I m) : I (System.after m (System.given environment sys.impl)) :=
    hm _ given
  cases op with
  | openWith config =>
    obtain ⟨-, hsame⟩ := @wp_openCoordinator_opened _ config (System.given environment sys.impl)
      (within config rfl)
    show I (System.after (openCoordinator config) _)
    rw [System.after, hsame]
    exact given
  | close => exact run Noted.closeCoordinator
  | snapshot => exact run Noted.snapshotCoordinator
  | submit bundle => exact run (Tracked.submit bundle)
  | pump => exact run Tracked.pump
  | drainControls => exact run Noted.drainControls
  | registerWorker registration => exact run (registers registration rfl)
  | advertiseCapabilities session capabilities =>
    exact run (Touched.advertiseCapabilities session capabilities)
  | markReady session => exact run (readies session rfl)
  | heartbeat session => exact run (Touched.heartbeat session)
  | beginCompile claim => exact run (Touched.beginCompile claim)
  | validateResponse session mode evidence digest detail =>
    exact run (Touched.handleValidateResponse session mode evidence digest detail)
  | shutdownSessions => exact run Noted.shutdownSessions
  | failAttempt session report => exact run (Touched.failAttempt session report)
  | disconnect session reason => exact run (Touched.disconnectSession session reason)
  | cancel compilation reason => exact run (Touched.cancel compilation reason)
  | reserve session output =>
    have hrun := run (Touched.reserveOutput session output)
    unfold System.after at hrun
    simp only [System.step, System.reserveStep]
    split
    next heq => rw [heq] at hrun; exact hrun
    next heq => rw [heq] at hrun; exact hrun
  | validate n smoke =>
    simp only [System.step, System.validateStep]
    split
    next => exact given
    next reservation _ =>
      have hrun := run (Still.storeOutput reservation)
      unfold System.after at hrun
      split
      next heq => rw [heq] at hrun; exact hrun
      next heq => rw [heq] at hrun; exact hrun
  | commit n =>
    simp only [System.step, System.commitStep]
    split
    next => exact given
    next reservation report _ => exact run (Tracked.commitOutput _ _ _)

/-- What lasts holds after every step within a lifetime. -/
theorem Lasting.step [HashFunction] {I : Impl → Prop} [Lasting I] {sys : System} (h : I sys.impl)
    (environment : Environment) (op : Op)
    (within : ∀ config, op = .openWith config → sys.impl.opened = true) :
    I (System.step environment op sys).impl :=
  Tracked.step h environment op within
    (fun registration _ => Noted.registerWorker registration fun hi _ _ admission =>
      Lasting.admission hi admission)
    fun session _ => Noted.markReady session fun hi _ admission => Lasting.admission hi admission

end DistributedCompilation
