import DistributedCompilation.Refinement.Primitives

/-!
# Distributed Compilation — the shared helpers as moves

Blobs, appends of referenced entries, violations, the lifecycle of attempts and
fencing. `State.WindsDown` is what every way to end an attempt has in common.
-/

namespace DistributedCompilation

-- ---------------------------------------------------------------------------
-- Winding down
-- ---------------------------------------------------------------------------

/-- Nothing but the progress of attempts, workers, leases, compilations and jobs
has changed, and an attempt that moved has lost its authority. -/
structure State.WindsDown (s s' : State) : Prop where
  rest : s' = { s with
    attempts := s'.attempts, workers := s'.workers, leases := s'.leases
    compilations := s'.compilations, jobs := s'.jobs, controls := s'.controls }
  attempt : ∀ (key : CompilationAttemptId) (a' : CompilationAttempt), s'.attempts[key]? = some a' →
    ∃ a : CompilationAttempt, s.attempts[key]? = some a ∧ a'.frozen = a.frozen ∧
      (a'.state = a.state ∨
        (isTerminalState a.state = false ∧ holdsCommitAuthority a'.state = false))
  worker : ∀ (key : WorkerId) (w : WorkerRecord), s.workers[key]? = some w →
    ∃ w' : WorkerRecord, s'.workers[key]? = some w' ∧ w'.Continues w

namespace State.WindsDown

variable {s s' s'' : State}

theorem refl (s : State) : s.WindsDown s where
  rest := rfl
  attempt _ a ha := ⟨a, ha, rfl, .inl rfl⟩
  worker _ w hw := ⟨w, hw, rfl, rfl, rfl, rfl⟩

theorem trans (h : s.WindsDown s') (h' : s'.WindsDown s'') : s.WindsDown s'' where
  rest := by
    conv_lhs => rw [h'.rest, h.rest]
  attempt key a'' ha'' := by
    obtain ⟨a', ha', hf', hs'⟩ := h'.attempt key a'' ha''
    obtain ⟨a, ha, hf, hs⟩ := h.attempt key a' ha'
    refine ⟨a, ha, hf'.trans hf, ?_⟩
    rcases hs with hs | ⟨hlive, hs⟩
    · rwa [← hs]
    · right
      rcases hs' with hs' | ⟨-, hs'⟩
      · exact ⟨hlive, by rw [hs', hs]⟩
      · exact ⟨hlive, hs'⟩
  worker key w hw := by
    obtain ⟨w', hw', hc⟩ := h.worker key w hw
    obtain ⟨w'', hw'', hc'⟩ := h'.worker key w' hw'
    exact ⟨w'', hw'', hc'.id.trans hc.id, hc'.boot.trans hc.boot,
      hc'.generation.trans hc.generation, hc'.fenced.trans hc.fenced⟩

theorem commits (h : s.WindsDown s') : s'.commits = s.commits := by rw [h.rest]

theorem authoritative (h : s.WindsDown s') : s'.authoritative = s.authoritative := by rw [h.rest]

theorem sessions (h : s.WindsDown s') : s'.sessions = s.sessions := by rw [h.rest]

theorem requests (h : s.WindsDown s') : s'.requests = s.requests := by rw [h.rest]

theorem header (h : s.WindsDown s') : s'.header = s.header := by rw [h.rest]

theorem liveCommit (h : s.WindsDown s') (id : CompilationId) : s'.liveCommit id = s.liveCommit id := by
  rw [h.rest]
  rfl

/-- Compilations and jobs are free to change. -/
theorem compilations (s : State) (compilations : Table CompilationId CompilationRecord)
    (jobs : Table Digest256 JobRecord) : s.WindsDown { s with compilations, jobs } :=
  { refl s with rest := rfl }

theorem controls (s : State) (controls : List ControlMessage) : s.WindsDown { s with controls } :=
  { refl s with rest := rfl }

/-- The progress of one attempt. -/
theorem withAttempt {id : CompilationAttemptId} {f : CompilationAttempt → CompilationAttempt}
    (hf : ∀ a, s.attempts[id]? = some a → (f a).frozen = a.frozen ∧ ((f a).state = a.state ∨
      (isTerminalState a.state = false ∧ holdsCommitAuthority (f a).state = false))) :
    s.WindsDown (s.withAttempt id f) where
  rest := rfl
  attempt key a' ha' := by
    obtain ⟨a, ha, rfl | ⟨rfl, rfl⟩⟩ := Table.of_get_modify ha'
    · exact ⟨a', ha, rfl, .inl rfl⟩
    · exact ⟨a, ha, hf a ha⟩
  worker _ w hw := ⟨w, hw, rfl, rfl, rfl, rfl⟩

theorem withWorker {id : WorkerId} {f : WorkerRecord → WorkerRecord}
    (hf : ∀ w, (f w).Continues w) : s.WindsDown (s.withWorker id f) where
  rest := rfl
  attempt _ a ha := ⟨a, ha, rfl, .inl rfl⟩
  worker key w hw := by
    simp only [State.withWorker, Table.get_modify]
    split
    next hkey =>
      subst hkey
      exact ⟨f w, by rw [hw]; rfl, hf w⟩
    next => exact ⟨w, hw, rfl, rfl, rfl, rfl⟩

theorem withLease (s : State) (id : LeaseId) (f : CompileLease → CompileLease) :
    s.WindsDown (s.withLease id f) :=
  { refl s with rest := rfl }

end State.WindsDown

/-- An update of an entry is its value at what the entry holds. -/
theorem State.withAttempt_congr {s : State} {id : CompilationAttemptId}
    {f g : CompilationAttempt → CompilationAttempt}
    (h : ∀ a, s.attempts[id]? = some a → f a = g a) : s.withAttempt id f = s.withAttempt id g := by
  simp only [State.withAttempt, Table.modify_congr h]

namespace Does

variable [HashFunction] {permits : Hazard → State → Prop} {R : Impl → Impl → Prop}
  [Steps permits R] {config : CoordinatorConfig} {s : State}

include permits

-- ---------------------------------------------------------------------------
-- Appends of referenced entries
-- ---------------------------------------------------------------------------

theorem persistCompilation (id : CompilationId) :
    Does R config s (DistributedCompilation.persistCompilation id) fun _ s' => s' = s := by
  refine getState_bind ?_
  split
  next record hrecord => exact persist (Mirrored.refl s) fun _ => ⟨id, hrecord⟩
  next => exact pure rfl

theorem persistAttempt (id : CompilationAttemptId) :
    Does R config s (DistributedCompilation.persistAttempt id) fun _ s' => s' = s := by
  refine getState_bind ?_
  split
  next attempt hattempt => exact persist (Mirrored.refl s) fun _ => ⟨id, hattempt⟩
  next => exact pure rfl

theorem persistWorker (id : WorkerId) :
    Does R config s (DistributedCompilation.persistWorker id) fun _ s' => s' = s := by
  refine getState_bind ?_
  split
  next worker hworker => exact persist (Mirrored.refl s) fun _ => ⟨id, hworker⟩
  next => exact pure rfl

-- ---------------------------------------------------------------------------
-- Blobs
-- ---------------------------------------------------------------------------

theorem cacheBlob (digest : Digest256) (bytes : Bytes) :
    Does R config s (DistributedCompilation.cacheBlob digest bytes) fun _ s' => s' = s := by
  unfold DistributedCompilation.cacheBlob
  split
  · rw [← bind_pure (Program.update _)]
    exact update_bind (fun i => ⟨rfl, rfl, rfl, rfl, rfl, rfl, rfl⟩) (pure rfl)
  · exact pure rfl

theorem storeBlob (bytes : Bytes) :
    Does R config s (DistributedCompilation.storeBlob bytes) fun _ s' => s' = s := by
  refine read_bind fun i _ => ?_
  split
  · exact pure rfl
  · have hcached : ∀ stored : Result Unit, Does R config s
        (do
          if stored.isOk = true ∧ ¬i.blobCache.contains (sha256 bytes) = true then
            DistributedCompilation.cacheBlob (sha256 bytes) bytes
          Pure.pure stored) fun _ s' => s' = s := by
      intro stored
      split
      · exact bind_unchanged (cacheBlob _ bytes) (fun _ => pure rfl) fun _ => rfl
      · exact pure rfl
    dsimp only at hcached ⊢
    split
    · refine (io_bind fun written => ?_)
      split
      · exact update_bind (fun i => ⟨rfl, rfl, rfl, rfl, rfl, rfl, rfl⟩) (hcached _)
      · exact hcached _
    · exact hcached _

theorem loadBlob (digest : Digest256) :
    Does R config s (DistributedCompilation.loadBlob digest) fun _ s' => s' = s := by
  refine read_bind fun i _ => ?_
  split
  · exact pure rfl
  · split
    · split
      · exact pure rfl
      · split
        · exact pure rfl
        · split
          · exact pure rfl
          · split
            · exact pure rfl
            · exact bind_unchanged (cacheBlob digest _) (fun _ => pure rfl) fun _ => rfl
    · exact pure rfl

-- ---------------------------------------------------------------------------
-- Violations
-- ---------------------------------------------------------------------------

theorem recordViolation {operation : String} {code : ErrorCode} {session : SessionId}
    {worker : WorkerId} {detail : Bytes}
    (hazard : ∀ t n, permits (.violation
      { at' := t, operation := txt operation, code, session, worker, detail }) (s.recount n)) :
    Does R config s (DistributedCompilation.recordViolation operation code session worker detail)
      fun _ s' => s' = { s with violations := s'.violations } := by
  refine getState_bind ?_
  split
  · exact pure rfl
  · refine now_bind fun t => act (fun n => .violation (hazard t n)) ⟨rfl, rfl, rfl, rfl⟩ rfl

-- ---------------------------------------------------------------------------
-- Attempts
-- ---------------------------------------------------------------------------

/-- An attempt moves to the next state, or the transition is illegal and nothing
changes. -/
theorem transitionAttempt (id : CompilationAttemptId) (next : AttemptState) :
    Does R config s (DistributedCompilation.transitionAttempt id next) fun r s' =>
      (∃ status, r = .ok (.error status) ∧ s' = s ∧ ∃ a : CompilationAttempt,
        s.attempts[id]? = some a ∧ a.state ≠ next ∧ isLegalTransition a.state next = false) ∨
      (r = .ok (.ok ()) ∧ s' = s.withAttempt id ({ · with state := next }) ∧
        ∀ a : CompilationAttempt, s.attempts[id]? = some a → a.state.Leads next) := by
  refine getState_bind ?_
  split
  next hnone =>
    refine pure (.inr ⟨rfl, ?_, by simp [hnone]⟩)
    rw [State.withAttempt, Table.modify_eq_self (by simp [hnone])]
  next a ha =>
    split
    next status hmoved =>
      refine pure (.inl ⟨status, rfl, rfl, a, ha, ?_⟩)
      unfold moveAttempt at hmoved
      split at hmoved
      · cases hmoved
      · split at hmoved
        · cases hmoved
        next hne hill => exact ⟨hne, by simpa using hill⟩
    next moved hmoved =>
      obtain ⟨rfl, hleads⟩ := legal_of_moveAttempt hmoved
      have hsame : s.withAttempt id (fun _ => { a with state := next }) =
          s.withAttempt id ({ · with state := next }) := by
        refine State.withAttempt_congr fun b hb => ?_
        rw [Option.some.inj (ha.symm.trans hb)]
      refine act_bind (fun n => .attempt fun old hold => ?_) ⟨rfl, rfl, rfl, rfl⟩ (pure ?_)
      · obtain rfl := Option.some.inj (ha.symm.trans hold)
        exact ⟨rfl, hleads⟩
      · refine .inr ⟨rfl, hsame, fun b hb => ?_⟩
        obtain rfl := Option.some.inj (ha.symm.trans hb)
        exact hleads

/-- The time an attempt ended, the worker it no longer occupies and the lease
that ends with it. -/
theorem finishAttemptBookkeeping {id : CompilationAttemptId}
    (ended : ∀ a : CompilationAttempt, s.attempts[id]? = some a →
      holdsCommitAuthority a.state = false) :
    Does R config s (DistributedCompilation.finishAttemptBookkeeping id) fun _ s' =>
      s.WindsDown s' ∧ s'.compilations = s.compilations ∧
        ∃ finishedAt, s'.attempts = (s.withAttempt id ({ · with finishedAt })).attempts := by
  refine now_bind fun finishedAt => act_bind (fun n => .attempt fun old _ => ⟨rfl, .inl rfl⟩)
    ⟨rfl, rfl, rfl, rfl⟩ (getState_bind ?_)
  have hfirst : s.WindsDown (s.withAttempt id ({ · with finishedAt })) :=
    .withAttempt fun a _ => ⟨rfl, .inl rfl⟩
  split
  next => exact pure ⟨hfirst, rfl, finishedAt, rfl⟩
  next attempt hattempt =>
    have hended : holdsCommitAuthority attempt.state = false := by
      obtain ⟨a, ha, -, hstate | ⟨-, hstate⟩⟩ := hfirst.attempt id attempt hattempt
      · rw [hstate, ended a ha]
      · exact hstate
    -- the lease, from any state reached so far
    have hlease : ∀ s', s'.attempts[id]? = some attempt → s.WindsDown s' →
        s'.compilations = s.compilations →
        s'.attempts = (s.withAttempt id ({ · with finishedAt })).attempts →
        Does R config s' (onState (·.withLease attempt.lease fun lease =>
          lease.revoke (txt "attempt reached " ++ attempt.state.text))) fun _ s'' =>
          s.WindsDown s'' ∧ s''.compilations = s.compilations ∧
            ∃ finishedAt, s''.attempts = (s.withAttempt id ({ · with finishedAt })).attempts := by
      intro s' hattempt' hdown hcomp hatt
      exact act (fun n => .lease fun old hold => ⟨rfl, .inr (.finished id attempt hattempt' rfl hended)⟩)
        ⟨rfl, rfl, rfl, rfl⟩ ⟨hdown.trans (.withLease s' _ _), hcomp, finishedAt, hatt⟩
    dsimp only
    split
    · refine now_bind fun lastSeen => act_bind (fun n => .worker fun old _ => ?_) ⟨rfl, rfl, rfl, rfl⟩
        (hlease _ hattempt (hfirst.trans (.withWorker fun w => ⟨rfl, rfl, rfl, rfl⟩)) rfl rfl)
      exact ⟨⟨rfl, rfl, rfl, rfl⟩, fun l hl => List.mem_of_mem_filter hl, .inl rfl⟩
    · exact hlease _ hattempt hfirst rfl rfl

end Does

end DistributedCompilation
