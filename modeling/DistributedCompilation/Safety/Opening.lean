import DistributedCompilation.Codec.Recovered
import DistributedCompilation.Safety.Tracked

/-!
# Distributed Compilation — what opening establishes

The restart takes the recovered state to one in which nobody holds authority:
sessions are gone, workers fenced, leases revoked, attempts in flight ambiguous
and unfinished compilations queued again. Identities, bindings and counters stay,
and the epoch moves on.
-/

namespace DistributedCompilation

open Program (Keeps forEach)

-- ---------------------------------------------------------------------------
-- The recovered entries
-- ---------------------------------------------------------------------------

/-- The header but for what a restart writes and what only numbers records. -/
def StateHeader.durable (header : StateHeader) : StateHeader :=
  { header.stable with epoch := {}, openedAt := 0, restarts := 0 }

def CoordinatorEpoch.following (epoch : CoordinatorEpoch) : CoordinatorEpoch :=
  if epoch.isZero then ⟨1⟩ else epoch.next

/-- The second state is that of a restart over the first, so far: the entries are
the recovered ones, each with its identity and its binding. -/
structure State.Reopens (recovered s : State) : Prop where
  epoch : s.header.epoch = CoordinatorEpoch.following recovered.header.epoch
  durable : s.header.durable = recovered.header.durable
  commits : s.commits = recovered.commits
  authoritative : s.authoritative = recovered.authoritative
  provenances : s.provenances = recovered.provenances
  validations : s.validations = recovered.validations
  sessions : ∀ id : SessionId, s.sessions[id]? = none
  workers : ∀ id : WorkerId, (s.workers[id]?).map (fun worker => (worker.id, worker.boot)) =
    (recovered.workers[id]?).map fun worker => (worker.id, worker.boot)
  compilations : ∀ id : CompilationId,
    (s.compilations[id]?).map (·.frozen) = (recovered.compilations[id]?).map (·.frozen)
  leases : ∀ id : LeaseId, (s.leases[id]?).map (·.frozen) = (recovered.leases[id]?).map (·.frozen)
  attempts : ∀ (id : CompilationAttemptId) (attempt : CompilationAttempt),
    s.attempts[id]? = some attempt →
      ∃ old : CompilationAttempt, recovered.attempts[id]? = some old ∧ old.Continues attempt

/-- Nobody holds authority. -/
structure State.Fenced (s : State) : Prop where
  workers : ∀ (id : WorkerId) (worker : WorkerRecord), s.workers[id]? = some worker →
    worker.boot.isZero = false → worker.fenced = true ∧ worker.ready = false
  leases : ∀ (id : LeaseId) (lease : CompileLease), s.leases[id]? = some lease → lease.revoked = true
  attempts : ∀ (id : CompilationAttemptId) (attempt : CompilationAttempt),
    s.attempts[id]? = some attempt → holdsCommitAuthority attempt.state = false
  compilations : ∀ (id : CompilationId) (record : CompilationRecord),
    s.compilations[id]? = some record →
      record.state = .pending ∨ record.state.survivesRestart = true

namespace State.Reopens

variable {recovered s s' : State}

theorem of_touch [HashFunction] (h : recovered.Reopens s) (touch : Touch s s') : recovered.Reopens s' := by
  have hstable : s'.header.stable = s.header.stable := (State.Steady.of_touch touch).stable
  have hepoch : s'.header.epoch = s.header.epoch := (congrArg StateHeader.epoch hstable :)
  have hdurable : s'.header.durable = s.header.durable := by
    rw [StateHeader.durable, StateHeader.durable, hstable]
  cases touch with
  | note note =>
    refine ⟨hepoch.trans h.epoch, hdurable.trans h.durable, note.commits.trans h.commits,
      note.authoritative.trans h.authoritative, note.provenances.trans h.provenances,
      note.validations.trans h.validations, ?_, ?_, ?_, ?_, ?_⟩
    · rw [note.sessions]; exact h.sessions
    · rw [note.workers]; exact h.workers
    · rw [note.compilations]; exact h.compilations
    · rw [note.leases]; exact h.leases
    · rw [note.attempts]; exact h.attempts
  | record id frozen =>
    exact { h with compilations := fun key =>
      (Table.map_get_modify (fun record _ => frozen record) key).trans (h.compilations key) }
  | attempt id advances =>
    refine { h with attempts := fun key attempt hattempt => ?_ }
    obtain ⟨before, hbefore, rfl | ⟨rfl, rfl⟩⟩ := Table.of_get_modify hattempt
    · exact h.attempts key attempt hbefore
    · obtain ⟨old, hold, hcontinues⟩ := h.attempts key before hbefore
      exact ⟨old, hold, hcontinues.trans (.of_advances (advances before hbefore))⟩
  | worker id yields =>
    refine { h with workers := fun key => (Table.map_get_modify ?_ key).trans (h.workers key) }
    intro worker hworker
    rw [(yields worker hworker).id, (yields worker hworker).boot]
  | lease id expires =>
    exact { h with leases := fun key =>
      (Table.map_get_modify (fun lease hlease => (expires lease hlease).frozen) key).trans (h.leases key) }
  | revoke worker reason =>
    refine { h with leases := fun key => ?_ }
    rw [← h.leases key]
    show ((s.revokeLeasesFor worker reason).leases[key]?).map _ = _
    rw [State.revokeLeasesFor, Table.get_map, Option.map_map]
    refine congrArg (Option.map · _) (funext fun lease => ?_)
    simp only [Function.comp_apply]
    split <;> rfl
  | session id continues =>
    refine { h with sessions := fun key => ?_ }
    show (s.sessions.modify _ _)[key]? = none
    rw [Table.get_modify, h.sessions, h.sessions]
    split <;> rfl

end State.Reopens

-- ---------------------------------------------------------------------------
-- The restart
-- ---------------------------------------------------------------------------

/-- Two properties that survive touches. -/
instance Touched.and {I J : Impl → Prop} [Touched I] [Touched J] : Touched fun i => I i ∧ J i where
  quiet hi hstate hwrote := ⟨Still.quiet hi.1 hstate hwrote, Still.quiet hi.2 hstate hwrote⟩
  touch hi h := ⟨Touched.touch hi.1 h, Touched.touch hi.2 h⟩

instance State.Reopens.touched {recovered : State} : Touched fun i => recovered.Reopens i.state where
  quiet hi hstate _ := hstate ▸ hi
  touch hi h := State.Reopens.of_touch hi h

/-- The worker has left its seat. -/
def WorkerRecord.Unseated (worker : WorkerRecord) : Prop :=
  worker.boot.isZero = false → worker.fenced = true ∧ worker.ready = false

theorem WorkerRecord.Unseated.yields {worker next : WorkerRecord} (h : worker.Unseated)
    (yields : worker.Yields next) : next.Unseated := by
  intro hboot
  obtain ⟨hfenced, hready⟩ := h (yields.boot ▸ hboot)
  refine ⟨yields.fenced hfenced, ?_⟩
  by_contra hnext
  rw [yields.ready (by simpa using hnext)] at hready
  cases hready

/-- No touch seats a worker again. -/
instance Touched.unseated (id : WorkerId) : Touched fun i =>
    ∀ worker : WorkerRecord, i.state.workers[id]? = some worker → worker.Unseated where
  quiet hi hstate _ := hstate ▸ hi
  touch {i s'} hi h := by
    intro worker hworker
    cases h with
    | note note => exact hi worker (note.workers ▸ hworker)
    | worker key yields =>
      obtain ⟨before, hbefore, rfl | ⟨rfl, rfl⟩⟩ := Table.of_get_modify hworker
      · exact hi worker hbefore
      · exact (hi before hbefore).yields (yields before hbefore)
    | record | attempt | lease | revoke | session => exact hi worker hworker

/-- No touch brings a lease back. -/
instance Touched.revoked : Touched fun i =>
    ∀ (id : LeaseId) (lease : CompileLease), i.state.leases[id]? = some lease → lease.revoked = true where
  quiet hi hstate _ := hstate ▸ hi
  touch {i s'} hi h := by
    intro id lease hlease
    cases h with
    | note note => exact hi id lease (note.leases ▸ hlease)
    | lease key expires =>
      obtain ⟨before, hbefore, rfl | ⟨rfl, rfl⟩⟩ := Table.of_get_modify hlease
      · exact hi id lease hbefore
      · exact (expires before hbefore).revoked (hi _ before hbefore)
    | revoke worker reason =>
      change ((i.state.revokeLeasesFor worker reason).leases[id]?) = some lease at hlease
      rw [State.revokeLeasesFor, Table.get_map, Option.map_eq_some_iff] at hlease
      obtain ⟨before, hbefore, rfl⟩ := hlease
      split
      · rfl
      · exact hi id before hbefore
    | record | attempt | worker | session => exact hi id lease hlease

/-- The interruption of an attempt in flight. -/
theorem keeps_interruptAttempt {J : Impl → Prop} [Still J] (id : CompilationAttemptId)
    (interrupted : ∀ {i : Impl} {attempt : CompilationAttempt} {f : CompilationAttempt → CompilationAttempt},
      J i → i.state.attempts[id]? = some attempt → holdsCommitAuthority attempt.state = true →
      (f attempt).frozen = attempt.frozen → (f attempt).candidate = attempt.candidate →
      (f attempt).state = .ambiguous → J { i with state := i.state.withAttempt id f }) :
    Keeps J (interruptAttempt id) := by
  intro i hi
  unfold interruptAttempt
  rw [Still.wp_getState_bind]
  split
  · exact hi
  next attempt found =>
    split
    next holds =>
      refine Still.wp_now hi fun finishedAt j hj same => ?_
      rw [← same] at found
      exact interrupted hj found holds rfl rfl rfl
    next => exact hi

/-- An interruption only ends the attempt. -/
theorem State.Reopens.interrupted {recovered s : State} (h : recovered.Reopens s)
    {id : CompilationAttemptId} {attempt : CompilationAttempt}
    {f : CompilationAttempt → CompilationAttempt} (found : s.attempts[id]? = some attempt)
    (holds : holdsCommitAuthority attempt.state = true) (frozen : (f attempt).frozen = attempt.frozen)
    (candidate : (f attempt).candidate = attempt.candidate) (state : (f attempt).state = .ambiguous) :
    recovered.Reopens (s.withAttempt id f) := by
  refine { h with attempts := fun key next hnext => ?_ }
  obtain ⟨before, hbefore, rfl | ⟨rfl, rfl⟩⟩ := Table.of_get_modify hnext
  · exact h.attempts key next hbefore
  · obtain rfl : attempt = before := Option.some.inj (found.symm.trans hbefore)
    obtain ⟨old, hold, hcontinues⟩ := h.attempts key attempt hbefore
    refine ⟨old, hold, hcontinues.trans ⟨frozen, fun _ => ⟨?_, candidate⟩, fun hdormant => ?_⟩⟩
    · rw [state]; rfl
    · rw [hdormant] at holds
      cases holds

variable [HashFunction]

/-- Fencing at restart is a touch. -/
theorem Touched.fenceAtRestart {I : Impl → Prop} [Touched I] (id : WorkerId) :
    Keeps I (fenceAtRestart id) := by
  unfold DistributedCompilation.fenceAtRestart
  refine Keeps.bind Still.getState fun s => ?_
  split
  · exact Keeps.pure _
  · refine Keeps.ite (fun _ => Keeps.pure _) fun _ => ?_
    exact Keeps.bind (Touched.onWorker fun _ => ⟨rfl, rfl, fun _ => rfl, nofun, Nat.le_refl _⟩) fun _ =>
      Touched.markCapabilitiesUnknown _

/-- The worker of that key leaves its seat. -/
theorem wp_fenceAtRestart (id : WorkerId) (i : Impl) : Program.wp (fenceAtRestart id)
    (fun _ j => ∀ worker : WorkerRecord, j.state.workers[id]? = some worker → worker.Unseated) i := by
  unfold fenceAtRestart
  rw [Still.wp_getState_bind]
  split
  next hnone =>
    intro worker hworker
    change i.state.workers[id]? = some worker at hworker
    rw [hnone] at hworker
    cases hworker
  next worker found =>
  split
  next hzero =>
    intro other hother
    obtain rfl : worker = other := Option.some.inj (found.symm.trans hother)
    intro hboot
    rw [hzero] at hboot
    cases hboot
  next =>
    rw [onWorker, Still.wp_onState_bind]
    refine Touched.markCapabilitiesUnknown (I := fun j => ∀ worker : WorkerRecord,
      j.state.workers[id]? = some worker → worker.Unseated) id _ ?_
    intro other hother
    change ((i.state.workers.modify id WorkerRecord.unseated)[id]?) = some other at hother
    rw [Table.get_modify, if_pos rfl, found, Option.map_some] at hother
    obtain rfl := Option.some.inj hother
    exact fun _ => ⟨rfl, rfl⟩

omit [HashFunction] in
/-- No entry appears where the recovered state has none. -/
theorem State.Reopens.worker_eq_none {recovered s : State} (h : recovered.Reopens s) {id : WorkerId}
    (hnone : recovered.workers[id]? = none) : s.workers[id]? = none := by
  have hmap := h.workers id
  rw [hnone, Option.map_none, Option.map_eq_none_iff] at hmap
  exact hmap

/-- The workers leave their seats. -/
theorem wp_fenceWorkers {recovered : State} {i : Impl} (h : recovered.Reopens i.state)
    (same : i.state.workers = recovered.workers) :
    Program.wp (forEach i.state.workers.keys fenceAtRestart) (fun r j => r = .ok () →
      recovered.Reopens j.state ∧ ∀ (id : WorkerId) (worker : WorkerRecord),
        j.state.workers[id]? = some worker → worker.Unseated) i := by
  have hreopens := Keeps.forEach (I := fun i => recovered.Reopens i.state) i.state.workers.keys
    (fun id _ => Touched.fenceAtRestart id) i h
  refine fun hr => ⟨hreopens, fun id worker hworker => ?_⟩
  by_cases hid : id ∈ i.state.workers.keys
  · have hleft : Program.wp (forEach i.state.workers.keys fenceAtRestart) (fun r j => r = .ok () →
        ∀ worker : WorkerRecord, j.state.workers[id]? = some worker → worker.Unseated) i :=
      Program.wp_forEach_of_mem (I := fun _ => True) hid (fun _ _ _ => trivial)
        (fun key => Touched.fenceAtRestart key) (fun k _ => fun _ => wp_fenceAtRestart id k) trivial
    exact hleft hr worker hworker
  · rw [hreopens.worker_eq_none (same ▸ Table.get_of_not_mem_keys hid)] at hworker
    cases hworker

omit [HashFunction] in
/-- The attempt of that key is over. -/
theorem wp_interruptAttempt (id : CompilationAttemptId) (i : Impl) : Program.wp (interruptAttempt id)
    (fun r j => r = .ok () → ∀ attempt : CompilationAttempt, j.state.attempts[id]? = some attempt →
      holdsCommitAuthority attempt.state = false) i := by
  unfold interruptAttempt
  rw [Still.wp_getState_bind]
  split
  next hnone =>
    intro _ attempt hattempt
    change i.state.attempts[id]? = some attempt at hattempt
    rw [hnone] at hattempt
    cases hattempt
  next attempt found =>
  split
  next =>
    rw [Still.wp_now_bind, onAttempt]
    intro _ next hnext
    change ((i.state.attempts.modify id _)[id]?) = some next at hnext
    rw [Table.get_modify, if_pos rfl, found, Option.map_some] at hnext
    obtain rfl := Option.some.inj hnext
    rfl
  next hdormant =>
    intro _ other hother
    obtain rfl : attempt = other := Option.some.inj (found.symm.trans hother)
    simpa using hdormant

omit [HashFunction] in
/-- The attempts in flight are interrupted. -/
theorem wp_interruptAttempts {J : Impl → Prop} [Still J] {i : Impl} (hi : J i)
    (interrupted : ∀ (id : CompilationAttemptId) {i : Impl} {attempt : CompilationAttempt}
      {f : CompilationAttempt → CompilationAttempt},
      J i → i.state.attempts[id]? = some attempt → holdsCommitAuthority attempt.state = true →
      (f attempt).frozen = attempt.frozen → (f attempt).candidate = attempt.candidate →
      (f attempt).state = .ambiguous → J { i with state := i.state.withAttempt id f }) :
    Program.wp (forEach i.state.attempts.keys interruptAttempt) (fun r j => r = .ok () → J j ∧
      ∀ (id : CompilationAttemptId) (attempt : CompilationAttempt),
        j.state.attempts[id]? = some attempt → holdsCommitAuthority attempt.state = false) i := by
  have hkept := Keeps.forEach (I := J) i.state.attempts.keys
    (fun id _ => keeps_interruptAttempt id (interrupted id)) i hi
  refine fun hr => ⟨hkept, fun id attempt hattempt => ?_⟩
  have : Still fun j : Impl => ∀ attempt : CompilationAttempt,
      j.state.attempts[id]? = some attempt → holdsCommitAuthority attempt.state = false :=
    ⟨fun hj hstate _ => hstate ▸ hj⟩
  have stays (key : CompilationAttemptId) : Keeps (fun j => ∀ attempt : CompilationAttempt,
      j.state.attempts[id]? = some attempt → holdsCommitAuthority attempt.state = false)
      (interruptAttempt key) := by
    refine keeps_interruptAttempt key fun hj found _ _ _ state next hnext => ?_
    obtain ⟨before, hbefore, rfl | ⟨rfl, rfl⟩⟩ := Table.of_get_modify hnext
    · exact hj next hbefore
    · obtain rfl := Option.some.inj (found.symm.trans hbefore)
      rw [state]
      rfl
  by_cases hid : id ∈ i.state.attempts.keys
  · have hended : Program.wp (forEach i.state.attempts.keys interruptAttempt) (fun r j => r = .ok () →
        ∀ attempt : CompilationAttempt, j.state.attempts[id]? = some attempt →
          holdsCommitAuthority attempt.state = false) i :=
      Program.wp_forEach_of_mem (I := fun _ => True) hid (fun _ _ _ => trivial) stays
        (fun k _ => wp_interruptAttempt id k) trivial
    exact hended hr attempt hattempt
  · have hnone := Table.get_of_not_mem_keys hid
    refine Keeps.forEach _ (fun key _ => stays key) i (fun attempt hattempt => ?_) attempt hattempt
    rw [hnone] at hattempt
    cases hattempt

omit [HashFunction] in
theorem State.Reopens.revokeAllLeases {recovered s : State} (h : recovered.Reopens s) :
    recovered.Reopens s.revokeAllLeases := by
  refine { h with leases := fun id => ?_ }
  rw [← h.leases id, State.revokeAllLeases, Table.get_map, Option.map_map]
  rfl

omit [HashFunction] in
theorem revoked_revokeAllLeases (s : State) (id : LeaseId) (lease : CompileLease)
    (h : s.revokeAllLeases.leases[id]? = some lease) : lease.revoked = true := by
  rw [State.revokeAllLeases, Table.get_map, Option.map_eq_some_iff] at h
  obtain ⟨old, -, rfl⟩ := h
  rfl

omit [HashFunction] in
theorem State.Reopens.requeue {recovered s : State} (h : recovered.Reopens s) :
    recovered.Reopens s.requeue := by
  refine { h with compilations := fun id => ?_ }
  rw [← h.compilations id, State.requeue, Table.get_map, Option.map_map]
  refine congrArg (Option.map · _) (funext fun record => ?_)
  simp only [Function.comp_apply]
  split
  · rfl
  · split <;> rfl

omit [HashFunction] in
/-- What is unfinished waits again. -/
theorem settled_requeue (s : State) (id : CompilationId) (record : CompilationRecord)
    (h : s.requeue.compilations[id]? = some record) :
    record.state = .pending ∨ record.state.survivesRestart = true := by
  rw [State.requeue, Table.get_map, Option.map_eq_some_iff] at h
  obtain ⟨old, -, rfl⟩ := h
  split
  next hsurvives => exact .inr hsurvives
  next =>
    split
    · exact .inr rfl
    · exact .inl rfl

/-- What the restart of a recovered state leaves, when it does not throw. -/
theorem wp_restartState {recovered : State} {i : Impl} (hi : i.state = recovered) :
    Program.wp restartState
      (fun r j => r = .ok () → recovered.Reopens j.state ∧ j.state.Fenced) i := by
  have : Still fun j : Impl => j.state = recovered := ⟨fun hj hstate _ => hstate.trans hj⟩
  unfold restartState
  refine Program.wp_seq (fun _ j => j.state = recovered) (Still.now i hi) (fun openedAt j hj => ?_)
    fun _ _ _ => nofun
  rw [Still.wp_onState_bind, Still.wp_getState_bind, hj]
  have hrestarted : recovered.Reopens (recovered.restart openedAt) :=
    ⟨rfl, rfl, rfl, rfl, rfl, rfl, fun _ => Table.get_empty _, fun _ => rfl, fun _ => rfl,
      fun _ => rfl, fun _ attempt h => ⟨attempt, h, .refl attempt⟩⟩
  refine Program.wp_seq _ (wp_fenceWorkers (i := { j with state := recovered.restart openedAt })
    hrestarted rfl) ?_ fun _ _ _ => nofun
  rintro ⟨⟩ k hk
  obtain ⟨hreopens, hunseated⟩ := hk rfl
  rw [Still.wp_onState_bind, Still.wp_getState_bind]
  let J : Impl → Prop := fun i => recovered.Reopens i.state ∧ (∀ (id : WorkerId) (worker : WorkerRecord),
      i.state.workers[id]? = some worker → worker.Unseated) ∧
      ∀ (id : LeaseId) (lease : CompileLease), i.state.leases[id]? = some lease → lease.revoked = true
  have : Still J := ⟨fun hj hstate _ => by unfold J; rw [hstate]; exact hj⟩
  have hJ : J { k with state := k.state.revokeAllLeases } :=
    ⟨hreopens.revokeAllLeases, hunseated, revoked_revokeAllLeases k.state⟩
  refine Program.wp_seq _ (wp_interruptAttempts hJ ?_) ?_ fun _ _ _ => nofun
  · rintro id i attempt f ⟨hreopens, hunseated, hrevoked⟩ found holds frozen candidate state
    exact ⟨hreopens.interrupted found holds frozen candidate state, hunseated, hrevoked⟩
  · rintro ⟨⟩ l hl _
    obtain ⟨⟨hreopens, hunseated, hrevoked⟩, hdormant⟩ := hl rfl
    exact ⟨hreopens.requeue, hunseated, hrevoked, hdormant, settled_requeue l.state⟩

-- ---------------------------------------------------------------------------
-- The open
-- ---------------------------------------------------------------------------

omit [HashFunction] in
/-- A snapshot whose write is reported is on disk. -/
theorem wp_writeSnapshot (payload : Bytes) (i : Impl) : Program.wp (writeSnapshot payload)
    (fun r j => j.state = i.state ∧ (r = .ok (.ok ()) → j.store.snapshot = payload)) i := by
  have io (placed : Bytes) : Keeps (fun j => j.state = i.state ∧ j.store.snapshot = placed) ioSucceeds :=
    Keeps.bind .read fun _ => Keeps.bind (Keeps.update fun _ h => h) fun _ => .pure _
  unfold writeSnapshot
  rw [Program.wp_read_bind]
  split
  · split
    · exact ⟨rfl, fun h => nomatch (Except.ok.inj h)⟩
    · refine Program.wp_seq _ (io _ i ⟨rfl, rfl⟩) ?_ fun _ _ hj => ⟨hj.1, nofun⟩
      rintro written j ⟨hstate, -⟩
      split
      · refine Program.wp_seq (fun _ k => k.state = i.state ∧ k.store.snapshot = payload) ⟨hstate, rfl⟩ ?_
          fun _ _ hk => ⟨hk.1, nofun⟩
        rintro ⟨⟩ k hk
        refine Program.wp_seq _ (io _ k hk) ?_ fun _ _ hl => ⟨hl.1, nofun⟩
        rintro truncated l ⟨hstate, hplaced⟩
        split
        · exact ⟨hstate, fun _ => hplaced⟩
        · exact ⟨hstate, fun h => nomatch (Except.ok.inj h)⟩
      · exact ⟨hstate, fun h => nomatch (Except.ok.inj h)⟩
  · exact ⟨rfl, fun h => nomatch (Except.ok.inj h)⟩

omit [HashFunction] in
/-- A snapshot that is taken is one of the state. -/
theorem wp_takeSnapshot (i : Impl) : Program.wp takeSnapshot (fun r j => r = .ok (.ok ()) →
    (encodeState i.state).fits = true ∧ j.store.snapshot = (encodeState i.state).bytes) i := by
  unfold takeSnapshot
  refine Program.wp_seq (fun r j => r = .ok (.ok ()) → (encodeState i.state).fits = true ∧
    j.store.snapshot = (encodeState i.state).bytes) ?_ ?_ fun _ _ _ => nofun
  · unfold writeState
    rw [Still.wp_getState_bind]
    unfold writes
    split
    next hfits =>
      refine Program.wp_mono (wp_writeSnapshot (encodeState i.state).bytes i) ?_
      exact fun r j hj hr => ⟨hfits, hj.2 hr⟩
    next => exact nofun
  · intro status j hj
    cases status with
    | error status => exact fun h => nomatch (Except.ok.inj h)
    | ok => exact fun _ => hj rfl

/-- What the open makes of the object, when it returns success. -/
structure Impl.Opening (config : CoordinatorConfig) (store : Store) (i : Impl) : Prop where
  recovered : ∃ recovered : State, recovered.Booted ∧ recovered.Reopens i.state ∧
    (config.enablePersistence = true → store.recover = .ok recovered) ∧
    (config.enablePersistence = false → recovered = {})
  fenced : i.state.Fenced
  saved : config.enablePersistence = true → ∃ saved : State,
    saved.header.epoch = i.state.header.epoch ∧ (encodeState saved).fits = true ∧
      i.store.snapshot = (encodeState saved).bytes

omit [HashFunction] in
theorem Noted.fenced : Noted fun i => i.state.Fenced where
  quiet hi hstate _ := hstate ▸ hi
  note hi note := ⟨by rw [note.workers]; exact hi.workers, by rw [note.leases]; exact hi.leases,
    by rw [note.attempts]; exact hi.attempts, by rw [note.compilations]; exact hi.compilations⟩

omit [HashFunction] in
theorem Noted.and {I J : Impl → Prop} [Noted I] [Noted J] : Noted fun i => I i ∧ J i where
  quiet hi hstate hwrote := ⟨Still.quiet hi.1 hstate hwrote, Still.quiet hi.2 hstate hwrote⟩
  note hi h := ⟨Noted.note hi.1 h, Noted.note hi.2 h⟩

omit [HashFunction] in
/-- `PersistentStore::open` does not change what is on disk. -/
theorem wp_openStore (i : Impl) : Program.wp openStore (fun _ j => j.state = i.state ∧
    j.store.snapshot = i.store.snapshot ∧ j.store.journal = i.store.journal) i := by
  have io : Keeps (fun j => j.state = i.state ∧ j.store.snapshot = i.store.snapshot ∧
      j.store.journal = i.store.journal) ioSucceeds :=
    Keeps.bind .read fun _ => Keeps.bind (Keeps.update fun _ h => h) fun _ => .pure _
  have opened : Keeps (fun j => j.state = i.state ∧ j.store.snapshot = i.store.snapshot ∧
      j.store.journal = i.store.journal) (onStore fun store => { store with isOpen := true }) :=
    Keeps.update fun _ h => h
  have keeps : Keeps (fun j => j.state = i.state ∧ j.store.snapshot = i.store.snapshot ∧
      j.store.journal = i.store.journal) openStore := by
    unfold openStore
    grind
  exact keeps i ⟨rfl, rfl, rfl⟩

/-- The open behind the recovery. -/
theorem wp_reopen (config : CoordinatorConfig) {recovered : State} (booted : recovered.Booted)
    (store : Store) (hrecovered : config.enablePersistence = true → store.recover = .ok recovered)
    (hfresh : config.enablePersistence = false → recovered = {}) {i : Impl} (hi : i.state = recovered) : Program.wp (do
      restartState
      if config.enablePersistence then
        let s ← getState
        orReturn (persist (.header s.header.epoch s.header.restarts s.header.openedAt))
        orReturn takeSnapshot : M Unit) (fun r j => r = .ok () → j.Opening config store) i := by
  refine Program.wp_seq _ (wp_restartState hi) ?_ fun _ _ _ => nofun
  rintro ⟨⟩ j hj
  obtain ⟨hreopens, hfenced⟩ := hj rfl
  split
  next hpersists =>
    rw [Still.wp_getState_bind]
    have := Noted.fenced
    let J : Impl → Prop := fun j => recovered.Reopens j.state ∧ j.state.Fenced
    have : Noted J := Noted.and
    have hJ : J j := ⟨hreopens, hfenced⟩
    refine Program.wp_seq _ (Still.orReturn (Noted.persist _) j hJ) ?_ fun _ _ _ => nofun
    rintro ⟨⟩ k hk
    refine Program.wp_mono (Program.wp_and (Still.orReturn Noted.takeSnapshot k hk)
      (wp_orReturn (wp_takeSnapshot k) (Q := fun r j => r = .ok () →
        (encodeState k.state).fits = true ∧ j.store.snapshot = (encodeState k.state).bytes)
        (fun l hl _ => hl rfl) (fun _ _ _ => nofun) fun _ _ _ => nofun)) ?_
    rintro r l ⟨hl, hsaved⟩ hr
    obtain ⟨hfits, hpayload⟩ := hsaved hr
    refine ⟨⟨recovered, booted, hl.1, hrecovered, hfresh⟩, hl.2, fun _ => ⟨k.state, ?_, hfits, hpayload⟩⟩
    rw [hk.1.epoch, hl.1.epoch]
  next hpersists =>
    exact fun _ => ⟨⟨recovered, booted, hreopens, hrecovered, hfresh⟩, hfenced, fun h => absurd h hpersists⟩

/-- What a successful open of a closed object leaves. -/
theorem wp_openCoordinator (config : CoordinatorConfig) {i : Impl} (closed : i.opened = false) :
    Program.wp (openCoordinator config) (fun r j => r = .ok () → j.Opening config i.store) i := by
  unfold openCoordinator
  rw [Program.wp_read_bind, if_neg (by rw [closed]; decide), Program.wp_update_bind]
  by_cases hpersists : config.enablePersistence = true
  · have reopen := fun (recovered : State) => @wp_reopen _ config recovered
    simp only [if_pos hpersists] at reopen ⊢
    refine Program.wp_seq _ (wp_openStore _) ?_ fun _ _ _ => nofun
    rintro - j ⟨-, hsnapshot, hjournal⟩
    rw [Program.wp_read_bind]
    have hsame : j.store.recover = i.store.recover := by
      unfold Store.recover
      rw [hsnapshot, hjournal]
    cases hrecover : j.store.recover with
    | error status => exact nofun
    | ok recovered =>
      rw [hsame] at hrecover
      exact reopen recovered (Store.booted_of_recover hrecover) i.store (fun _ => hrecover)
        (fun h => absurd (h.symm.trans hpersists) Bool.false_ne_true) rfl
  · have reopen := fun (recovered : State) => @wp_reopen _ config recovered
    simp only [if_neg hpersists] at reopen ⊢
    rw [Program.wp_pure_bind, Program.wp_update_bind]
    exact reopen {} .initial i.store (fun h => absurd h hpersists) (fun _ => rfl) rfl

end DistributedCompilation
