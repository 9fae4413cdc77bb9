import DistributedCompilation.Safety.Claims

/-!
# Distributed Compilation — late disconnects

A session is stale once its worker has registered again, or once it was closed.
`disconnect_session` compares boot ids only, so a stale session whose boot is
still that of the worker fences it: a disconnect leaves the tables alone exactly
where it finds no worker of that boot.
-/

namespace DistributedCompilation

open Program (Keeps)

section

variable [HashFunction]

-- ---------------------------------------------------------------------------
-- Stale sessions
-- ---------------------------------------------------------------------------

/-- The session was closed before, or its worker has another one now. -/
def State.Stale (s : State) (id : SessionId) : Prop :=
  ∃ session : SessionRecord, s.sessions[id]? = some session ∧ (session.isOpen = false ∨
    ∃ worker : WorkerRecord, s.workers[session.worker]? = some worker ∧ worker.session ≠ id)

/-- The records a stale disconnect has to leave alone are as they were. -/
structure State.Untouched (s s' : State) : Prop where
  workers : s'.workers = s.workers
  attempts : s'.attempts = s.attempts
  leases : s'.leases = s.leases
  compilations : s'.compilations = s.compilations

/-- The guard of `disconnect_session`: there is no such session, or it is no worker's,
or no worker is registered under the boot of the session. -/
def Impl.Guards (i : Impl) (id : SessionId) : Prop :=
  i.opened = false ∨ ∀ session : SessionRecord, i.state.sessions[id]? = some session →
    session.isWorker = true → ∀ worker : WorkerRecord, i.state.workers[session.worker]? = some worker →
      worker.boot ≠ session.boot

/-- The worker is registered, at this generation or a later one. -/
def State.Aged (s : State) (id : WorkerId) (generation : Nat) : Prop :=
  ∃ worker : WorkerRecord, s.workers[id]? = some worker ∧ generation ≤ worker.generation.value

-- ---------------------------------------------------------------------------
-- Generations
-- ---------------------------------------------------------------------------

omit [HashFunction] in
theorem State.Aged.of_touch {s s' : State} {id : WorkerId} {generation : Nat} (h : s.Aged id generation)
    (touch : Touch s s') : s'.Aged id generation := by
  obtain ⟨worker, hworker, hle⟩ := h
  cases touch with
  | note notes => exact ⟨worker, notes.workers ▸ hworker, hle⟩
  | record | attempt | lease | revoke | session => exact ⟨worker, hworker, hle⟩
  | @worker key f hyields =>
    by_cases hkey : key = id
    · subst hkey
      refine ⟨f worker, ?_, hle.trans (hyields worker hworker).generation⟩
      show (s.workers.modify key f)[key]? = _
      rw [Table.get_modify, if_pos rfl, hworker]
      rfl
    · refine ⟨worker, ?_, hle⟩
      show (s.workers.modify key f)[id]? = _
      rw [Table.get_modify, if_neg hkey]
      exact hworker

instance State.Aged.touched (id : WorkerId) (generation : Nat) :
    Touched fun i => i.state.Aged id generation where
  quiet hi hstate _ := hstate ▸ hi
  touch hi h := State.Aged.of_touch hi h

/-- A fence takes the worker to a later generation. -/
theorem wp_fenceWorker {id : WorkerId} {generation : Nat} (reason : Bytes) {i : Impl}
    (h : i.state.Aged id generation) :
    Program.wp (fenceWorker id reason) (fun _ j => j.state.Aged id (generation + 1)) i := by
  obtain ⟨worker, hworker, hle⟩ := h
  have hfenced : (i.state.withWorker id fun worker =>
      { worker.unseated with generation := worker.generation.next }).Aged id (generation + 1) := by
    refine ⟨{ worker.unseated with generation := worker.generation.next }, ?_, Nat.succ_le_succ hle⟩
    show (i.state.workers.modify id _)[id]? = _
    rw [Table.get_modify, if_pos rfl, hworker]
    rfl
  unfold fenceWorker
  refine Program.wp_seq (fun _ j => j.state.Aged id (generation + 1)) hfenced (fun _ j hj => ?_)
    fun _ _ hj => hj
  have hrest : Keeps (fun j : Impl => j.state.Aged id (generation + 1)) (do
      markCapabilitiesUnknown id
      onState (·.revokeLeasesFor id reason)) :=
    Keeps.bind (Touched.markCapabilitiesUnknown id) fun _ => Touched.onState fun _ => .revoke id reason
  exact hrest j hj

-- ---------------------------------------------------------------------------
-- The disconnect
-- ---------------------------------------------------------------------------

/-- A guarded disconnect closes the session and nothing else. -/
theorem wp_disconnectSession_guarded {i : Impl} {id : SessionId} (reason : Bytes) (guards : i.Guards id) :
    Program.wp (disconnectSession id reason) (fun _ j => i.state.Untouched j.state) i := by
  unfold disconnectSession
  rw [Program.wp_read_bind]
  split
  next => exact ⟨rfl, rfl, rfl, rfl⟩
  next hopened =>
  rw [Bool.not_eq_true, Bool.not_eq_false] at hopened
  split
  next => exact ⟨rfl, rfl, rfl, rfl⟩
  next session hsession =>
  rw [Still.wp_onState_bind]
  split
  next => exact ⟨rfl, rfl, rfl, rfl⟩
  next hworker =>
  split
  next => exact ⟨rfl, rfl, rfl, rfl⟩
  next worker hfound =>
  split
  next => exact ⟨rfl, rfl, rfl, rfl⟩
  next hboot =>
    rw [not_not] at hboot hworker
    rcases guards with hclosed | hguard
    · rw [hopened] at hclosed
      cases hclosed
    · exact absurd hboot (hguard session hsession hworker worker hfound)

/-- Any other one fences the worker before it returns. -/
theorem wp_disconnectSession_fences {i : Impl} {id : SessionId} (reason : Bytes) (guards : ¬i.Guards id) :
    Program.wp (disconnectSession id reason) (fun r j => r = .ok () → ∃ (key : WorkerId)
      (worker : WorkerRecord), i.state.workers[key]? = some worker ∧
        j.state.Aged key (worker.generation.value + 1)) i := by
  unfold Impl.Guards at guards
  push Not at guards
  obtain ⟨hopened, session, hsession, hisWorker, worker, hworker, hboot⟩ := guards
  have haged : i.state.Aged session.worker worker.generation.value := ⟨worker, hworker, Nat.le_refl _⟩
  have hnotOpen : ¬¬i.opened = true := by simpa using hopened
  unfold disconnectSession
  rw [Program.wp_read_bind, if_neg hnotOpen]
  simp only [hsession, hisWorker, hworker, hboot, not_true_eq_false, ne_eq, if_false]
  rw [Still.wp_onState_bind]
  -- the attempts first, which take no worker back to an earlier generation
  refine Program.wp_seq (fun _ j => j.state.Aged session.worker worker.generation.value)
    (Keeps.forEach _ (fun attempt _ => Touched.loseAttempt session _ attempt) _ haged) (fun _ j hj => ?_)
    fun _ _ _ => nofun
  refine Program.wp_seq _ (wp_fenceWorker _ hj) (fun _ k hk => ?_) fun _ _ _ => nofun
  have hpersisted : Keeps (fun j : Impl => j.state.Aged session.worker (worker.generation.value + 1))
      (ignoring (persistWorker session.worker)) := Still.ignoring (Noted.persistWorker _)
  exact Program.wp_mono (hpersisted k hk) fun _ _ h _ => ⟨session.worker, worker, hworker, h⟩

/-- A disconnect that the guard stops changes no worker, attempt, lease or compilation,
and one that returns without changing any was stopped by the guard. -/
theorem disconnect_inert_iff (environment : Environment) (sys : System) (id : SessionId) (reason : Bytes) :
    (sys.impl.Guards id →
      sys.impl.state.Untouched (sys.step environment (.disconnect id reason)).impl.state) ∧
    (((disconnectSession id reason).run (System.given environment sys.impl)).1 = .ok () →
      sys.impl.state.Untouched (sys.step environment (.disconnect id reason)).impl.state →
      sys.impl.Guards id) := by
  refine ⟨fun guards => ?_, fun returned untouched => ?_⟩
  · exact @wp_disconnectSession_guarded _ (System.given environment sys.impl) id reason guards
  · by_contra guards
    obtain ⟨key, worker, hworker, next, hnext, hlater⟩ :=
      @wp_disconnectSession_fences _ (System.given environment sys.impl) id reason guards returned
    -- the entry would have to be at two generations
    have hsame : (sys.step environment (.disconnect id reason)).impl.state.workers[key]? = some worker := by
      rw [untouched.workers]
      exact hworker
    obtain rfl : next = worker := Option.some.inj (hnext.symm.trans hsame)
    omega

end

-- ---------------------------------------------------------------------------
-- A reconnect with the same boot
-- ---------------------------------------------------------------------------

/-- The worker registers twice without a new boot. -/
def reconnected : System := System.perform [.registerWorker smallWorker, .registerWorker smallWorker] volatileFirst

/-- The worker has its second session, and a late close of the first one fences it. -/
theorem reconnected_checks :
    (reconnected.impl.state.sessions[(⟨1⟩ : SessionId)]?.map (·.worker),
      reconnected.impl.state.workers[(⟨1⟩ : WorkerId)]?.map fun worker => (worker.session, worker.fenced),
      (reconnected.step {} (.disconnect ⟨1⟩ [])).impl.state.workers[(⟨1⟩ : WorkerId)]?.map (·.fenced)) =
    (some ⟨1⟩, some (⟨2⟩, false), some true) := by decide +kernel

theorem not_disconnect_inert : ¬∀ (store : Store) (config : CoordinatorConfig) (first last : System)
    (steps : List Step), Store.Opens store config first → Runs first steps last →
    ∀ (id : SessionId), last.impl.state.Stale id → ∀ (environment : Environment) (reason : Bytes),
      last.impl.state.Untouched (last.step environment (.disconnect id reason)).impl.state := by
  intro h
  have hinert := h _ _ _ reconnected _ volatileFirst_opens (Runs.perform _ volatileFirst rfl) ⟨1⟩
  have hchecks := reconnected_checks
  simp only [Prod.mk.injEq] at hchecks
  obtain ⟨hsessions, hworkers, hafter⟩ := hchecks
  obtain ⟨session, hsession, hof⟩ := Option.map_eq_some_iff.mp hsessions
  obtain ⟨worker, hworker, hseat⟩ := Option.map_eq_some_iff.mp hworkers
  obtain ⟨next, hnext, hfenced⟩ := Option.map_eq_some_iff.mp hafter
  obtain ⟨hother, hunfenced⟩ := Prod.mk.inj hseat
  have hstale : reconnected.impl.state.Stale ⟨1⟩ := by
    refine ⟨session, hsession, .inr ⟨worker, hof ▸ hworker, ?_⟩⟩
    rw [hother]
    decide
  rw [(hinert hstale {} []).workers, hworker] at hnext
  obtain rfl := Option.some.inj hnext
  rw [hfenced] at hunfenced
  cases hunfenced

end DistributedCompilation
