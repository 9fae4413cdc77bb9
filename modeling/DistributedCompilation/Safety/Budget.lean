import DistributedCompilation.Safety.Calm
import DistributedCompilation.Safety.Transitions

/-!
# Distributed Compilation — the retry budget

The counter of a compilation moves when an attempt is issued and is compared when
one fails. A restart queues without a look at it, and a duplicate is issued
together with the first attempt: along runs that do neither over the budget, no
compilation gets more attempts than its request and the configuration allow.
-/

namespace DistributedCompilation

open Program (Keeps)

-- ---------------------------------------------------------------------------
-- Retries
-- ---------------------------------------------------------------------------

/-- The compilation is as it was, up to updates that issue nothing and let it wait below
the limit only; configuration and requests stay. -/
structure Impl.Within (id : CompilationId) (record : Option CompilationRecord) (limit : Nat)
    (config : CoordinatorConfig) (requests : Table Digest256 CompilationRequest) (i : Impl) : Prop where
  calm : i.Calm id record (∃ known, record = some known ∧ known.attemptOrdinalCounter.toNat < limit)
  config : i.config = config
  requests : i.state.requests = requests

namespace Impl.Within

variable {id : CompilationId} {record : Option CompilationRecord} {limit : Nat} {config : CoordinatorConfig}
  {requests : Table Digest256 CompilationRequest}

theorem outside {i j : Impl} (h : i.Within id record limit config requests)
    (compilations : j.state.compilations = i.state.compilations) (hrequests : j.state.requests = i.state.requests)
    (hconfig : j.config = i.config) : j.Within id record limit config requests where
  calm := by
    unfold Impl.Calm
    rw [compilations]
    exact h.calm
  config := hconfig.trans h.config
  requests := hrequests.trans h.requests

instance : Logged (Impl.Within id record limit config requests) where
  logged hi hstate hconfig := by
    rcases hstate with hstate | hstate
    · exact hi.outside (by rw [hstate]) (by rw [hstate]) hconfig
    · exact hi.outside (by rw [hstate]; rfl) (by rw [hstate]; rfl) hconfig

theorem aside {f : State → State} (h : ∀ s : State, (f s).compilations = s.compilations)
    (hrequests : ∀ s : State, (f s).requests = s.requests) :
    Keeps (Impl.Within id record limit config requests) (onState f) :=
  Keeps.update fun i hi => hi.outside (h i.state) (hrequests i.state) rfl

theorem recordViolation (operation : String) (code : ErrorCode) (session : SessionId) (worker : WorkerId)
    (detail : Bytes) : Keeps (Impl.Within id record limit config requests)
      (recordViolation operation code session worker detail) := by
  unfold DistributedCompilation.recordViolation
  refine Keeps.bind Still.getState fun s => ?_
  split
  · exact Keeps.pure _
  · exact Keeps.bind Logged.now fun _ => aside (fun _ => rfl) fun _ => rfl

theorem failAttemptLocked (key : CompilationAttemptId) (code : ErrorCode) (detail : Bytes) :
    Keeps (Impl.Within id record limit config requests) (failAttemptLocked key code detail) := by
  intro i hi
  have : Aloof fun j => j.state.compilations = i.state.compilations ∧ j.state.requests = i.state.requests :=
    ⟨fun hj compilations _ requests => ⟨compilations.trans hj.1, requests.trans hj.2⟩⟩
  have kept := Aloof.failAttemptLocked (I := fun j => j.state.compilations = i.state.compilations ∧
    j.state.requests = i.state.requests) key code detail i ⟨rfl, rfl⟩
  have held := Held.failAttemptLocked (I := fun j => j.config = i.config) key code detail i rfl
  exact hi.outside kept.1 kept.2 held

/-- Below the limit a failure may let the compilation wait again, at it none does. -/
theorem scheduleRetryOrFail (bounded : ∀ known, record = some known →
      (maxAttempts config (requests[known.requestIdentity]?)).toNat ≤ limit)
    (key : CompilationId) (code : ErrorCode) (detail : Bytes) :
    Keeps (Impl.Within id record limit config requests) (scheduleRetryOrFail key code detail) := by
  intro i hi
  unfold DistributedCompilation.scheduleRetryOrFail
  rw [Program.wp_read_bind]
  split
  · exact hi
  next old hold =>
    rw [Still.wp_now_bind, onCompilation, Still.wp_onState_bind]
    refine Program.wp_mono (wp_propagateFanInFailure key _) ?_
    rintro r j ⟨⟨spread, hconfig⟩, -⟩
    refine ⟨?_, hconfig.trans hi.config, spread.requests.trans hi.requests⟩
    have hcalm := hi.calm
    unfold Impl.Calm at hcalm ⊢
    -- the record behind the update
    have hupdated : Option.Rel (CompilationRecord.Calms (∃ known, record = some known ∧
        known.attemptOrdinalCounter.toNat < limit)) record
        (i.state.withCompilation key fun record =>
          { record with
            state := retryState (maxAttempts i.config (i.state.requests[old.requestIdentity]?)) old code
            failure := code
            failureDetail := detail
            updatedAt := i.readings.headD 0 }).compilations[id]? := by
      unfold State.withCompilation
      simp only [Table.get_modify]
      split
      next heq =>
        subst heq
        rw [hold] at hcalm ⊢
        cases hcalm with
        | @some known _ h =>
          refine .some ⟨h.attempts, h.counter, h.identity, fun hwaits => ?_⟩
          dsimp only at hwaits
          unfold retryState at hwaits
          dsimp only at hwaits
          split at hwaits
          next hretry =>
            refine .inr ⟨known, rfl, ?_⟩
            have hlt := UInt32.lt_iff_toNat_lt.mp hretry.2
            rw [hi.config, hi.requests, h.identity, h.counter] at hlt
            exact hlt.trans_le (bounded known rfl)
          next =>
            split at hwaits <;> cases hwaits
      next => exact hcalm
    rcases spread.compilations id with hsame | ⟨-, before, after, hbefore, hafter, hfailed, hfrozen⟩
    · rw [hsame]
      exact hupdated
    · dsimp only at hbefore
      rw [hbefore] at hupdated
      rw [hafter]
      cases hupdated with
      | some h =>
        exact .some ⟨(congrArg CompilationRecord.attempts hfrozen :).trans h.attempts,
          (congrArg CompilationRecord.attemptOrdinalCounter hfrozen :).trans h.counter,
          (congrArg CompilationRecord.requestIdentity hfrozen :).trans h.identity, fun hwaits => by
            rw [hfailed] at hwaits
            cases hwaits⟩

section

variable [HashFunction] (bounded : ∀ known, record = some known →
  (maxAttempts config (requests[known.requestIdentity]?)).toNat ≤ limit)

include bounded

omit [HashFunction] in
theorem failAttempt (session : SessionId) (report : AttemptFailure) :
    Keeps (Impl.Within id record limit config requests) (failAttempt session report) := by
  unfold DistributedCompilation.failAttempt
  refine Keeps.bind Still.ensureOpen fun _ => Keeps.bind Still.getState fun s => ?_
  split
  · exact Keeps.bind (recordViolation _ _ _ _ _) fun _ => Still.refused _ _
  · split
    · exact Still.refused _ _
    · dsimp only
      refine Keeps.ite (fun _ => Keeps.bind (recordViolation _ _ _ _ _) fun _ => Still.refused _ _) fun _ => ?_
      split
      · exact Keeps.bind (recordViolation _ _ _ _ _) fun _ => Still.refused _ _
      · refine Keeps.ite (fun _ => Keeps.pure _) fun _ => ?_
        refine Keeps.bind (Still.orReturn (failAttemptLocked _ _ _)) fun _ => ?_
        refine Keeps.bind (scheduleRetryOrFail bounded _ _ _) fun _ => ?_
        exact Still.orReturn (Logged.persistCompilation _)

theorem disconnectSession (session : SessionId) (reason : Bytes) :
    Keeps (Impl.Within id record limit config requests) (disconnectSession session reason) := by
  have loses (record' : SessionRecord) (detail : Bytes) (key : CompilationAttemptId) :
      Keeps (Impl.Within id record limit config requests) (loseAttempt record' detail key) := by
    unfold loseAttempt
    refine Keeps.bind Still.getState fun s => ?_
    split
    · exact Keeps.pure _
    · refine Keeps.ite (fun _ => Keeps.pure _) fun _ => ?_
      refine Keeps.bind (Still.ignoring (failAttemptLocked _ _ _)) fun _ => Keeps.bind Still.getState fun s => ?_
      split
      · exact Keeps.bind (scheduleRetryOrFail bounded _ _ _) fun _ => Still.ignoring (Logged.persistCompilation _)
      · exact Keeps.pure _
  have fences (key : WorkerId) (detail : Bytes) :
      Keeps (Impl.Within id record limit config requests) (fenceWorker key detail) := by
    unfold fenceWorker markCapabilitiesUnknown
    refine Keeps.bind (aside (fun _ => rfl) fun _ => rfl) fun _ => Keeps.bind ?_ fun _ => aside (fun _ => rfl) fun _ => rfl
    refine Keeps.bind Still.getState fun s => ?_
    split
    · exact Keeps.pure _
    · refine Keeps.bind (aside (fun _ => rfl) fun _ => rfl) fun _ => ?_
      split
      · exact Keeps.pure _
      · exact Keeps.leave _
  unfold DistributedCompilation.disconnectSession
  refine Keeps.bind .read fun i => Keeps.ite (fun _ => Keeps.pure _) fun _ => ?_
  split
  · exact Keeps.pure _
  · refine Keeps.bind (aside (fun _ => rfl) fun _ => rfl) fun _ => Keeps.ite (fun _ => Keeps.pure _) fun _ => ?_
    split
    · exact Keeps.pure _
    · refine Keeps.ite (fun _ => Keeps.pure _) fun _ => ?_
      refine Keeps.bind (Keeps.forEach _ fun _ _ => loses _ _ _) fun _ => Keeps.bind (fences _ _) fun _ => ?_
      exact Still.ignoring (Logged.persistWorker _)

end

end Impl.Within

-- ---------------------------------------------------------------------------
-- Assignments
-- ---------------------------------------------------------------------------

/-- That many attempts have been issued for the compilation. -/
structure CompilationRecord.Issues (n : Nat) (record next : CompilationRecord) : Prop where
  attempts : next.attempts.length = record.attempts.length + n
  counter : next.attemptOrdinalCounter = record.attemptOrdinalCounter + UInt32.ofNat n
  identity : next.requestIdentity = record.requestIdentity
  waits : next.state.waits = true → n = 0 ∧ record.state.waits = true

/-- The same of the coordinator, which keeps its requests. -/
structure Impl.Served (id : CompilationId) (record : Option CompilationRecord)
    (requests : Table Digest256 CompilationRequest) (n : Nat) (i : Impl) : Prop where
  requests : i.state.requests = requests
  issued : Option.Rel (CompilationRecord.Issues n) record i.state.compilations[id]?

/-- No attempt is issued for a compilation that does not wait, and a second one only where
the policy of its request allows it. -/
def Impl.Pumped (id : CompilationId) (record : Option CompilationRecord)
    (requests : Table Digest256 CompilationRequest) (i : Impl) : Prop :=
  ∃ n, i.Served id record requests n ∧ (0 < n → ∃ known, record = some known ∧ known.state.waits = true ∧
    (n = 1 ∨ n = 2 ∧ (requests[known.requestIdentity]?).any (·.policy.allowSpeculativeDuplication) = true))

namespace Impl.Served

variable {id : CompilationId} {record : Option CompilationRecord} {requests : Table Digest256 CompilationRequest}
  {n : Nat}

theorem outside {i j : Impl} (h : i.Served id record requests n) (compilations : j.state.compilations = i.state.compilations)
    (same : j.state.requests = i.state.requests) : j.Served id record requests n :=
  ⟨same.trans h.requests, compilations ▸ h.issued⟩

instance : Logged (Impl.Served id record requests n) where
  logged hi hstate _ := by
    rcases hstate with hstate | hstate
    · exact hi.outside (by rw [hstate]) (by rw [hstate])
    · exact hi.outside (by rw [hstate]; rfl) (by rw [hstate]; rfl)

instance [HashFunction] : Still (Impl.Served id record requests n) where
  quiet hi hstate _ := hi.outside (by rw [hstate]) (by rw [hstate])

theorem pumped {i : Impl} (h : i.Served id record requests 0) : i.Pumped id record requests :=
  ⟨0, h, fun hpos => absurd hpos (Nat.lt_irrefl 0)⟩

section

variable [HashFunction]

omit [HashFunction] in
/-- The tables of an assignment count one attempt of its compilation. -/
theorem assign {i : Impl} (h : i.Served id record requests n) (key : CompilationId) (attempt : CompilationAttempt)
    (lease : CompileLease) (updatedAt : UnixMillis) :
    Impl.Served id record requests (if key = id then n + 1 else n)
      { i with state := i.state.assign key attempt lease updatedAt } := by
  refine ⟨h.requests, ?_⟩
  have hissued := h.issued
  show Option.Rel _ _ (i.state.compilations.modify key _)[id]?
  rw [Table.get_modify]
  by_cases hkey : key = id
  · subst hkey
    rw [if_pos rfl, if_pos rfl]
    cases hfound : i.state.compilations[key]? with
    | none =>
      rw [hfound] at hissued
      cases hissued
      exact .none
    | some next =>
      rw [hfound] at hissued
      cases hissued with
      | @some known _ hnext =>
        refine .some ⟨?_, ?_, hnext.identity, nofun⟩
        · show (next.attempts ++ [attempt.id]).length = _
          rw [List.length_append, hnext.attempts, List.length_singleton, Nat.add_assoc]
        · show next.attemptOrdinalCounter + 1 = _
          rw [hnext.counter, UInt32.ofNat_add, UInt32.add_assoc]
          rfl
  · rw [if_neg hkey, if_neg hkey]
    exact hissued

/-- An assignment that is built counts, one that is not does not. -/
theorem wp_buildAssignment {i : Impl} (h : i.Served id record requests n) (worker : WorkerRecord) (key : CompilationId)
    (speculative : Bool) : Program.wp (buildAssignment worker key speculative) (fun r j =>
      (j.Served id record requests n ∨ key = id ∧ j.Served id record requests (n + 1)) ∧
      (r = .ok none → j.Served id record requests n)) i := by
  unfold buildAssignment
  rw [Program.wp_read_bind]
  split
  · exact ⟨.inl h, fun _ => h⟩
  split
  · exact ⟨.inl h, fun _ => h⟩
  refine Program.wp_seq (fun _ j => j.Served id record requests n) (Still.loadEach _ _ _ i h) (fun sources j h => ?_)
    fun _ _ h => ⟨.inl h, nofun⟩
  split
  · exact ⟨.inl h, fun _ => h⟩
  refine Program.wp_seq (fun _ j => j.Served id record requests n) (Still.loadEach _ _ _ j h) (fun dependencies j h => ?_)
    fun _ _ h => ⟨.inl h, nofun⟩
  split
  · exact ⟨.inl h, fun _ => h⟩
  refine Program.wp_seq (fun _ j => j.Served id record requests n) (Still.loadLinkInputs _ _ _ j h) (fun children j h => ?_)
    fun _ _ h => ⟨.inl h, nofun⟩
  split
  · exact ⟨.inl h, fun _ => h⟩
  dsimp only
  rw [Still.wp_now_bind, Still.wp_now_bind, Still.wp_now_bind, Still.wp_onState_bind]
  -- from here on the attempt is in the tables
  have counts {j : Impl} (h : j.Served id record requests (if key = id then n + 1 else n)) :
      j.Served id record requests n ∨ key = id ∧ j.Served id record requests (n + 1) := by
    by_cases hkey : key = id
    · rw [if_pos hkey] at h
      exact .inr ⟨hkey, h⟩
    · rw [if_neg hkey] at h
      exact .inl h
  have hassigned := (h.outside (j := { j with readings := j.readings.tail.tail.tail }) rfl rfl).assign key
  refine Program.wp_seq _ (Logged.persistVoid _ _ (hassigned _ _ _)) (fun _ k hk => ?_) fun _ _ hk => ⟨counts hk, nofun⟩
  refine Program.wp_seq _ (Logged.persistVoid _ _ hk) (fun _ k hk => ?_) fun _ _ hk => ⟨counts hk, nofun⟩
  refine Program.wp_seq _ (Still.ignoring (Logged.persistCompilation _) _ hk) (fun _ k hk => ?_) fun _ _ hk => ⟨counts hk, nofun⟩
  refine Program.wp_seq _ (Still.ignoring (Logged.persistWorker _) _ hk) (fun _ k hk => ?_) fun _ _ hk => ⟨counts hk, nofun⟩
  exact ⟨counts hk, nofun⟩

/-- Rounds of the loop for other compilations. -/
theorem pumpOne_other {key : CompilationId} (hne : key ≠ id) :
    Keeps (Impl.Served id record requests n) (pumpOne key) := by
  have waits (f : CompilationRecord → CompilationRecord) :
      Keeps (Impl.Served id record requests n) (onCompilation key f) := by
    refine Keeps.update fun i hi => ⟨hi.requests, ?_⟩
    show Option.Rel _ _ (i.state.compilations.modify key f)[id]?
    rw [Table.get_modify, if_neg hne]
    exact hi.issued
  have builds (worker : WorkerRecord) (speculative : Bool) :
      Keeps (Impl.Served id record requests n) (buildAssignment worker key speculative) := fun i hi =>
    Program.wp_mono (hi.wp_buildAssignment worker key speculative) fun _ _ h =>
      h.1.elim (fun h => h) fun h => absurd h.1 hne
  unfold pumpOne
  refine Keeps.bind Still.getState fun s => ?_
  split
  · exact Keeps.pure _
  refine Keeps.ite (fun _ => Keeps.pure _) fun _ => Keeps.ite (fun _ => Keeps.pure _) fun _ => ?_
  refine Keeps.ite (fun _ => Keeps.pure _) fun _ => ?_
  refine Keeps.ite (fun _ => Keeps.bind (waits _) fun _ => Keeps.pure _) fun _ => ?_
  dsimp only
  refine Keeps.ite (fun _ => Keeps.bind (waits _) fun _ => Keeps.pure _) fun _ => ?_
  split
  · exact Keeps.bind (waits _) fun _ => Keeps.pure _
  split
  · exact Keeps.pure _
  refine Keeps.bind (builds _ _) fun assignment => ?_
  split
  · exact Keeps.pure _
  refine Keeps.bind ?_ fun _ => Keeps.pure _
  unfold buildDuplicate
  refine Keeps.ite (fun _ => ?_) fun _ => Keeps.pure _
  split
  · exact Keeps.pure _
  · exact Keeps.bind (builds _ _) fun _ => Keeps.pure _

/-- The round for the compilation itself. -/
theorem wp_pumpOne {i : Impl} (h : i.Served id record requests 0) :
    Program.wp (pumpOne id) (fun _ j => j.Pumped id record requests) i := by
  unfold pumpOne
  rw [Still.wp_getState_bind]
  split
  · exact h.pumped
  next compilation found =>
  split
  · exact h.pumped
  next hwaits =>
  have hwaits : compilation.state.waits = true := by
    rw [not_and_or, not_not, not_not] at hwaits
    rcases hwaits with hpending | heligible
    · rw [hpending]
      rfl
    · rw [heligible]
      rfl
  have hissued := h.issued
  rw [found] at hissued
  cases hrecord : record with
  | none =>
    rw [hrecord] at hissued
    cases hissued
  | some known =>
  subst hrecord
  obtain hissued : known.Issues 0 compilation := by
    cases hissued with
    | some h => exact h
  -- what only puts the compilation back is not counted
  have queued (f : CompilationRecord → CompilationRecord) (attempts : ∀ old, (f old).attempts = old.attempts)
      (counter : ∀ old, (f old).attemptOrdinalCounter = old.attemptOrdinalCounter)
      (identity : ∀ old, (f old).requestIdentity = old.requestIdentity) :
      Program.wp (do
        onCompilation id f
        pure []) (fun (_ : Except Fault (List Assignment)) j => j.Pumped id (some known) requests) i := by
    refine Impl.Served.pumped ⟨h.requests, ?_⟩
    show Option.Rel _ _ (i.state.compilations.modify id f)[id]?
    rw [Table.get_modify, if_pos rfl, found]
    exact .some ⟨by rw [attempts]; exact hissued.attempts, by rw [counter]; exact hissued.counter,
      by rw [identity]; exact hissued.identity, fun _ => ⟨rfl, (hissued.waits hwaits).2⟩⟩
  have once {j : Impl} (hj : j.Served id (some known) requests 1) : j.Pumped id (some known) requests :=
    ⟨1, hj, fun _ => ⟨known, rfl, (hissued.waits hwaits).2, .inl rfl⟩⟩
  split
  · exact h.pumped
  split
  · exact h.pumped
  split
  · exact queued _ (fun _ => rfl) (fun _ => rfl) fun _ => rfl
  dsimp only
  split
  · exact queued _ (fun _ => rfl) (fun _ => rfl) fun _ => rfl
  split
  · exact queued _ (fun _ => rfl) (fun _ => rfl) fun _ => rfl
  split
  · exact h.pumped
  refine Program.wp_seq _ (h.wp_buildAssignment _ id false) (fun assignment j hj => ?_) fun _ j hj =>
    hj.1.elim Impl.Served.pumped fun hj => once hj.2
  split
  · exact (hj.2 rfl).pumped
  next assignment =>
  unfold buildDuplicate
  split
  next hallowed =>
    split
    · exact hj.1.elim Impl.Served.pumped fun hj => once hj.2
    next alternate _ =>
      rw [hissued.identity, h.requests] at hallowed
      refine Program.wp_seq (fun _ k => k.Pumped id (some known) requests) ?_ (fun _ _ hk => hk) fun _ _ hk => hk
      rcases hj.1 with hj | ⟨-, hj⟩
      · have hbuilt := hj.wp_buildAssignment alternate id true
        refine Program.wp_seq _ hbuilt (fun _ k hk => ?_) fun _ k hk => ?_
        · exact hk.1.elim Impl.Served.pumped fun hk => once hk.2
        · exact hk.1.elim Impl.Served.pumped fun hk => once hk.2
      · have twice {k : Impl} (hk : k.Served id (some known) requests 2) : k.Pumped id (some known) requests :=
          ⟨2, hk, fun _ => ⟨known, rfl, (hissued.waits hwaits).2, .inr ⟨rfl, hallowed⟩⟩⟩
        have hbuilt := hj.wp_buildAssignment alternate id true
        refine Program.wp_seq _ hbuilt (fun _ k hk => ?_) fun _ k hk => ?_
        · exact hk.1.elim once fun hk => twice hk.2
        · exact hk.1.elim once fun hk => twice hk.2
  next => exact hj.1.elim Impl.Served.pumped fun hj => once hj.2

/-- All rounds: the compilation has one of them at most. -/
theorem wp_pump {i : Impl} (h : i.Served id record requests 0) :
    Program.wp pump (fun _ j => j.Pumped id record requests) i := by
  have others {key : CompilationId} (hne : key ≠ id) : Keeps (Impl.Pumped id record requests) (pumpOne key) := by
    rintro j ⟨n, hj, hn⟩
    exact Program.wp_mono (pumpOne_other hne j hj) fun _ _ hk => ⟨n, hk, hn⟩
  have loop : ∀ keys : List CompilationId, keys.Nodup → ∀ j, j.Served id record requests 0 →
      Program.wp (Program.collect keys pumpOne) (fun _ k => k.Pumped id record requests) j := by
    intro keys
    induction keys with
    | nil => exact fun _ j hj => hj.pumped
    | cons key keys ih =>
      intro nodup j hj
      obtain ⟨hfresh, nodup⟩ := List.nodup_cons.mp nodup
      by_cases hkey : key = id
      · subst hkey
        refine Program.wp_seq _ hj.wp_pumpOne (fun _ k hk => ?_) fun _ _ hk => hk
        have hrest : Keeps (Impl.Pumped key record requests) (Program.collect keys pumpOne) :=
          Keeps.collect keys fun other hother => others fun heq => hfresh (heq ▸ hother)
        exact Program.wp_seq _ (hrest k hk) (fun _ _ hk => hk) fun _ _ hk => hk
      · refine Program.wp_seq _ (pumpOne_other hkey j hj) (fun _ k hk => ?_) fun _ _ hk => hk.pumped
        exact Program.wp_seq _ (ih nodup k hk) (fun _ _ hk => hk) fun _ _ hk => hk
  unfold pump
  rw [Program.wp_read_bind]
  split
  · exact loop _ Std.ExtTreeMap.nodup_keys i h
  · exact h.pumped

end

end Impl.Served

-- ---------------------------------------------------------------------------
-- Restarts
-- ---------------------------------------------------------------------------

section

variable [HashFunction]

/-- The compilations after an open are those of the directory, queued again. -/
theorem wp_openCoordinator_requeues (config : CoordinatorConfig) {i : Impl} (closed : i.opened = false) :
    Program.wp (openCoordinator config) (fun r j => r = .ok () → ∃ recovered : State,
      i.store.Recovers config recovered ∧ j.state.compilations = recovered.requeue.compilations) i := by
  have reopen : ∀ (recovered : State), i.store.Recovers config recovered → ∀ j : Impl, j.state = recovered →
      Program.wp (do
        restartState
        if config.enablePersistence then
          let s ← getState
          orReturn (persist (.header s.header.epoch s.header.restarts s.header.openedAt))
          orReturn takeSnapshot : M Unit) (fun r k => r = .ok () → ∃ recovered : State,
            i.store.Recovers config recovered ∧ k.state.compilations = recovered.requeue.compilations) j := by
    rintro recovered recovers j rfl
    let I : Impl → Prop := fun k => k.state.compilations = j.state.compilations ∧
      k.state.authoritative = j.state.authoritative
    have : Still I := ⟨fun hk hstate _ => ⟨hstate ▸ hk.1, hstate ▸ hk.2⟩⟩
    have : Noted I := ⟨fun hk note => ⟨note.compilations.trans hk.1, note.authoritative.trans hk.2⟩⟩
    have fenced (id : WorkerId) : Keeps I (fenceAtRestart id) := by
      unfold fenceAtRestart markCapabilitiesUnknown
      refine Keeps.bind Still.getState fun s => ?_
      split
      · exact Keeps.pure _
      · refine Keeps.ite (fun _ => Keeps.pure _) fun _ => Keeps.bind (Keeps.update fun k hk => hk) fun _ => ?_
        refine Keeps.bind Still.getState fun s => ?_
        split
        · exact Keeps.pure _
        · refine Keeps.bind (Keeps.update fun k hk => hk) fun _ => ?_
          split
          · exact Keeps.pure _
          · exact Keeps.leave _
    have interrupted (id : CompilationAttemptId) : Keeps I (interruptAttempt id) := by
      unfold interruptAttempt
      refine Keeps.bind Still.getState fun s => ?_
      split
      · exact Keeps.pure _
      · exact Keeps.ite (fun _ => Keeps.bind Still.now fun _ => Keeps.update fun k hk => hk) fun _ => Keeps.pure _
    have restarted : Program.wp restartState (fun r k => r = .ok () →
        k.state.compilations = j.state.requeue.compilations) j := by
      unfold restartState
      refine Program.wp_seq (fun _ k => I k) (Still.now j ⟨rfl, rfl⟩) (fun openedAt k hk => ?_) fun _ _ _ h => by cases h
      rw [Still.wp_onState_bind, Still.wp_getState_bind]
      refine Program.wp_seq (fun _ k => I k) (Keeps.forEach _ (fun id _ => fenced id) _ hk) (fun _ k hk => ?_)
        fun _ _ _ h => by cases h
      rw [Still.wp_onState_bind, Still.wp_getState_bind]
      refine Program.wp_seq (fun _ k => I k) (Keeps.forEach _ (fun id _ => interrupted id) _ hk) (fun _ k hk => ?_)
        fun _ _ _ h => by cases h
      intro _
      show k.state.requeue.compilations = j.state.requeue.compilations
      unfold State.requeue
      rw [hk.1, hk.2]
    refine Program.wp_seq _ restarted ?_ fun _ _ _ h => by cases h
    rintro ⟨⟩ k hk
    have : Still fun l => l.state.compilations = j.state.requeue.compilations := ⟨fun hl hstate _ => hstate ▸ hl⟩
    have : Noted fun l => l.state.compilations = j.state.requeue.compilations :=
      ⟨fun hl note => note.compilations.trans hl⟩
    split
    next =>
      rw [Still.wp_getState_bind]
      refine Program.wp_seq _ (Still.orReturn (Noted.persist
        (I := fun l => l.state.compilations = j.state.requeue.compilations) _) k (hk rfl)) ?_ fun _ _ _ h => by cases h
      rintro ⟨⟩ l hl
      exact Program.wp_mono (Still.orReturn (Noted.takeSnapshot
        (I := fun l => l.state.compilations = j.state.requeue.compilations)) l hl) fun _ _ hm _ =>
          ⟨j.state, recovers, hm⟩
    next => exact fun _ => ⟨j.state, recovers, hk rfl⟩
  unfold openCoordinator
  rw [Program.wp_read_bind, if_neg (by rw [closed]; decide), Program.wp_update_bind]
  by_cases hpersists : config.enablePersistence = true
  · simp only [if_pos hpersists] at reopen ⊢
    refine Program.wp_seq _ (wp_openStore _) ?_ fun _ _ _ h => by cases h
    rintro - j ⟨-, hsnapshot, hjournal⟩
    rw [Program.wp_read_bind]
    have hsame : j.store.recover = i.store.recover := by
      unfold Store.recover
      rw [hsnapshot, hjournal]
    cases hrecover : j.store.recover with
    | error status => exact fun h => by cases h
    | ok recovered =>
      rw [hsame] at hrecover
      exact reopen recovered ⟨fun _ => hrecover, fun h => absurd (h.symm.trans hpersists) Bool.false_ne_true⟩ _ rfl
  · simp only [if_neg hpersists] at reopen ⊢
    rw [Program.wp_pure_bind, Program.wp_update_bind]
    exact reopen {} ⟨fun h => absurd h hpersists, fun _ => rfl⟩ _ rfl

theorem System.Opens.requeues {config : CoordinatorConfig} {closed first : System}
    (opened : closed.Opens config first) : ∃ recovered : State, closed.impl.store.Recovers config recovered ∧
      first.impl.state.compilations = recovered.requeue.compilations := by
  obtain ⟨hclosed, -, environment, rfl, hok⟩ := opened
  exact wp_openCoordinator_requeues (i := System.given environment closed.impl) config hclosed hok

omit [HashFunction] in
theorem CompilationState.not_waits_of_survives {state : CompilationState} (h : state.survivesRestart = true) :
    state.waits = false := by
  revert h
  cases state <;> decide

omit [HashFunction] in
/-- A record that waits after a restart is one of those that are queued again. -/
theorem State.requeue_waits {s : State} {id : CompilationId} {next : CompilationRecord}
    (found : s.requeue.compilations[id]? = some next) : ∃ record, s.compilations[id]? = some record ∧
      next.attempts = record.attempts ∧ next.attemptOrdinalCounter = record.attemptOrdinalCounter ∧
      (next.state.waits = true → record.state.survivesRestart = false ∧ s.authoritative.contains id = false) := by
  unfold State.requeue at found
  rw [Table.get_map] at found
  obtain ⟨record, hrecord, hnext⟩ := Option.map_eq_some_iff.mp found
  refine ⟨record, hrecord, ?_⟩
  split at hnext
  next hsurvives =>
    subst hnext
    refine ⟨rfl, rfl, fun hwaits => ?_⟩
    rw [CompilationState.not_waits_of_survives hsurvives] at hwaits
    cases hwaits
  next hsurvives =>
    split at hnext
    · subst hnext
      exact ⟨rfl, rfl, nofun⟩
    next hauthority =>
      subst hnext
      exact ⟨rfl, rfl, fun _ => ⟨by simpa using hsurvives, (Bool.not_eq_true _).mp hauthority⟩⟩

-- ---------------------------------------------------------------------------
-- Runs
-- ---------------------------------------------------------------------------

/-- The attempts counted for a compilation. -/
def State.attemptsOf (s : State) (id : CompilationId) : Nat :=
  match s.compilations[id]? with
  | none => 0
  | some record => record.attempts.length

/-- What the coordinator may do next stays within the budget: the limit is no less than what
request and configuration allow, the counter is not about to wrap, and where a duplicate
may be issued with the next attempt there is room for both. -/
structure Impl.Spares (i : Impl) (id : CompilationId) (limit issued : Nat) : Prop where
  bounded : ∀ record, i.state.compilations[id]? = some record →
    (maxAttempts i.config (i.state.requests[record.requestIdentity]?)).toNat ≤ limit
  counts : ∀ record, i.state.compilations[id]? = some record → record.attemptOrdinalCounter.toNat + 2 < 2 ^ 32
  pairs : ∀ record, i.state.compilations[id]? = some record → record.state.waits = true →
    (i.state.requests[record.requestIdentity]?).any (·.policy.allowSpeculativeDuplication) = true → issued + 2 ≤ limit

/-- What a restart finds has counted the attempts, and is not queued again when they have
used up the limit. -/
def State.Warrants (recovered : State) (id : CompilationId) (limit issued : Nat) : Prop :=
  ∀ record, recovered.compilations[id]? = some record → issued ≤ record.attemptOrdinalCounter.toNat ∧
    (record.state.survivesRestart = false → recovered.authoritative.contains id = false → issued = 0 ∨ issued < limit)

/-- A run between two submissions that queue the compilation, over restarts, with the number
of attempts issued for it. Every step meets the condition. -/
inductive System.Course (id : CompilationId) (limit : Nat) (first : System) : Nat → System → Prop
  | start : Course id limit first 0 first
  | step {issued : Nat} {last : System} (course : Course id limit first issued last) (environment : Environment)
      (op : Op) (within : ∀ config, op = .openWith config → last.impl.opened = true)
      (unqueued : ∀ bundle, op = .submit bundle → ∀ record,
        (System.step environment op last).impl.state.compilations[id]? = some record →
        ∃ old, last.impl.state.compilations[id]? = some old ∧ (record.state.waits = true → old.state.waits = true))
      (spares : last.impl.Spares id limit issued) :
      Course id limit first (issued + ((System.step environment op last).impl.state.attemptsOf id -
        last.impl.state.attemptsOf id)) (System.step environment op last)
  | restart {issued : Nat} {last closed next : System} {config : CoordinatorConfig}
      (course : Course id limit first issued last) (down : last.Down closed) (opened : closed.Opens config next)
      (warrants : ∀ recovered, closed.impl.store.Recovers config recovered → recovered.Warrants id limit issued) :
      Course id limit first issued next

/-- The attempts issued so far, as the record of the compilation shows them. -/
structure State.Budgeted (s : State) (id : CompilationId) (limit issued : Nat) : Prop where
  within : issued ≤ limit
  counted : ∀ record, s.compilations[id]? = some record → issued ≤ record.attemptOrdinalCounter.toNat
  waits : ∀ record, s.compilations[id]? = some record → record.state.waits = true → issued = 0 ∨ issued < limit

/-- The steps that neither pump nor submit nor fail attempts. -/
def Op.calm : Op → Bool
  | .pump | .submit _ | .failAttempt _ _ | .disconnect _ _ => false
  | _ => true

theorem System.step_calm (sys : System) (id : CompilationId) (environment : Environment) {op : Op} (calm : op.calm = true)
    (within : ∀ config, op = .openWith config → sys.impl.opened = true) :
    (System.step environment op sys).impl.Calm id sys.impl.state.compilations[id]? False := by
  have start : (System.given environment sys.impl).Calm id sys.impl.state.compilations[id]? False :=
    Impl.Calm.refl sys.impl False
  cases op with
  | openWith config =>
    obtain ⟨-, hsame⟩ := @wp_openCoordinator_opened _ config (System.given environment sys.impl) (within config rfl)
    show (System.after (openCoordinator config) _).Calm _ _ _
    rw [System.after, hsame]
    exact start
  | close => exact Noted.closeCoordinator (I := Impl.Calm id sys.impl.state.compilations[id]? False) _ start
  | snapshot => exact Noted.snapshotCoordinator (I := Impl.Calm id sys.impl.state.compilations[id]? False) _ start
  | submit bundle => cases calm
  | pump => cases calm
  | drainControls => exact Noted.drainControls (I := Impl.Calm id sys.impl.state.compilations[id]? False) _ start
  | registerWorker registration => exact Impl.Calm.registerWorker registration _ start
  | advertiseCapabilities session capabilities => exact Impl.Calm.advertiseCapabilities session capabilities _ start
  | markReady session => exact Impl.Calm.markReady session _ start
  | heartbeat session => exact Impl.Calm.heartbeat session _ start
  | beginCompile claim => exact Impl.Calm.beginCompile claim _ start
  | validateResponse session mode evidence digest detail =>
    exact Impl.Calm.handleValidateResponse session mode evidence digest detail _ start
  | shutdownSessions => exact Noted.shutdownSessions (I := Impl.Calm id sys.impl.state.compilations[id]? False) _ start
  | failAttempt session report => cases calm
  | disconnect session reason => cases calm
  | cancel compilation reason => exact Impl.Calm.cancel compilation reason _ start
  | reserve session output =>
    have hkeeps := Impl.Calm.reserveOutput session output _ start
    unfold Program.wp at hkeeps
    simp only [System.step, System.reserveStep]
    cases hrun : (reserveOutput session output).run (System.given environment sys.impl) with
    | mk r j =>
      rw [hrun] at hkeeps
      cases r <;> exact hkeeps
  | validate n smoke =>
    simp only [System.step, System.validateStep]
    split
    · exact start
    next reservation _ =>
      have hkeeps := Still.storeOutput (I := Impl.Calm id sys.impl.state.compilations[id]? False) reservation _ start
      unfold Program.wp at hkeeps
      cases hrun : (storeOutput reservation).run (System.given environment sys.impl) with
      | mk r j =>
        rw [hrun] at hkeeps
        cases r <;> exact hkeeps
  | commit n =>
    simp only [System.step, System.commitStep]
    split
    · exact start
    · exact Impl.Calm.commitOutput _ _ _ _ start

omit [HashFunction] in
/-- Every unit may have one attempt. -/
theorem one_le_maxAttempts (config : CoordinatorConfig) (request : Option CompilationRequest) :
    1 ≤ (maxAttempts config request).toNat := by
  unfold maxAttempts
  cases request with
  | none => exact Nat.le_refl 1
  | some request =>
    show 1 ≤ (if (1 : UInt32) ≤ min request.policy.maxAttemptsPerUnit config.maxAttemptsHardCap then
      min request.policy.maxAttemptsPerUnit config.maxAttemptsHardCap else (1 : UInt32)).toNat
    split
    next hle => exact UInt32.le_iff_toNat_le.mp hle
    next => exact Nat.le_refl 1

namespace State.Budgeted

variable {id : CompilationId} {limit issued : Nat}

omit [HashFunction] in
/-- A step that issues nothing, where it lets wait only what waited or is below the limit. -/
theorem of_calm {s : State} (h : s.Budgeted id limit issued) {allowed : Prop}
    (room : allowed → ∀ known, s.compilations[id]? = some known → known.attemptOrdinalCounter.toNat < limit) {j : Impl}
    (calm : j.Calm id s.compilations[id]? allowed) :
    j.state.attemptsOf id = s.attemptsOf id ∧ j.state.Budgeted id limit issued := by
  unfold Impl.Calm at calm
  cases hnext : j.state.compilations[id]? with
  | none =>
    rw [hnext] at calm
    cases hknown : s.compilations[id]? with
    | none =>
      refine ⟨by simp [State.attemptsOf, hnext, hknown], h.within, ?_, ?_⟩
      · intro record found
        rw [hnext] at found
        cases found
      · intro record found
        rw [hnext] at found
        cases found
    | some known =>
      rw [hknown] at calm
      cases calm
  | some next =>
    rw [hnext] at calm
    cases hknown : s.compilations[id]? with
    | none =>
      rw [hknown] at calm
      cases calm
    | some known =>
      rw [hknown] at calm
      cases calm with
      | some hcalm =>
        refine ⟨by simp [State.attemptsOf, hnext, hknown, hcalm.attempts], h.within, ?_, ?_⟩
        · intro record found
          obtain rfl := Option.some.inj (hnext.symm.trans found)
          rw [hcalm.counter]
          exact h.counted known hknown
        · intro record found hwaits
          obtain rfl := Option.some.inj (hnext.symm.trans found)
          rcases hcalm.waits hwaits with hbefore | hallowed
          · exact h.waits known hknown hbefore
          · exact .inr ((h.counted known hknown).trans_lt (room hallowed known hknown))

omit [HashFunction] in
/-- A round of `pump` that has room. -/
theorem of_pumped {i j : Impl} (h : i.state.Budgeted id limit issued) (spares : i.Spares id limit issued)
    (pumped : j.Pumped id i.state.compilations[id]? i.state.requests) :
    j.state.Budgeted id limit (issued + (j.state.attemptsOf id - i.state.attemptsOf id)) := by
  obtain ⟨n, hserved, hn⟩ := pumped
  have hissued := hserved.issued
  cases hknown : i.state.compilations[id]? with
  | none =>
    rw [hknown] at hissued
    have hnext : j.state.compilations[id]? = none := by
      cases hnext : j.state.compilations[id]? with
      | none => rfl
      | some next =>
        rw [hnext] at hissued
        cases hissued
    have hsame : j.state.attemptsOf id - i.state.attemptsOf id = 0 := by simp [State.attemptsOf, hnext]
    rw [hsame]
    refine ⟨h.within, fun record found => ?_, fun record found => ?_⟩
    · rw [hnext] at found
      cases found
    · rw [hnext] at found
      cases found
  | some known =>
    rw [hknown] at hissued hn
    cases hnext : j.state.compilations[id]? with
    | none =>
      rw [hnext] at hissued
      cases hissued
    | some next =>
    rw [hnext] at hissued
    cases hissued with
    | some hissued =>
    have hcount : j.state.attemptsOf id - i.state.attemptsOf id = n := by
      simp [State.attemptsOf, hnext, hknown, hissued.attempts]
    rw [hcount]
    have hle : n ≤ 2 := by
      by_contra hlarge
      obtain ⟨-, -, -, hone | ⟨htwo, -⟩⟩ := hn (by omega)
      · omega
      · omega
    -- the counter moves along
    have hcounter : next.attemptOrdinalCounter.toNat = known.attemptOrdinalCounter.toNat + n := by
      have hspare := spares.counts known hknown
      rw [hissued.counter, UInt32.toNat_add, UInt32.toNat_ofNat_of_lt' (by simp [UInt32.size]; omega)]
      exact Nat.mod_eq_of_lt (by omega)
    have hcounted := h.counted known hknown
    refine ⟨?_, fun record found => ?_, fun record found hwaits => ?_⟩
    · rcases Nat.eq_zero_or_pos n with rfl | hpos
      · exact h.within
      · obtain ⟨known', hsame, hwaits, hone | ⟨htwo, hallowed⟩⟩ := hn hpos
        · obtain rfl := Option.some.inj hsame
          have hbounded := spares.bounded known hknown
          have hlimit := one_le_maxAttempts i.config (i.state.requests[known.requestIdentity]?)
          rcases h.waits known hknown hwaits with hzero | hbelow
          · omega
          · omega
        · obtain rfl := Option.some.inj hsame
          rw [htwo]
          exact spares.pairs known hknown hwaits hallowed
    · obtain rfl := Option.some.inj (hnext.symm.trans found)
      omega
    · obtain rfl := Option.some.inj (hnext.symm.trans found)
      obtain ⟨rfl, hbefore⟩ := hissued.waits hwaits
      exact h.waits known hknown hbefore

/-- A step within the budget. -/
theorem step {sys : System} (h : sys.impl.state.Budgeted id limit issued) (spares : sys.impl.Spares id limit issued)
    (environment : Environment) (op : Op) (within : ∀ config, op = .openWith config → sys.impl.opened = true)
    (unqueued : ∀ bundle, op = .submit bundle → ∀ record,
      (System.step environment op sys).impl.state.compilations[id]? = some record →
      ∃ old, sys.impl.state.compilations[id]? = some old ∧ (record.state.waits = true → old.state.waits = true)) :
    (System.step environment op sys).impl.state.Budgeted id limit (issued +
      ((System.step environment op sys).impl.state.attemptsOf id - sys.impl.state.attemptsOf id)) := by
  have same {allowed : Prop} (room : allowed → ∀ known, sys.impl.state.compilations[id]? = some known →
      known.attemptOrdinalCounter.toNat < limit) (calm : (System.step environment op sys).impl.Calm id
        sys.impl.state.compilations[id]? allowed) : (System.step environment op sys).impl.state.Budgeted id limit (issued +
      ((System.step environment op sys).impl.state.attemptsOf id - sys.impl.state.attemptsOf id)) := by
    obtain ⟨hsame, hbudget⟩ := h.of_calm room calm
    rw [hsame, Nat.sub_self, Nat.add_zero]
    exact hbudget
  have failed (hkeeps : (System.step environment op sys).impl.Within id sys.impl.state.compilations[id]? limit
      sys.impl.config sys.impl.state.requests) : (System.step environment op sys).impl.state.Budgeted id limit (issued +
      ((System.step environment op sys).impl.state.attemptsOf id - sys.impl.state.attemptsOf id)) := by
    refine same ?_ hkeeps.calm
    rintro ⟨known', hknown', hlt⟩ known hknown
    obtain rfl := Option.some.inj (hknown.symm.trans hknown')
    exact hlt
  have start : (System.given environment sys.impl).Within id sys.impl.state.compilations[id]? limit
      sys.impl.config sys.impl.state.requests := ⟨Impl.Calm.refl sys.impl _, rfl, rfl⟩
  by_cases hcalm : op.calm = true
  · exact same False.elim (System.step_calm sys id environment hcalm within)
  · cases op with
    | pump =>
      refine h.of_pumped spares ?_
      refine Impl.Served.wp_pump (i := System.given environment sys.impl) ⟨rfl, ?_⟩
      show Option.Rel _ _ sys.impl.state.compilations[id]?
      cases sys.impl.state.compilations[id]? with
      | none => exact .none
      | some known => exact .some ⟨rfl, by simp, rfl, fun hwaits => ⟨rfl, hwaits⟩⟩
    | submit bundle =>
      -- what waits behind the submission waited before it
      refine @same False False.elim ?_
      have hunqueued := unqueued bundle rfl
      unfold Impl.Calm
      cases hnext : (System.step environment (.submit bundle) sys).impl.state.compilations[id]? with
      | none =>
        cases hknown : sys.impl.state.compilations[id]? with
        | none => exact .none
        | some known =>
          have hcalms : Keeps (Impl.Calm id (some known) True) (submit bundle) := Impl.Calm.submit bundle
          have hkeeps := hcalms (System.given environment sys.impl) (by
            show Option.Rel _ _ sys.impl.state.compilations[id]?
            rw [hknown]
            exact .some ⟨rfl, rfl, rfl, .inl⟩)
          have hkeeps : Option.Rel _ _ (System.step environment (.submit bundle) sys).impl.state.compilations[id]? := hkeeps
          rw [hnext] at hkeeps
          cases hkeeps
      | some next =>
        obtain ⟨known, hknown, hwaits⟩ := hunqueued next hnext
        have hcalms : Keeps (Impl.Calm id (some known) True) (submit bundle) := Impl.Calm.submit bundle
        have hkeeps := hcalms (System.given environment sys.impl) (by
          show Option.Rel _ _ sys.impl.state.compilations[id]?
          rw [hknown]
          exact .some ⟨rfl, rfl, rfl, .inl⟩)
        have hkeeps : Option.Rel _ _ (System.step environment (.submit bundle) sys).impl.state.compilations[id]? := hkeeps
        rw [hnext] at hkeeps
        rw [hknown]
        cases hkeeps with
        | some hcalm => exact .some ⟨hcalm.attempts, hcalm.counter, hcalm.identity, fun h => .inl (hwaits h)⟩
    | failAttempt session report => exact failed (Impl.Within.failAttempt spares.bounded session report _ start)
    | disconnect session reason => exact failed (Impl.Within.disconnectSession spares.bounded session reason _ start)
    | _ => exact absurd rfl hcalm

/-- A restart that has counted the attempts. -/
theorem restart (within : issued ≤ limit) {config : CoordinatorConfig} {closed next : System}
    (opened : closed.Opens config next)
    (warrants : ∀ recovered, closed.impl.store.Recovers config recovered → recovered.Warrants id limit issued) :
    next.impl.state.Budgeted id limit issued := by
  obtain ⟨recovered, recovers, hcompilations⟩ := opened.requeues
  have hwarrants := warrants recovered recovers
  refine ⟨within, fun record found => ?_, fun record found hwaits => ?_⟩
  · rw [hcompilations] at found
    obtain ⟨stored, hstored, -, hcounter, -⟩ := State.requeue_waits found
    rw [hcounter]
    exact (hwarrants stored hstored).1
  · rw [hcompilations] at found
    obtain ⟨stored, hstored, -, -, hqueued⟩ := State.requeue_waits found
    obtain ⟨hsurvives, hauthority⟩ := hqueued hwaits
    exact (hwarrants stored hstored).2 hsurvives hauthority

end State.Budgeted

theorem System.Course.budgeted {id : CompilationId} {limit issued : Nat} {first last : System}
    (course : System.Course id limit first issued last) : last.impl.state.Budgeted id limit issued := by
  induction course with
  | start => exact ⟨Nat.zero_le _, fun _ _ => Nat.zero_le _, fun _ _ _ => .inl rfl⟩
  | step _ environment op within unqueued spares ih => exact ih.step spares environment op within unqueued
  | restart _ _ opened warrants ih => exact .restart ih.within opened warrants

/-- Along a run between two submissions that queue a compilation, restarts and all, whose
steps meet the condition, no more attempts are issued for it than its budget. -/
theorem retry_budget {id : CompilationId} {limit issued : Nat} {first last : System}
    (course : System.Course id limit first issued last) : issued ≤ limit := course.budgeted.within

end

-- ---------------------------------------------------------------------------
-- Concrete runs
-- ---------------------------------------------------------------------------

/-- A unit waits, and a worker is ready for it. -/
def waitingUnit : System where
  impl := {
    config := { enablePersistence := false }
    opened := true
    state := {
      requests := (∅ : Table Digest256 CompilationRequest).insert default {
        units := [{}], policy := { requireProvableToolchain := false } }
      compilations := (∅ : Table CompilationId CompilationRecord).insert ⟨1⟩ { id := ⟨1⟩ }
      sessions := (∅ : Table SessionId SessionRecord).insert ⟨1⟩ {
        id := ⟨1⟩, isWorker := true, worker := ⟨1⟩, boot := ⟨1⟩, isOpen := true, maxInflight := 1 }
      workers := (∅ : Table WorkerId WorkerRecord).insert ⟨1⟩ {
        id := ⟨1⟩, boot := ⟨1⟩, session := ⟨1⟩, ready := true, health := .healthy
        capabilities := { evidence := .real, toolchains := [{}], targets := [{}] } } } }

set_option maxRecDepth 100000 in
theorem waitingUnit_issues : (System.step {} .pump waitingUnit).impl.state.attemptsOf ⟨1⟩ = 1 := by decide +kernel

theorem waitingUnit_spares : waitingUnit.impl.Spares ⟨1⟩ 3 0 := by
  have hfound : waitingUnit.impl.state.compilations[(⟨1⟩ : CompilationId)]? = some { id := ⟨1⟩ } := by decide +kernel
  refine ⟨fun record found => ?_, fun record found => ?_, fun record found _ => ?_⟩
  · obtain rfl := Option.some.inj (hfound.symm.trans found)
    decide +kernel
  · obtain rfl := Option.some.inj (hfound.symm.trans found)
    decide +kernel
  · obtain rfl := Option.some.inj (hfound.symm.trans found)
    decide +kernel

theorem retry_budget_waiting : 0 + ((System.step {} .pump waitingUnit).impl.state.attemptsOf ⟨1⟩ -
    waitingUnit.impl.state.attemptsOf ⟨1⟩) ≤ 3 :=
  retry_budget (.step .start {} .pump (fun _ => nofun) (fun _ => nofun) waitingUnit_spares)

/-- A unit that may have one attempt, with duplicates allowed. -/
def duplicateBundle : SubmissionBundle :=
  { smallBundle with request := { smallBundle.request with
      policy := { requireProvableToolchain := false, maxAttemptsPerUnit := 1, allowSpeculativeDuplication := true } } }

/-- One submission, two workers. -/
def duplicateRun : List Op :=
  [.submit duplicateBundle, .registerWorker smallWorker,
    .registerWorker { smallWorker with workerId := ⟨2⟩, bootId := ⟨2⟩ }, .markReady ⟨1⟩, .markReady ⟨2⟩, .pump]

/-- Some compilation has had more attempts than it may have. -/
def System.overruns (sys : System) : Bool :=
  sys.impl.state.compilations.keys.any fun id =>
    match sys.impl.state.compilations[id]? with
    | none => false
    | some record => decide ((maxAttempts sys.impl.config (sys.impl.state.requests[record.requestIdentity]?)).toNat <
        record.attempts.length)

def duplicateIssued : System := System.perform duplicateRun volatileFirst

set_option maxRecDepth 100000 in
theorem duplicateIssued_overruns : duplicateIssued.overruns = true := by
  rw [duplicateIssued, volatileFirst, duplicateRun, duplicateBundle, smallBundle, hashFunction_eq]
  decide +kernel

theorem runs_duplicateIssued : Runs volatileFirst (System.stepsOf duplicateRun volatileFirst) duplicateIssued :=
  Runs.perform duplicateRun volatileFirst rfl

theorem System.map_op_stepsOf (ops : List Op) (sys : System) : (System.stepsOf ops sys).map (·.op) = ops := by
  induction ops generalizing sys with
  | nil => rfl
  | cons op ops ih =>
    show op :: (System.stepsOf ops _).map (·.op) = op :: ops
    rw [ih]

/-- One submission and one call of `pump`: the unit may have one attempt and gets two. -/
theorem not_retry_budget : ∃ (steps : List Step) (sys : System), Runs volatileFirst steps sys ∧
    steps.map (·.op) = duplicateRun ∧ ∃ (id : CompilationId) (record : CompilationRecord),
      sys.impl.state.compilations[id]? = some record ∧
      (maxAttempts sys.impl.config (sys.impl.state.requests[record.requestIdentity]?)).toNat <
        record.attempts.length := by
  refine ⟨_, _, runs_duplicateIssued, System.map_op_stepsOf _ _, ?_⟩
  have hoverruns := duplicateIssued_overruns
  unfold System.overruns at hoverruns
  obtain ⟨id, -, hid⟩ := List.any_eq_true.mp hoverruns
  split at hid
  · cases hid
  next record found => exact ⟨id, record, found, of_decide_eq_true hid⟩

end DistributedCompilation
