import DistributedCompilation.Safety.Claims
import DistributedCompilation.Safety.Reports

/-!
# Distributed Compilation — restart fencing

After an open nobody holds authority, and nobody gets any from what came from
disk: recovered attempts stay over, and a recovered worker receives leases only
after it has registered again and been marked ready.
-/

namespace DistributedCompilation

open Program (Keeps)

section

variable [HashFunction]

-- ---------------------------------------------------------------------------
-- Right after the open
-- ---------------------------------------------------------------------------

omit [HashFunction] in
/-- The states a compilation may be in after an open. -/
theorem CompilationState.of_survives {state : CompilationState}
    (h : state = .pending ∨ state.survivesRestart = true) :
    state = .committed ∨ state = .cancelled ∨ state = .failed ∨ state = .retired ∨ state = .pending := by
  rcases h with rfl | h
  · simp
  · revert h
    cases state <;> decide

omit [HashFunction] in
/-- A worker that has left its seat is eligible for nothing. -/
theorem WorkerRecord.Unseated.not_eligible {worker : WorkerRecord} (h : worker.Unseated)
    (booted : worker.boot.isZero = false) (requirements : HardRequirements) :
    eligible worker requirements = false := by
  by_contra heligible
  obtain ⟨hready, -⟩ := able_of_eligible (by simpa using heligible)
  rw [(h booted).2] at hready
  cases hready

/-- Leases, sessions, attempts, workers and compilations are idle. -/
structure State.Idle (s : State) : Prop where
  leases : ∀ (id : LeaseId) (lease : CompileLease), s.leases[id]? = some lease → lease.revoked = true
  sessions : ∀ id : SessionId, s.sessions[id]? = none
  attempts : ∀ (id : CompilationAttemptId) (attempt : CompilationAttempt),
    s.attempts[id]? = some attempt → holdsCommitAuthority attempt.state = false
  workers : ∀ (id : WorkerId) (worker : WorkerRecord) (requirements : HardRequirements),
    s.workers[id]? = some worker → eligible worker requirements = false
  compilations : ∀ (id : CompilationId) (record : CompilationRecord), s.compilations[id]? = some record →
    record.state = .committed ∨ record.state = .cancelled ∨ record.state = .failed ∨
      record.state = .retired ∨ record.state = .pending

theorem Impl.Opening.idle {config : CoordinatorConfig} {store : Store} {i : Impl}
    (h : i.Opening config store) : i.state.Idle := by
  obtain ⟨recovered, hbooted, hreopens, -⟩ := h.recovered
  refine ⟨h.fenced.leases, hreopens.sessions, h.fenced.attempts, fun id worker requirements hworker => ?_,
    fun id record hrecord => CompilationState.of_survives (h.fenced.compilations id record hrecord)⟩
  have hsame := hreopens.workers id
  rw [hworker, Option.map_some] at hsame
  obtain ⟨old, hold, hfields⟩ := Option.map_eq_some_iff.mp hsame.symm
  have hboot : worker.boot = old.boot := (congrArg Prod.snd hfields).symm
  exact WorkerRecord.Unseated.not_eligible (h.fenced.workers id worker hworker)
    (hboot ▸ hbooted.boot id old hold) requirements

-- ---------------------------------------------------------------------------
-- Recovered attempts
-- ---------------------------------------------------------------------------

omit [HashFunction] in
/-- The number of the attempt has been drawn in this lifetime. -/
def State.Drew (s : State) (base : Nat) (id : CompilationAttemptId) : Prop :=
  base ≤ id.value ∧ id.value < s.header.nextAttemptId

/-- An attempt whose number was not drawn in this lifetime is one of the recovered
ones, as far as it came from there. -/
def State.Retains (base : Nat) (recovered : Table CompilationAttemptId CompilationAttempt) (s : State) : Prop :=
  ∀ (id : CompilationAttemptId) (attempt : CompilationAttempt), s.attempts[id]? = some attempt →
    s.Drew base id ∨ ∃ old : CompilationAttempt, recovered[id]? = some old ∧ old.Continues attempt

theorem State.Drew.mono {s s' : State} {base : Nat} {id : CompilationAttemptId} (h : s.Drew base id)
    (ages : s.header.Ages s'.header) : s'.Drew base id :=
  ⟨h.1, Nat.lt_of_lt_of_le h.2 ages.attempts⟩

instance State.Drew.lasting (base : Nat) (id : CompilationAttemptId) :
    Lasting fun i => i.state.Drew base id where
  quiet hi hstate _ := hstate ▸ hi
  touch hi h := State.Drew.mono hi (.of_touch h)
  change hi h := State.Drew.mono hi (.of_change h)
  admission hi h := State.Drew.mono hi (.of_admission h)

namespace State.Retains

variable {base : Nat} {recovered : Table CompilationAttemptId CompilationAttempt} {s s' : State}

theorem of_touch (h : s.Retains base recovered) (touch : Touch s s') : s'.Retains base recovered := by
  intro id next hnext
  obtain ⟨attempt, hattempt, hcontinues⟩ := touch.attempt_of hnext
  rcases h id attempt hattempt with hdrew | ⟨old, hold, hretained⟩
  · exact .inl (hdrew.mono (.of_touch touch))
  · exact .inr ⟨old, hold, hretained.trans hcontinues⟩

theorem of_change (h : s.Retains base recovered) (counted : base ≤ s.header.nextAttemptId)
    (change : Change s s') : s'.Retains base recovered := by
  intro id next hnext
  rcases change.attempt_of hnext with ⟨hbefore, -⟩ | ⟨hid, hnumbered, -⟩
  · exact (h id next hbefore).imp_left fun hdrew => hdrew.mono (.of_change change)
  · exact .inl ⟨hid ▸ counted, hnumbered⟩

theorem of_admission (h : s.Retains base recovered) (admission : Admission s s') :
    s'.Retains base recovered := by
  intro id next hnext
  rw [admission.attempts] at hnext
  exact (h id next hnext).imp_left fun hdrew => hdrew.mono (.of_admission admission)

instance lasting (base : Nat) (recovered : Table CompilationAttemptId CompilationAttempt) :
    Lasting fun i => base ≤ i.state.header.nextAttemptId ∧ i.state.Retains base recovered where
  quiet hi hstate _ := hstate ▸ hi
  touch hi h := ⟨hi.1.trans (StateHeader.Ages.of_touch h).attempts, State.Retains.of_touch hi.2 h⟩
  change hi h := ⟨hi.1.trans (StateHeader.Ages.of_change h).attempts, State.Retains.of_change hi.2 hi.1 h⟩
  admission hi h := ⟨hi.1.trans (StateHeader.Ages.of_admission h).attempts, State.Retains.of_admission hi.2 h⟩

end State.Retains

/-- A report that passes phase one is about an attempt of this lifetime. -/
theorem State.Retains.drew {base : Nat} {recovered : Table CompilationAttemptId CompilationAttempt}
    {s last : State} (h : s.Retains base recovered)
    (idle : ∀ (id : CompilationAttemptId) (attempt : CompilationAttempt),
      recovered[id]? = some attempt → holdsCommitAuthority attempt.state = false)
    {session : SessionId} {output : ReportOutput} {r : Reservation}
    (reserved : Reserved s session output r last) : s.Drew base r.output.claim.attempt := by
  obtain ⟨attempt, -, hattempt, -, -, hworking, -⟩ := reserved.granted
  rw [reserved.output.1]
  rcases h _ attempt hattempt with hdrew | ⟨old, hold, hcontinues⟩
  · exact hdrew
  · -- a recovered attempt is over, this one is at work
    obtain ⟨hdormant, -⟩ := hcontinues.dormant (idle _ old hold)
    rcases hworking with hstate | hstate
    · rw [hstate] at hdormant
      cases hdormant
    · rw [hstate] at hdormant
      cases hdormant

-- ---------------------------------------------------------------------------
-- Seats
-- ---------------------------------------------------------------------------

/-- Whoever is not fenced is one of `registered`, and whoever is ready besides one of
`ready`. -/
structure State.Seats (registered ready : WorkerId → Prop) (s : State) : Prop where
  unfenced : ∀ (id : WorkerId) (worker : WorkerRecord), s.workers[id]? = some worker →
    worker.fenced = false → registered id
  ready : ∀ (id : WorkerId) (worker : WorkerRecord), s.workers[id]? = some worker →
    worker.fenced = false → worker.ready = true → ready id

/-- Every lease is a recovered one or went to one of `ready`. -/
def State.Leased (recovered : Table LeaseId CompileLease) (ready : WorkerId → Prop) (s : State) : Prop :=
  ∀ (id : LeaseId) (lease : CompileLease), s.leases[id]? = some lease →
    ready lease.worker ∨ ∃ old : CompileLease, recovered[id]? = some old ∧ lease.frozen = old.frozen

namespace State.Seats

variable {registered ready : WorkerId → Prop} {s s' : State}

omit [HashFunction] in
/-- Entries that stay seated no longer than they were. -/
theorem mono (h : s.Seats registered ready)
    (workers : ∀ (id : WorkerId) (next : WorkerRecord), s'.workers[id]? = some next →
      ∃ worker : WorkerRecord, s.workers[id]? = some worker ∧
        (next.fenced = false → worker.fenced = false) ∧ (next.ready = true → worker.ready = true)) :
    s'.Seats registered ready where
  unfenced id next hnext hfenced := by
    obtain ⟨worker, hworker, hseat, -⟩ := workers id next hnext
    exact h.unfenced id worker hworker (hseat hfenced)
  ready id next hnext hfenced hready := by
    obtain ⟨worker, hworker, hseat, hgrant⟩ := workers id next hnext
    exact h.ready id worker hworker (hseat hfenced) (hgrant hready)

omit [HashFunction] in
theorem of_workers (h : s.Seats registered ready) (workers : s'.workers = s.workers) :
    s'.Seats registered ready :=
  ⟨workers ▸ h.unfenced, workers ▸ h.ready⟩

theorem of_touch (h : s.Seats registered ready) (touch : Touch s s') : s'.Seats registered ready := by
  cases touch with
  | note note => exact h.of_workers note.workers
  | worker id yields =>
    refine h.mono fun key next hnext => ?_
    obtain ⟨worker, hworker, rfl | ⟨rfl, rfl⟩⟩ := Table.of_get_modify hnext
    · exact ⟨next, hworker, fun h => h, fun h => h⟩
    · refine ⟨worker, hworker, fun hnext => ?_, (yields worker hworker).ready⟩
      by_contra hfenced
      rw [(yields worker hworker).fenced (by simpa using hfenced)] at hnext
      cases hnext
  | record | attempt | lease | revoke | session => exact h.of_workers rfl

theorem of_change (h : s.Seats registered ready) (change : Change s s') : s'.Seats registered ready := by
  cases change with
  | resolve aside => exact h.of_workers aside.workers
  | @supersede id =>
    refine h.of_workers ?_
    unfold State.supersede
    simp only
    split <;> rfl
  | assign =>
    -- a lease is noted down at its worker
    refine h.mono fun key next hnext => ?_
    obtain ⟨worker, hworker, rfl | ⟨rfl, rfl⟩⟩ := Table.of_get_modify hnext
    · exact ⟨next, hworker, fun h => h, fun h => h⟩
    · exact ⟨worker, hworker, fun h => h, fun h => h⟩
  | create | withdraw | lower | publish => exact h.of_workers rfl

end State.Seats

namespace State.Leased

variable {recovered : Table LeaseId CompileLease} {ready : WorkerId → Prop} {s s' : State}

omit [HashFunction] in
/-- Entries that keep their binding. -/
theorem mono (h : s.Leased recovered ready)
    (leases : ∀ (id : LeaseId) (next : CompileLease), s'.leases[id]? = some next →
      ∃ lease : CompileLease, s.leases[id]? = some lease ∧ next.frozen = lease.frozen) :
    s'.Leased recovered ready := by
  intro id next hnext
  obtain ⟨lease, hlease, hfrozen⟩ := leases id next hnext
  have hworker : next.worker = lease.worker := (congrArg CompileLease.worker hfrozen :)
  rw [hworker, hfrozen]
  exact h id lease hlease

omit [HashFunction] in
theorem of_leases (h : s.Leased recovered ready) (leases : s'.leases = s.leases) :
    s'.Leased recovered ready :=
  h.mono fun _ lease hlease => ⟨lease, leases ▸ hlease, rfl⟩

theorem of_touch (h : s.Leased recovered ready) (touch : Touch s s') : s'.Leased recovered ready := by
  cases touch with
  | note note => exact h.of_leases note.leases
  | lease id expires =>
    refine h.mono fun key next hnext => ?_
    obtain ⟨lease, hlease, rfl | ⟨rfl, rfl⟩⟩ := Table.of_get_modify hnext
    · exact ⟨next, hlease, rfl⟩
    · exact ⟨lease, hlease, (expires lease hlease).frozen⟩
  | revoke worker reason =>
    refine h.mono fun key next hnext => ?_
    change ((s.revokeLeasesFor worker reason).leases[key]?) = some next at hnext
    rw [State.revokeLeasesFor, Table.get_map, Option.map_eq_some_iff] at hnext
    obtain ⟨lease, hlease, rfl⟩ := hnext
    refine ⟨lease, hlease, ?_⟩
    split <;> rfl
  | record | attempt | worker | session => exact h.of_leases rfl

/-- A new lease goes to a worker that is able. -/
theorem of_change (h : s.Leased recovered ready) (keyed : s.Keyed) {registered seated : WorkerId → Prop}
    (seats : s.Seats registered seated) (granted : ∀ id, seated id → ready id) (change : Change s s') :
    s'.Leased recovered ready := by
  cases change with
  | resolve aside => exact h.of_leases aside.leases
  | @supersede id =>
    refine h.of_leases ?_
    unfold State.supersede
    simp only
    split <;> rfl
  | @assign id compilation worker speculative createdAt issuedAt updatedAt found able =>
    intro key lease hlease
    change ((s.leases.insert _ ((s.attemptFor worker compilation speculative createdAt).leaseOf
      issuedAt))[key]?) = some lease at hlease
    rw [Table.get_insert] at hlease
    split at hlease
    next =>
      obtain rfl := Option.some.inj hlease
      obtain ⟨seat, entry, hentry, hid, hready, hfenced⟩ := able
      have hworker := seats.ready seat entry hentry hfenced hready
      rw [← keyed.worker seat entry hentry, hid] at hworker
      exact .inl (granted _ hworker)
    next => exact h key lease hlease
  | create | withdraw | lower | publish => exact h.of_leases rfl

end State.Leased

/-- Who may hold a seat, and to whom leases went. -/
structure State.Admits (recovered : Table LeaseId CompileLease) (registered seated ready : WorkerId → Prop)
    (s : State) : Prop where
  keyed : s.Keyed
  seats : s.Seats registered seated
  leased : s.Leased recovered ready

instance State.Admits.tracked (recovered : Table LeaseId CompileLease) (registered ready : WorkerId → Prop) :
    Tracked fun i => i.state.Admits recovered registered ready ready where
  quiet hi hstate _ := hstate ▸ hi
  touch hi h := ⟨hi.keyed.of_touch h, hi.seats.of_touch h, hi.leased.of_touch h⟩
  change hi h := ⟨hi.keyed.of_change h, hi.seats.of_change h,
    hi.leased.of_change hi.keyed hi.seats (fun _ h => h) h⟩

omit [HashFunction] in
theorem State.Admits.noted (recovered : Table LeaseId CompileLease) (registered seated ready : WorkerId → Prop) :
    Noted fun i => i.state.Admits recovered registered seated ready where
  quiet hi hstate _ := hstate ▸ hi
  note hi h := ⟨hi.keyed.of_tables h.workers h.compilations, hi.seats.of_workers h.workers,
    hi.leased.of_leases h.leases⟩

namespace State.Admits

variable {recovered : Table LeaseId CompileLease} {registered seated ready : WorkerId → Prop} {s : State}

omit [HashFunction] in
theorem mono {registered' seated' ready' : WorkerId → Prop} (h : s.Admits recovered registered seated ready)
    (grown : ∀ id, registered id → registered' id) (grownSeats : ∀ id, seated id → seated' id)
    (grownReady : ∀ id, ready id → ready' id) : s.Admits recovered registered' seated' ready' where
  keyed := h.keyed
  seats := ⟨fun id worker hworker hfenced => grown id (h.seats.unfenced id worker hworker hfenced),
    fun id worker hworker hfenced hready => grownSeats id (h.seats.ready id worker hworker hfenced hready)⟩
  leased id lease hlease := (h.leased id lease hlease).imp_left (grownReady lease.worker)

/-- A registration seats its own worker. -/
theorem enroll (h : s.Admits recovered registered seated ready) {worker : WorkerRecord}
    {session : SessionRecord} (waiting : worker.ready = false)
    (admission : Admission s (s.enroll worker session)) :
    (s.enroll worker session).Admits recovered (fun id => registered id ∨ id = worker.id) seated ready where
  keyed := h.keyed.of_admission admission
  leased := h.leased
  seats := by
    constructor
    case unfenced =>
      intro id next hnext hfenced
      change ((s.workers.insert worker.id worker)[id]?) = some next at hnext
      rw [Table.get_insert] at hnext
      split at hnext
      next hkey => exact .inr hkey.symm
      next => exact .inl (h.seats.unfenced id next hnext hfenced)
    case ready =>
      intro id next hnext hfenced hready
      change ((s.workers.insert worker.id worker)[id]?) = some next at hnext
      rw [Table.get_insert] at hnext
      split at hnext
      next =>
        obtain rfl := Option.some.inj hnext
        rw [waiting] at hready
        cases hready
      next => exact h.seats.ready id next hnext hfenced hready

/-- A worker made ready may still be fenced. -/
theorem markReady (h : s.Admits recovered registered seated ready) {key : WorkerId} {lastSeen : UnixMillis}
    (granted : registered key → seated key) :
    (s.withWorker key fun worker =>
      { worker with ready := true, health := .healthy, lastSeen }).Admits recovered registered seated ready where
  keyed := h.keyed.withWorker key fun _ _ => rfl
  leased := h.leased
  seats := by
    constructor
    case unfenced =>
      intro id next hnext hfenced
      obtain ⟨worker, hworker, rfl | ⟨rfl, rfl⟩⟩ := Table.of_get_modify hnext
      · exact h.seats.unfenced id next hworker hfenced
      · exact h.seats.unfenced _ worker hworker hfenced
    case ready =>
      intro id next hnext hfenced hready
      obtain ⟨worker, hworker, rfl | ⟨rfl, rfl⟩⟩ := Table.of_get_modify hnext
      · exact h.seats.ready id next hworker hfenced hready
      · exact granted (h.seats.unfenced _ worker hworker hfenced)

end State.Admits

-- ---------------------------------------------------------------------------
-- Who registered and was made ready
-- ---------------------------------------------------------------------------

def Step.after (step : Step) : System := System.step step.environment step.op step.before

/-- The worker registers, and has its seat. -/
def Step.registers (step : Step) (id : WorkerId) : Prop :=
  ∃ (registration : WorkerRegistration) (worker : WorkerRecord),
    step.op = .registerWorker registration ∧ registration.workerId = id ∧
    step.after.impl.state.workers[id]? = some worker ∧ worker.fenced = false

/-- A session of the worker is marked ready, and the worker is. -/
def Step.readies (step : Step) (id : WorkerId) : Prop :=
  ∃ (session : SessionId) (record : SessionRecord) (worker : WorkerRecord),
    step.op = .markReady session ∧ step.before.impl.state.sessions[session]? = some record ∧
    record.worker = id ∧ step.after.impl.state.workers[id]? = some worker ∧
    worker.fenced = false ∧ worker.ready = true

def Rejoined (steps : List Step) (id : WorkerId) : Prop := ∃ step ∈ steps, step.registers id

/-- The worker has registered and was marked ready after that. -/
def Readied (steps : List Step) (id : WorkerId) : Prop :=
  ∃ (earlier : List Step) (mark : Step) (later : List Step),
    steps = earlier ++ mark :: later ∧ Rejoined earlier id ∧ mark.readies id

theorem Rejoined.append {steps : List Step} {id : WorkerId} (h : Rejoined steps id) (step : Step) :
    Rejoined (steps ++ [step]) id := by
  obtain ⟨registration, hmem, hregisters⟩ := h
  exact ⟨registration, List.mem_append_left _ hmem, hregisters⟩

theorem Readied.append {steps : List Step} {id : WorkerId} (h : Readied steps id) (step : Step) :
    Readied (steps ++ [step]) id := by
  obtain ⟨earlier, mark, later, rfl, hregistered, hreadies⟩ := h
  exact ⟨earlier, mark, later ++ [step], by simp, hregistered, hreadies⟩

/-- Seats are taken by registering, and leases go to who was marked ready after it. -/
theorem Runs.admits {first last : System} {steps : List Step} (run : Runs first steps last)
    (keyed : first.impl.state.Keyed)
    (fenced : ∀ (id : WorkerId) (worker : WorkerRecord), first.impl.state.workers[id]? = some worker →
      worker.fenced = true) :
    last.impl.state.Admits first.impl.state.leases (Rejoined steps) (Readied steps) (Readied steps) := by
  induction run with
  | start =>
    refine ⟨keyed, ⟨fun id worker hworker hfenced => ?_, fun id worker hworker hfenced _ => ?_⟩,
      fun _ lease hlease => .inr ⟨lease, hlease, rfl⟩⟩
    · rw [fenced id worker hworker] at hfenced
      cases hfenced
    · rw [fenced id worker hworker] at hfenced
      cases hfenced
  | @step steps sys run environment op within ih =>
    have before := ih.mono (fun _ h => Rejoined.append h ⟨environment, op, sys⟩)
      (fun _ h => Readied.append h ⟨environment, op, sys⟩) fun _ h => Readied.append h ⟨environment, op, sys⟩
    have rest (enrolls : ∀ registration, op ≠ .registerWorker registration)
        (grants : ∀ session, op ≠ .markReady session) :=
      Tracked.step (I := fun i => i.state.Admits first.impl.state.leases
        (Rejoined (steps ++ [Step.mk environment op sys])) (Readied (steps ++ [Step.mk environment op sys]))
        (Readied (steps ++ [Step.mk environment op sys]))) before environment op within
        (fun registration h => absurd h (enrolls registration)) fun session h => absurd h (grants session)
    cases op with
    | registerWorker registration =>
      have := State.Admits.noted first.impl.state.leases
        (fun id => Rejoined steps id ∨ id = registration.workerId) (Readied steps) (Readied steps)
      have hkeeps := Noted.registerWorker (I := fun i => i.state.Admits first.impl.state.leases
          (fun id => Rejoined steps id ∨ id = registration.workerId) (Readied steps) (Readied steps))
        registration (fun {i worker session} hi hid waiting admission => by
          refine (hi.enroll waiting admission).mono (fun id hseat => ?_) (fun _ h => h) fun _ h => h
          rcases hseat with hseat | rfl
          · exact hseat
          · -- the entry is the one under the id that registers
            rw [hid]
            cases hworker : i.state.workers[registration.workerId]? with
            | none => exact .inr rfl
            | some old => exact .inr (hi.keyed.worker _ old hworker))
        (System.given environment sys.impl) (ih.mono (fun _ h => .inl h) (fun _ h => h) fun _ h => h)
      have hafter : (System.step environment (.registerWorker registration) sys).impl.state.Admits
        first.impl.state.leases (fun id => Rejoined steps id ∨ id = registration.workerId)
        (Readied steps) (Readied steps) := hkeeps
      refine ⟨hafter.keyed, ⟨fun id worker hworker hfenced => ?_, fun id worker hworker hfenced hready =>
        (hafter.seats.ready id worker hworker hfenced hready).append _⟩,
        fun id lease hlease => (hafter.leased id lease hlease).imp_left fun h => h.append _⟩
      rcases hafter.seats.unfenced id worker hworker hfenced with hregistered | rfl
      · exact hregistered.append _
      · exact ⟨_, List.mem_append_right _ (List.mem_singleton_self _), registration, worker, rfl, rfl, hworker,
          hfenced⟩
    | markReady session =>
      let marked (id : WorkerId) : Prop := Readied steps id ∨ Rejoined steps id ∧
        ∃ record : SessionRecord, sys.impl.state.sessions[session]? = some record ∧ record.worker = id
      have := State.Admits.noted first.impl.state.leases (Rejoined steps) marked (Readied steps)
      have : Noted fun i : Impl => i.state.sessions[session]? = sys.impl.state.sessions[session]? :=
        { quiet := fun hi hstate _ => hstate ▸ hi, note := fun hi note => by rw [note.sessions]; exact hi }
      have := @Noted.and (fun i : Impl => i.state.sessions[session]? = sys.impl.state.sessions[session]?)
        (fun i => i.state.Admits first.impl.state.leases (Rejoined steps) marked (Readied steps)) _ _
      have hkeeps := Noted.markReady (I := fun i : Impl =>
          i.state.sessions[session]? = sys.impl.state.sessions[session]? ∧
            i.state.Admits first.impl.state.leases (Rejoined steps) marked (Readied steps))
        session (fun hi hfound _ => ⟨hi.1, hi.2.markReady fun hregistered =>
          .inr ⟨hregistered, _, hi.1.symm.trans hfound, rfl⟩⟩)
        (System.given environment sys.impl) ⟨rfl, ih.mono (fun _ h => h) (fun _ h => .inl h) fun _ h => h⟩
      have hafter : (System.step environment (.markReady session) sys).impl.state.Admits
        first.impl.state.leases (Rejoined steps) marked (Readied steps) := hkeeps.2
      refine ⟨hafter.keyed, ⟨fun id worker hworker hfenced =>
        (hafter.seats.unfenced id worker hworker hfenced).append _, fun id worker hworker hfenced hready => ?_⟩,
        fun id lease hlease => (hafter.leased id lease hlease).imp_left fun h => h.append _⟩
      rcases hafter.seats.ready id worker hworker hfenced hready with hbefore | ⟨hregistered, record, hfound, hid⟩
      · exact hbefore.append _
      · exact ⟨steps, _, [], rfl, hregistered, session, record, worker, rfl, hfound, hid, hworker, hfenced, hready⟩
    | _ => exact rest (fun _ h => nomatch h) fun _ h => nomatch h

-- ---------------------------------------------------------------------------
-- A lifetime after a restart
-- ---------------------------------------------------------------------------

/-- A closed coordinator, fresh or not, with no report in flight, after an open that
succeeded. -/
def System.Opens (config : CoordinatorConfig) (closed first : System) : Prop :=
  closed.impl.opened = false ∧ closed.inFlight = [] ∧ ∃ environment : Environment,
    first = System.step environment (.openWith config) closed ∧
      ((openCoordinator config).run (System.given environment closed.impl)).1 = .ok ()

theorem System.Opens.opening {config : CoordinatorConfig} {closed first : System}
    (h : closed.Opens config first) : first.impl.Opening config closed.impl.store := by
  obtain ⟨hclosed, -, environment, rfl, hok⟩ := h
  exact wp_openCoordinator (i := System.given environment closed.impl) config hclosed hok

theorem System.Opens.quiet {config : CoordinatorConfig} {closed first : System}
    (h : closed.Opens config first) : first.inFlight = [] := by
  obtain ⟨-, hquiet, environment, rfl, -⟩ := h
  exact hquiet

theorem Impl.Opening.fences {config : CoordinatorConfig} {store : Store} {i : Impl}
    (h : i.Opening config store) : i.state.Keyed ∧ ∀ (id : WorkerId) (worker : WorkerRecord),
      i.state.workers[id]? = some worker → worker.fenced = true := by
  obtain ⟨recovered, hbooted, hreopens, -⟩ := h.recovered
  refine ⟨hreopens.keyed hbooted.toKeyed, fun id worker hworker => ?_⟩
  have hsame := hreopens.workers id
  rw [hworker, Option.map_some] at hsame
  obtain ⟨old, hold, hfields⟩ := Option.map_eq_some_iff.mp hsame.symm
  have hboot : worker.boot = old.boot := (congrArg Prod.snd hfields).symm
  exact (h.fenced.workers id worker hworker (hboot ▸ hbooted.boot id old hold)).1

end

theorem volatileFirst_opens_closed : System.Opens { enablePersistence := false } { impl := { store := {} } }
    volatileFirst :=
  ⟨rfl, rfl, {}, rfl, eq_ok_of_isOk (by decide +kernel)⟩

end DistributedCompilation
