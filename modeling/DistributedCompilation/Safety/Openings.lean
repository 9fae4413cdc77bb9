import DistributedCompilation.Safety.Held
import DistributedCompilation.Safety.Lifetime

/-!
# Distributed Compilation — opens that fail

`open` marks the coordinator as opened when it installs the recovered state, and
only then writes the header record and the snapshot that make the new epoch
durable. An open that fails before the state is installed leaves nothing behind;
one that fails after it leaves an open coordinator in an epoch that is nowhere on
disk (`open_all_or_nothing_iff`).
-/

namespace DistributedCompilation

open Program (Keeps)

section

variable [HashFunction]

-- ---------------------------------------------------------------------------
-- The two halves of an open
-- ---------------------------------------------------------------------------

/-- The store opens, and its snapshot and journal describe `recovered`. -/
def Impl.Installs (config : CoordinatorConfig) (i : Impl) (recovered : State) : Prop :=
  if config.enablePersistence then
    i.io.headD true = true ∧ journalBytes i.store.journal ≤ kMaxJournalBytes ∧
      i.store.journal.length ≤ maxReplayRecords ∧ i.store.recover = .ok recovered
  else recovered = {}

/-- The object with the recovered state installed. -/
def Impl.installed (config : CoordinatorConfig) (i : Impl) (recovered : State) : Impl :=
  if config.enablePersistence then
    { i with config, state := recovered, opened := true, io := i.io.tail
             store := { i.store with isOpen := true } }
  else { i with config, state := recovered, opened := true }

/-- What `open` does behind the recovery. -/
def reopen (config : CoordinatorConfig) : M Unit := do
  restartState
  if config.enablePersistence then
    let s ← getState
    orReturn (persist (.header s.header.epoch s.header.restarts s.header.openedAt))
    orReturn takeSnapshot

omit [HashFunction] in
/-- A readable journal within its limits is opened. -/
theorem wp_openStore_ok {i : Impl} (hio : i.io.headD true = true)
    (hbytes : journalBytes i.store.journal ≤ kMaxJournalBytes)
    (hlength : i.store.journal.length ≤ maxReplayRecords) {Q : Except Fault Unit → Impl → Prop} :
    Program.wp openStore Q i ↔
      Q (.ok ()) { i with io := i.io.tail, store := { i.store with isOpen := true } } := by
  unfold openStore ioSucceeds
  simp only [Program.wp_bind, Program.wp_read, Program.wp_update, Program.wp_pure, hio, not_true_eq_false,
    if_false, if_neg (Nat.not_lt.mpr hbytes), if_neg (Nat.not_lt.mpr hlength), onStore]

omit [HashFunction] in
/-- Any other journal is refused. -/
theorem wp_openStore_error {i : Impl} (h : ¬(i.io.headD true = true ∧
    journalBytes i.store.journal ≤ kMaxJournalBytes ∧ i.store.journal.length ≤ maxReplayRecords)) :
    Program.wp openStore (fun r j => ∃ fault, r = .error fault ∧ j = { i with io := i.io.tail }) i := by
  unfold openStore ioSucceeds
  simp only [Program.wp_bind, Program.wp_read, Program.wp_update, Program.wp_pure]
  by_cases hio : i.io.headD true = true
  · simp only [hio, not_true_eq_false, if_false, true_and] at h ⊢
    by_cases hbytes : journalBytes i.store.journal ≤ kMaxJournalBytes
    · rw [if_neg (Nat.not_lt.mpr hbytes), if_pos (Nat.lt_of_not_le fun hlength => h ⟨hbytes, hlength⟩)]
      exact ⟨_, rfl, rfl⟩
    · rw [if_pos (Nat.lt_of_not_le hbytes)]
      exact ⟨_, rfl, rfl⟩
  · rw [if_pos hio]
    exact ⟨_, rfl, rfl⟩

theorem wp_openCoordinator_of_installs {config : CoordinatorConfig} {i : Impl} {recovered : State}
    (closed : i.opened = false) (h : i.Installs config recovered)
    {Q : Except Fault Unit → Impl → Prop} :
    Program.wp (openCoordinator config) Q i ↔
      Program.wp (reopen config) Q (i.installed config recovered) := by
  unfold openCoordinator
  rw [Program.wp_read_bind, if_neg (by rw [closed]; decide), Program.wp_update_bind]
  unfold Impl.Installs at h
  unfold Impl.installed reopen
  by_cases hpersists : config.enablePersistence = true
  · simp only [if_pos hpersists] at h ⊢
    obtain ⟨hio, hbytes, hlength, hrecover⟩ := h
    have hrecover' : ({ i.store with isOpen := true } : Store).recover = .ok recovered := hrecover
    rw [Program.wp_bind]
    refine (wp_openStore_ok (i := { i with config }) hio hbytes hlength).trans ?_
    simp only [Program.wp_read_bind, hrecover']
    exact Iff.rfl
  · simp only [if_neg hpersists] at h ⊢
    subst h
    exact Iff.rfl

/-- An open that fails before it installs a state leaves a closed object over the
same store. -/
theorem wp_openCoordinator_of_not_installs {config : CoordinatorConfig} {i : Impl}
    (closed : i.opened = false) (h : ∀ recovered, ¬i.Installs config recovered) :
    Program.wp (openCoordinator config) (fun r j => (∃ fault, r = .error fault) ∧ j.opened = false ∧
      j.store.recover = i.store.recover) i := by
  unfold openCoordinator
  rw [Program.wp_read_bind, if_neg (by rw [closed]; decide), Program.wp_update_bind]
  unfold Impl.Installs at h
  by_cases hpersists : config.enablePersistence = true
  · simp only [if_pos hpersists] at h ⊢
    by_cases hopens : i.io.headD true = true ∧ journalBytes i.store.journal ≤ kMaxJournalBytes ∧
        i.store.journal.length ≤ maxReplayRecords
    · obtain ⟨hio, hbytes, hlength⟩ := hopens
      rw [Program.wp_bind]
      refine (wp_openStore_ok (i := { i with config }) hio hbytes hlength).mpr ?_
      simp only [Program.wp_read_bind]
      cases hrecover : ({ i.store with isOpen := true } : Store).recover with
      | ok recovered => exact absurd ⟨hio, hbytes, hlength, hrecover⟩ (h recovered)
      | error status => exact ⟨⟨_, rfl⟩, closed, rfl⟩
    · rw [Program.wp_bind]
      refine Program.wp_mono (wp_openStore_error (i := { i with config }) hopens) ?_
      rintro r j ⟨fault, rfl, rfl⟩
      exact ⟨⟨fault, rfl⟩, closed, rfl⟩
  · simp only [if_neg hpersists] at h
    exact absurd rfl (h {})

-- ---------------------------------------------------------------------------
-- Behind the recovery
-- ---------------------------------------------------------------------------

/-- What is left of an open once the state is restarted goes through: the header
record is appended and the snapshot written. -/
structure Impl.Records (i : Impl) : Prop where
  header : (Entity.header i.state.header.epoch i.state.header.restarts
    i.state.header.openedAt).record.fits = true
  appended : i.io.headD true = true
  fits : (encodeState i.state.counted).fits = true
  bounded : (encodeState i.state.counted).bytes.length ≤ maxSnapshotBytes
  written : i.io.tail.headD true = true
  truncated : i.io.tail.tail.headD true = true

omit [HashFunction] in
/-- An append to an open journal, by the answer of the disk. -/
theorem wp_append_iff {i : Impl} {type : RecordType} {payload : Bytes} (isOpen : i.store.isOpen = true)
    (short : payload.length ≤ maxRecordBytes) :
    Program.wp (append type payload) (fun r j => ∃ status, r = .ok status ∧
      (status = .ok () ↔ i.io.headD true = true) ∧ j.state = i.state ∧ j.config = i.config ∧
        j.io = i.io.tail ∧ j.store.isOpen = true) i := by
  unfold append ioSucceeds onStore
  rw [Program.wp_read_bind, if_pos isOpen, if_neg (Nat.not_lt.mpr short)]
  simp only [Program.wp_bind, Program.wp_read, Program.wp_update, Program.wp_pure]
  by_cases hio : i.io.headD true = true
  · rw [if_pos hio]
    exact ⟨_, rfl, ⟨fun _ => hio, fun _ => rfl⟩, rfl, rfl, rfl, isOpen⟩
  · rw [if_neg hio]
    exact ⟨_, rfl, ⟨(fun h => by cases h), fun h => absurd h hio⟩, rfl, rfl, rfl, isOpen⟩

omit [HashFunction] in
/-- A record is appended, or the section ends. -/
theorem wp_persist_iff {i : Impl} {entity : Entity} (persists : i.config.enablePersistence = true)
    (isOpen : i.store.isOpen = true) (short : entity.record.bytes.length ≤ maxRecordBytes) :
    Program.wp (orReturn (persist entity)) (fun r j =>
      (r = .ok () ↔ entity.record.fits = true ∧ i.io.headD true = true) ∧
      (r = .ok () → j.state = i.state.counted ∧ j.io = i.io.tail ∧ j.store.isOpen = true)) i := by
  unfold orReturn persist writes
  by_cases hfits : entity.record.fits = true
  · rw [if_pos hfits, Program.wp_bind, Program.wp_read_bind, if_pos persists, Program.wp_bind]
    refine Program.wp_mono (wp_append_iff isOpen short) ?_
    rintro r j ⟨status, rfl, hstatus, hstate, -, hio, hopen⟩
    simp only
    cases status with
    | ok =>
      refine ⟨⟨fun _ => ⟨hfits, hstatus.mp rfl⟩, fun _ => rfl⟩, fun _ => ⟨?_, hio, hopen⟩⟩
      show j.state.counted = _
      rw [hstate]
    | error status => exact ⟨⟨nofun, fun h => nomatch hstatus.mpr h.2⟩, nofun⟩
  · rw [if_neg hfits]
    exact ⟨⟨nofun, fun h => absurd h.1 hfits⟩, nofun⟩

omit [HashFunction] in
/-- A snapshot is written, or the section ends. -/
theorem wp_takeSnapshot_iff {i : Impl} (isOpen : i.store.isOpen = true) :
    Program.wp (orReturn takeSnapshot) (fun r _ => r = .ok () ↔ (encodeState i.state).fits = true ∧
      (encodeState i.state).bytes.length ≤ maxSnapshotBytes ∧ i.io.headD true = true ∧
        i.io.tail.headD true = true) i := by
  have written : Program.wp (writeSnapshot (encodeState i.state).bytes) (fun r _ => ∃ status, r = .ok status ∧
      (status = .ok () ↔ (encodeState i.state).bytes.length ≤ maxSnapshotBytes ∧ i.io.headD true = true ∧
        i.io.tail.headD true = true)) i := by
    unfold writeSnapshot ioSucceeds onStore
    rw [Program.wp_read_bind, if_pos isOpen]
    by_cases hshort : (encodeState i.state).bytes.length ≤ maxSnapshotBytes
    · rw [if_neg (Nat.not_lt.mpr hshort)]
      simp only [Program.wp_bind, Program.wp_read, Program.wp_update, Program.wp_pure]
      by_cases hio : i.io.headD true = true
      · rw [if_pos hio]
        simp only [Program.wp_bind, Program.wp_read, Program.wp_update, Program.wp_pure]
        by_cases htruncated : i.io.tail.headD true = true
        · rw [if_pos htruncated]
          exact ⟨_, rfl, fun _ => ⟨hshort, hio, htruncated⟩, fun _ => rfl⟩
        · rw [if_neg htruncated]
          exact ⟨_, rfl, (fun h => by cases h), fun h => absurd h.2.2 htruncated⟩
      · rw [if_neg hio]
        exact ⟨_, rfl, (fun h => by cases h), fun h => absurd h.2.1 hio⟩
    · rw [if_pos (Nat.lt_of_not_le hshort)]
      exact ⟨_, rfl, (fun h => by cases h), fun h => absurd h.1 hshort⟩
  let outcome (r : Except Fault (Result Unit)) : Prop :=
    (encodeState i.state).fits = true ∧ (∃ status, r = .ok status ∧
      (status = .ok () ↔ (encodeState i.state).bytes.length ≤ maxSnapshotBytes ∧ i.io.headD true = true ∧
        i.io.tail.headD true = true)) ∨
    (encodeState i.state).fits ≠ true ∧ ∃ fault, r = .error fault
  have state : Program.wp writeState (fun r _ => outcome r) i := by
    unfold writeState
    rw [Still.wp_getState_bind]
    unfold writes
    by_cases hfits : (encodeState i.state).fits = true
    · rw [if_pos hfits]
      exact Program.wp_mono written fun r j hr => .inl ⟨hfits, hr⟩
    · rw [if_neg hfits]
      exact .inr ⟨hfits, _, rfl⟩
  have taken : Program.wp takeSnapshot (fun r _ => outcome r) i := by
    unfold takeSnapshot
    refine Program.wp_seq (fun r _ => outcome r) state (fun status j hr => ?_) fun _ _ h => h
    split
    · exact hr
    · exact hr
  unfold orReturn
  refine Program.wp_seq (fun r _ => outcome r) taken (fun status j hr => ?_) fun fault j hr => ?_
  · rcases hr with ⟨hfits, _, ⟨⟩, hstatus⟩ | ⟨-, _, hfault⟩
    · cases status with
      | ok => exact ⟨fun _ => ⟨hfits, hstatus.mp rfl⟩, fun _ => rfl⟩
      | error status => exact ⟨(fun h => by cases h), fun h => by cases hstatus.mpr h.2⟩
    · cases hfault
  · rcases hr with ⟨-, _, hok, -⟩ | ⟨hfits, -⟩
    · cases hok
    · exact ⟨(fun h => by cases h), fun h => absurd h.1 hfits⟩

omit [HashFunction] in
theorem header_short (epoch : CoordinatorEpoch) (restarts : Nat) (openedAt : UnixMillis) :
    (Entity.header epoch restarts openedAt).record.bytes.length ≤ maxRecordBytes := by
  have hlength : (Entity.header epoch restarts openedAt).record.bytes.length = 44 := by
    simp [Entity.record, Field.bytes, Field.gen, Field.i64, txt]
    rfl
  rw [hlength]
  decide

/-- The store stays open through a restart. -/
theorem isOpen_restartState : Keeps (fun i => i.store.isOpen = true) restartState := by
  have state (f : State → State) : Keeps (fun i => i.store.isOpen = true) (onState f) :=
    Keeps.update fun _ h => h
  have read : Keeps (fun i => i.store.isOpen = true) getState := Keeps.bind .read fun _ => .pure _
  have clock : Keeps (fun i => i.store.isOpen = true) now :=
    Keeps.bind .read fun _ => Keeps.bind (Keeps.update fun _ h => h) fun _ => .pure _
  have worker (id : WorkerId) (f : WorkerRecord → WorkerRecord) :
      Keeps (fun i => i.store.isOpen = true) (onWorker id f) := state _
  have marks (id : WorkerId) : Keeps (fun i => i.store.isOpen = true) (markCapabilitiesUnknown id) := by
    unfold markCapabilitiesUnknown
    grind
  have fences (id : WorkerId) : Keeps (fun i => i.store.isOpen = true) (fenceAtRestart id) := by
    unfold fenceAtRestart
    grind
  have interrupts (id : CompilationAttemptId) :
      Keeps (fun i => i.store.isOpen = true) (interruptAttempt id) := by
    unfold interruptAttempt onAttempt
    grind
  unfold restartState
  refine Keeps.bind clock fun openedAt => Keeps.bind (state _) fun _ => Keeps.bind read fun s => ?_
  refine Keeps.bind (Keeps.forEach _ fun id _ => fences id) fun _ => ?_
  refine Keeps.bind (state _) fun _ => Keeps.bind read fun s => ?_
  exact Keeps.bind (Keeps.forEach _ fun id _ => interrupts id) fun _ => state _

/-- The restart ends, and what it leaves is recorded. -/
def Impl.Restarts (config : CoordinatorConfig) (i : Impl) : Prop :=
  ∃ j, restartState.run i = (.ok (), j) ∧ (config.enablePersistence = true → j.Records)

/-- Behind the recovery the coordinator is open, whatever happens. -/
theorem wp_reopen_iff {config : CoordinatorConfig} {i : Impl} (opened : i.opened = true)
    (configured : i.config = config) (isOpen : config.enablePersistence = true → i.store.isOpen = true) :
    Program.wp (reopen config) (fun r j => j.opened = true ∧ (r = .ok () ↔ i.Restarts config)) i := by
  have keeps : Keeps (fun j => j.opened = true) (reopen config) := by
    unfold reopen
    refine Keeps.bind Held.restartState fun _ => ?_
    split
    · refine Keeps.bind Held.getState fun s => Keeps.bind (Held.orReturn (Held.persist _)) fun _ => ?_
      exact Held.orReturn Held.takeSnapshot
    · exact Keeps.pure _
  refine Program.wp_and (keeps i opened) ?_
  unfold reopen
  refine Program.wp_seq (fun r j => restartState.run i = (r, j) ∧ j.config = config ∧
    (config.enablePersistence = true → j.store.isOpen = true)) ?_ ?_ ?_
  · refine ⟨rfl, ?_, fun h => isOpen_restartState i (isOpen h)⟩
    exact Held.restartState (I := fun j => j.config = config) i configured
  · rintro ⟨⟩ j ⟨hrun, hconfig, hopen⟩
    have hiff : i.Restarts config ↔ (config.enablePersistence = true → j.Records) := by
      constructor
      · rintro ⟨k, hk, hrecords⟩
        obtain rfl := (Prod.mk.inj (hk.symm.trans hrun)).2
        exact hrecords
      · exact fun h => ⟨j, hrun, h⟩
    rw [hiff]
    by_cases hpersists : config.enablePersistence = true
    · rw [if_pos hpersists, Still.wp_getState_bind]
      refine Program.wp_seq _ (wp_persist_iff (by rw [hconfig]; exact hpersists) (hopen hpersists)
        (header_short ..)) ?_ ?_
      · rintro ⟨⟩ k ⟨hheader, hk⟩
        obtain ⟨hstate, hio, hstore⟩ := hk rfl
        obtain ⟨hfits, happended⟩ := hheader.mp rfl
        refine Program.wp_mono (wp_takeSnapshot_iff hstore) fun r _ hr => hr.trans ?_
        rw [hstate, hio]
        constructor
        · rintro ⟨hencoded, hbounded, hwritten, htruncated⟩ -
          exact ⟨hfits, happended, hencoded, hbounded, hwritten, htruncated⟩
        · intro h
          obtain ⟨-, -, hencoded, hbounded, hwritten, htruncated⟩ := h hpersists
          exact ⟨hencoded, hbounded, hwritten, htruncated⟩
      · rintro fault k ⟨hheader, -⟩
        refine ⟨nofun, fun h => ?_⟩
        have hrecords := h hpersists
        exact hheader.mpr ⟨hrecords.header, hrecords.appended⟩
    · rw [if_neg hpersists]
      exact ⟨fun _ h => absurd h hpersists, fun _ => rfl⟩
  · rintro fault j ⟨hrun, -⟩
    refine ⟨nofun, ?_⟩
    rintro ⟨k, hk, -⟩
    cases (Prod.mk.inj (hk.symm.trans hrun)).1

-- ---------------------------------------------------------------------------
-- All or nothing
-- ---------------------------------------------------------------------------

/-- An open that does not return success leaves a closed object, and an open that
follows reports success only where it recovered what had been stored before. -/
def Impl.AllOrNothing (config : CoordinatorConfig) (i : Impl) : Prop :=
  ∀ fault j, (openCoordinator config).run i = (.error fault, j) → j.opened = false ∧
    ∀ (environment : Environment) (next : CoordinatorConfig),
      ((openCoordinator next).run (System.given environment j)).1 = .ok () →
        (System.after (openCoordinator next) (System.given environment j)).Opening next i.store

/-- Where the store opens and its content is recovered, the restart ends and is
recorded. -/
def Impl.SafelyOpened (config : CoordinatorConfig) (i : Impl) : Prop :=
  ∀ recovered, i.Installs config recovered → (i.installed config recovered).Restarts config

theorem allOrNothing_iff {config : CoordinatorConfig} {i : Impl} (closed : i.opened = false) :
    i.AllOrNothing config ↔ i.SafelyOpened config := by
  have reopened (recovered : State) (h : i.Installs config recovered) :
      Program.wp (openCoordinator config) (fun r j => j.opened = true ∧
        (r = .ok () ↔ (i.installed config recovered).Restarts config)) i := by
    refine (wp_openCoordinator_of_installs closed h).mpr (wp_reopen_iff ?_ ?_ fun hpersists => ?_)
    · unfold Impl.installed
      split <;> rfl
    · unfold Impl.installed
      split <;> rfl
    · unfold Impl.installed
      rw [if_pos hpersists]
  constructor
  · intro hall recovered hinstalls
    obtain ⟨hopened, hiff⟩ := reopened recovered hinstalls
    refine hiff.mp ?_
    cases hrun : (openCoordinator config).run i with
    | mk r j =>
    cases r with
    | ok => rfl
    | error fault =>
      -- the error would have to leave the coordinator closed
      have hclosed := (hall fault j hrun).1
      rw [hrun] at hopened
      rw [hopened] at hclosed
      cases hclosed
  · intro hsafe fault j hrun
    by_cases hinstalls : ∃ recovered, i.Installs config recovered
    · obtain ⟨recovered, hinstalls⟩ := hinstalls
      have hok := (reopened recovered hinstalls).2.mpr (hsafe recovered hinstalls)
      rw [hrun] at hok
      cases hok
    · obtain ⟨-, hclosed, hstore⟩ :=
        wp_openCoordinator_of_not_installs closed fun recovered h => hinstalls ⟨recovered, h⟩
      rw [hrun] at hclosed hstore
      refine ⟨hclosed, fun environment next hok => ?_⟩
      have hopening := wp_openCoordinator next (i := System.given environment j) hclosed hok
      obtain ⟨recovered, hbooted, hreopens, hrecover, hfresh⟩ := hopening.recovered
      exact ⟨⟨recovered, hbooted, hreopens, fun h => hstore.symm.trans (hrecover h), hfresh⟩,
        hopening.fenced, hopening.saved⟩

-- ---------------------------------------------------------------------------
-- The life of an object
-- ---------------------------------------------------------------------------

/-- Any steps of one coordinator object, opens and closes among them. -/
inductive Life (first : System) : List Step → System → Prop
  | start : Life first [] first
  | step {steps : List Step} {sys : System} (life : Life first steps sys) (environment : Environment)
      (op : Op) : Life first (steps ++ [⟨environment, op, sys⟩]) (System.step environment op sys)

/-- An open of a store in a step, if it is one of a closed object, is safe. -/
def Step.OpensSafely (step : Step) : Prop :=
  ∀ config, step.op = .openWith config → step.before.impl.opened = false →
    config.enablePersistence = true ∧
      (System.given step.environment step.before.impl).SafelyOpened config

/-- The coordinator is closed, or in an epoch that is on disk. -/
def Impl.Durable (i : Impl) : Prop := i.opened = false ∨ ∃ epoch, i.InEpoch epoch

/-- Nothing but an open opens the coordinator. -/
theorem System.closed_step {sys : System} (closed : sys.impl.opened = false) (environment : Environment)
    {op : Op} (hop : op.opens = false) : (System.step environment op sys).impl.opened = false := by
  have given : (System.given environment sys.impl).opened = false := closed
  have refuses {α : Type} {f : Unit → M α} :
      (System.after (ensureOpen >>= f) (System.given environment sys.impl)).opened = false :=
    Still.wp_ensureOpen_bind (Q := fun _ j => j.opened = false)
      (fun hopen => absurd (hopen.symm.trans given) (by decide)) fun _ => given
  have skips {α : Type} {m m' : M α} (h : Keeps (fun j => j.opened = false) m') :
      (System.after (do
        let i ← Program.read
        if i.opened then m else m') (System.given environment sys.impl)).opened = false := by
    have hm : Program.wp (do
        let i ← Program.read
        if i.opened then m else m') (fun _ (j : Impl) => j.opened = false)
        (System.given environment sys.impl) := by
      rw [Program.wp_read_bind, if_neg (by rw [given]; decide)]
      exact h _ given
    exact hm
  cases op with
  | openWith => cases hop
  | close => exact skips (Keeps.pure ())
  | snapshot => exact refuses
  | submit bundle =>
    have hsubmit : Program.wp (submit bundle) (fun _ (j : Impl) => j.opened = false)
        (System.given environment sys.impl) := by
      unfold submit
      rw [Program.wp_read_bind]
      refine Program.wp_seq (fun _ j => j.opened = false) (Held.orLeave _ _ given) (fun _ j hj => ?_)
        fun _ _ hj => hj
      exact Still.wp_ensureOpen_bind (fun hopen => absurd (hopen.symm.trans hj) (by decide)) fun _ => hj
    exact hsubmit
  | pump => exact skips (Keeps.pure [])
  | drainControls => exact given
  | registerWorker => exact refuses
  | advertiseCapabilities => exact refuses
  | markReady => exact refuses
  | heartbeat => exact refuses
  | beginCompile => exact refuses
  | validateResponse => exact refuses
  | shutdownSessions => exact skips (Keeps.pure ())
  | failAttempt => exact refuses
  | disconnect session reason =>
    have hdisconnect : Program.wp (disconnectSession session reason) (fun _ (j : Impl) => j.opened = false)
        (System.given environment sys.impl) := by
      unfold disconnectSession
      rw [Program.wp_read_bind, if_pos (by rw [given]; decide)]
      exact given
    exact hdisconnect
  | cancel => exact refuses
  | reserve session output =>
    have hreserve : (System.after (reserveOutput session output) (System.given environment sys.impl)).opened
        = false := refuses
    unfold System.after at hreserve
    simp only [System.step, System.reserveStep]
    split
    next heq => rw [heq] at hreserve; exact hreserve
    next heq => rw [heq] at hreserve; exact hreserve
  | validate n smoke =>
    simp only [System.step, System.validateStep]
    split
    next => exact given
    next reservation _ =>
      have hstore := Held.storeOutput (I := fun j => j.opened = false) reservation _ given
      unfold Program.wp at hstore
      split
      next heq => rw [heq] at hstore; exact hstore
      next heq => rw [heq] at hstore; exact hstore
  | commit n =>
    simp only [System.step, System.commitStep]
    split
    next => exact given
    next reservation report _ =>
      exact Held.commitOutput (I := fun j => j.opened = false) reservation.session reservation.output
        report _ given

theorem System.durable_step {sys : System} (durable : sys.impl.Durable) (environment : Environment)
    (op : Op) (safe : Step.OpensSafely ⟨environment, op, sys⟩) :
    (System.step environment op sys).impl.Durable := by
  by_cases hopens : ∃ config, op = .openWith config ∧ sys.impl.opened = false
  · obtain ⟨config, rfl, closed⟩ := hopens
    obtain ⟨hpersists, hsafe⟩ := safe config rfl closed
    have given : (System.given environment sys.impl).opened = false := closed
    have hopening := wp_openCoordinator config given
    have hall := (allOrNothing_iff given).mpr hsafe
    show (System.after (openCoordinator config) (System.given environment sys.impl)).Durable
    unfold System.after
    cases hrun : (openCoordinator config).run (System.given environment sys.impl) with
    | mk r j =>
    cases r with
    | ok =>
      unfold Program.wp at hopening
      rw [hrun] at hopening
      exact .inr ⟨_, rfl, (hopening rfl).saved hpersists⟩
    | error fault => exact .inl (hall fault j hrun).1
  · have within : ∀ config, op = .openWith config → sys.impl.opened = true := by
      intro config hop
      cases hopened : sys.impl.opened with
      | true => rfl
      | false => exact absurd ⟨config, hop, hopened⟩ hopens
    rcases durable with closed | ⟨epoch, hepoch⟩
    · refine .inl (System.closed_step closed environment ?_)
      cases op with
      | openWith config => exact absurd ⟨config, rfl, closed⟩ hopens
      | _ => rfl
    · exact .inr ⟨epoch, Lasting.step hepoch environment op within⟩

/-- What is handed out carries an epoch that is on disk by then. -/
theorem Step.since_of_durable {step : Step} (durable : step.before.impl.Durable) :
    ∀ assignment ∈ step.assignments,
      (System.step step.environment step.op step.before).impl.store.Since assignment.claim.epoch := by
  intro assignment hassignment
  obtain ⟨environment, op, sys⟩ := step
  unfold Step.assignments at hassignment
  cases op with
  | pump =>
    rcases durable with closed | ⟨epoch, hepoch⟩
    · -- a closed coordinator hands out nothing
      have hpump : Program.wp pump (fun r _ => r = .ok []) (System.given environment sys.impl) := by
        unfold pump
        rw [Program.wp_read_bind, if_neg (by
          show ¬sys.impl.opened = true
          rw [closed]
          decide)]
        rfl
      unfold Program.wp at hpump
      simp only [hpump] at hassignment
      cases hassignment
    · have hgiven : (System.given environment sys.impl).InEpoch epoch := Still.quiet hepoch rfl (.inl rfl)
      obtain ⟨hafter, hcollected⟩ := Tracked.wp_pump (I := Impl.InEpoch epoch)
        (P := fun assignment _ => assignment.claim.epoch = epoch)
        (fun _ hj hissued => hissued.epoch.trans hj.state) hgiven
      have hclaim : assignment.claim.epoch = epoch := by
        simp only at hassignment
        split at hassignment
        next heq =>
          rw [heq] at hcollected
          exact hcollected assignment hassignment
        next => cases hassignment
      obtain ⟨saved, hsaved, hfits, hpayload⟩ := hafter.saved
      exact ⟨saved, by rw [hclaim, hsaved], hfits, hpayload⟩
  | _ => cases hassignment

theorem Life.durable {first last : System} {steps : List Step} (life : Life first steps last)
    (closed : first.impl.opened = false) (safe : ∀ step ∈ steps, step.OpensSafely) :
    last.impl.Durable ∧ ∀ step ∈ steps, step.before.impl.Durable := by
  induction life with
  | start => exact ⟨.inl closed, fun _ h => absurd h List.not_mem_nil⟩
  | @step steps sys life environment op ih =>
    obtain ⟨hsys, hbefore⟩ := ih fun step h => safe step (List.mem_append_left _ h)
    have hlast := safe ⟨environment, op, sys⟩ (List.mem_append_right _ (List.mem_singleton_self _))
    refine ⟨System.durable_step hsys environment op hlast, fun step hstep => ?_⟩
    rcases List.mem_append.mp hstep with hstep | hstep
    · exact hbefore step hstep
    · obtain rfl := List.mem_singleton.mp hstep
      exact hsys

/-- **Open is all or nothing** exactly where the recovery fails or everything
behind it succeeds. In the life of an object all of whose opens are of that kind,
nothing is handed out in an epoch that is not on disk. -/
theorem open_all_or_nothing_iff :
    (∀ (config : CoordinatorConfig) (i : Impl), i.opened = false →
      (i.AllOrNothing config ↔ i.SafelyOpened config)) ∧
    ∀ (first last : System) (steps : List Step), first.impl.opened = false → Life first steps last →
      (∀ step ∈ steps, step.OpensSafely) → ∀ step ∈ steps, ∀ assignment ∈ step.assignments,
        (System.step step.environment step.op step.before).impl.store.Since assignment.claim.epoch := by
  refine ⟨fun config i closed => allOrNothing_iff closed, ?_⟩
  intro first last steps closed life safe step hstep
  exact Step.since_of_durable ((life.durable closed safe).2 step hstep)

end

/-- A first open and a pump of an empty directory. -/
def firstSteps : List Step :=
  [⟨obliging, .openWith persistent, { impl := { store := {} } }⟩, ⟨{}, .pump, firstLife⟩]

theorem open_all_or_nothing_iff_first : ∀ step ∈ firstSteps, ∀ assignment ∈ step.assignments,
    (System.step step.environment step.op step.before).impl.store.Since assignment.claim.epoch := by
  refine open_all_or_nothing_iff.2 { impl := { store := {} } } _ firstSteps rfl
    (.step (.step .start obliging (.openWith persistent)) {} .pump) fun step hstep => ?_
  rcases List.mem_cons.mp hstep with rfl | hstep
  · rintro config ⟨⟩ -
    refine ⟨rfl, (open_all_or_nothing_iff.1 persistent _ rfl).mp fun fault j hrun => ?_⟩
    have hok : ((openCoordinator persistent).run (System.given obliging { store := {} })).1 = .ok () :=
      eq_ok_of_isOk (by decide +kernel)
    rw [hrun] at hok
    cases hok
  · obtain rfl := List.mem_singleton.mp hstep
    rintro config ⟨⟩

/-- A first open whose header record is refused by the disk returns an error and
leaves the coordinator open. -/
theorem not_open_all_or_nothing : ¬Impl.AllOrNothing persistent { io := [true, false] } := by
  intro hall
  have hfails : ((openCoordinator persistent).run { io := [true, false] }).1.isOk = false ∧
      ((openCoordinator persistent).run { io := [true, false] }).2.opened = true := by decide +kernel
  cases hrun : (openCoordinator persistent).run { io := [true, false] } with
  | mk r j =>
  rw [hrun] at hfails
  cases r with
  | ok => exact nomatch hfails.1
  | error fault => exact absurd ((hall fault j hrun).1.symm.trans hfails.2) (by decide)

end DistributedCompilation
