import DistributedCompilation.Safety.Founded

/-!
# Distributed Compilation — the gate and the assignment

`unit_ready` asks for the states of the children of a link unit, `build_assignment`
for their authoritative commits. Where the two differ the unit is ready in every
round of `pump` and never assigned (`assignment_follows_gate_iff`).
-/

namespace DistributedCompilation

open Program (Keeps)

section

variable [HashFunction]

-- ---------------------------------------------------------------------------
-- Loading
-- ---------------------------------------------------------------------------

/-- At most the cache of blobs and the environment's answers changed. -/
structure Impl.Caches (i j : Impl) : Prop where
  state : j.state = i.state
  config : j.config = i.config
  readings : j.readings = i.readings

omit [HashFunction] in
theorem Impl.Caches.refl (i : Impl) : i.Caches i := ⟨rfl, rfl, rfl⟩

omit [HashFunction] in
theorem Impl.Caches.trans {i j k : Impl} (h : i.Caches j) (h' : j.Caches k) : i.Caches k :=
  ⟨h'.state.trans h.state, h'.config.trans h.config, h'.readings.trans h.readings⟩

/-- Blobs load one after the other. -/
def loadAll : List Digest256 → M Bool
  | [] => pure true
  | digest :: rest => do
    let loaded ← loadBlob digest
    match loaded with
    | .error _ => pure false
    | .ok _ => loadAll rest

/-- All these blobs can be loaded in this order. -/
def Impl.Loadable (i : Impl) (digests : List Digest256) : Prop := ((loadAll digests).run i).1 = .ok true

omit [HashFunction] in
theorem run_bind_ok {α β : Type} {m : M α} {f : α → M β} {i j : Impl} {a : α} (h : m.run i = (.ok a, j)) :
    (m >>= f).run i = (f a).run j := by
  show (m >>= f) i = f a j
  rw [Program.bind_apply, show m i = (.ok a, j) from h]
  rfl

/-- A load returns, and changes the cache only. -/
theorem run_loadBlob (digest : Digest256) (i : Impl) :
    ∃ (r : Result Bytes) (j : Impl), (loadBlob digest).run i = (.ok r, j) ∧ i.Caches j := by
  have cached (bytes : Bytes) : ∃ j, (cacheBlob digest bytes).run i = (.ok (), j) ∧ i.Caches j := by
    unfold cacheBlob
    split
    · exact ⟨_, rfl, rfl, rfl, rfl⟩
    · exact ⟨i, rfl, .refl i⟩
  have returned (r : Result Bytes) : ∃ (r' : Result Bytes) (j : Impl),
      (pure r : M (Result Bytes)).run i = (.ok r', j) ∧ i.Caches j := ⟨r, i, rfl, .refl i⟩
  unfold loadBlob
  rw [run_bind_ok (show (Program.read : M Impl).run i = (.ok i, i) from rfl)]
  split
  · exact returned _
  · split
    · split
      · exact returned _
      next bytes _ =>
        split
        · exact returned _
        · split
          · exact returned _
          · split
            · exact returned _
            · obtain ⟨j, hrun, hj⟩ := cached bytes
              exact ⟨_, j, run_bind_ok hrun, hj⟩
    · exact returned _

/-- Blobs that can be loaded are loaded, and what follows them can still be. -/
theorem run_loadEach {α β : Type} (digest : α → Digest256) (payload : α → Bytes → β) (rest : List Digest256)
    (xs : List α) : ∀ i : Impl, i.Loadable (xs.map digest ++ rest) →
      ∃ (payloads : List β) (j : Impl), (loadEach digest payload xs).run i = (.ok (some payloads), j) ∧
        i.Caches j ∧ j.Loadable rest := by
  induction xs with
  | nil => exact fun i h => ⟨[], i, rfl, .refl i, h⟩
  | cons x xs ih =>
    intro i h
    obtain ⟨r, j, hrun, hj⟩ := run_loadBlob (digest x) i
    unfold Impl.Loadable at h
    rw [List.map_cons, List.cons_append, loadAll, run_bind_ok hrun] at h
    cases r with
    | error status => cases h
    | ok bytes =>
      obtain ⟨payloads, k, hloaded, hk, hrest⟩ := ih j h
      refine ⟨payload x bytes :: payloads, k, ?_, hj.trans hk, hrest⟩
      rw [loadEach, run_bind_ok hrun]
      exact run_bind_ok hloaded

/-- The artifacts of the children that have an authoritative commit. -/
def State.artifactsOf (s : State) (job : JobRecord) (children : List UInt32) : List Digest256 :=
  children.filterMap fun child => (s.childOf job child).map (·.1)

/-- The children load where each of them has an authoritative commit, and nothing does
where one of them has none. -/
theorem run_loadChildren (s : State) (job : JobRecord) (children : List UInt32) : ∀ i : Impl,
    i.Loadable (s.artifactsOf job children) →
      ∃ (payloads : Option (List AssignmentChild)) (j : Impl),
        (loadChildren s job children).run i = (.ok payloads, j) ∧ i.Caches j ∧
        (payloads.isSome ↔ ∀ child ∈ children, (s.childOf job child).isSome) := by
  induction children with
  | nil => exact fun i _ => ⟨some [], i, rfl, .refl i, by simp⟩
  | cons child children ih =>
    intro i h
    cases hchild : s.childOf job child with
    | none =>
      refine ⟨none, i, ?_, .refl i, by simp [hchild]⟩
      rw [loadChildren, hchild]
      rfl
    | some found =>
      obtain ⟨digest, payload⟩ := found
      obtain ⟨r, j, hrun, hj⟩ := run_loadBlob digest i
      unfold Impl.Loadable State.artifactsOf at h
      rw [List.filterMap_cons, hchild, Option.map_some, loadAll, run_bind_ok hrun] at h
      cases r with
      | error status => cases h
      | ok bytes =>
        obtain ⟨payloads, k, hloaded, hk, hall⟩ := ih j h
        refine ⟨payloads.map (payload bytes :: ·), k, ?_, hj.trans hk, ?_⟩
        · rw [loadChildren, hchild]
          simp only
          rw [run_bind_ok hrun]
          exact run_bind_ok hloaded
        · simp [hchild, hall]

-- ---------------------------------------------------------------------------
-- Recording
-- ---------------------------------------------------------------------------

/-- The section returns a value of that kind if `P` holds and throws otherwise; the
compilations and the workers stay. -/
def Succeeds (P : Prop) {α : Type} (V : α → Prop) (m : M α) (i : Impl) : Prop :=
  ∃ j : Impl, j.state.compilations = i.state.compilations ∧ j.state.workers = i.state.workers ∧
    (P ∧ (∃ a, V a ∧ m.run i = (.ok a, j)) ∨ ¬P ∧ m.run i = (.error .lengthError, j))

namespace Succeeds

variable {α β : Type} {P P' : Prop} {V : α → Prop} {i : Impl}

omit [HashFunction]

theorem pure {a : α} (h : V a) : Succeeds True V (Pure.pure a : M α) i :=
  ⟨i, rfl, rfl, .inl ⟨trivial, a, h, rfl⟩⟩

theorem congr {m : M α} (h : Succeeds P V m i) (hiff : P ↔ P') : Succeeds P' V m i := by
  rwa [← propext hiff]

theorem bind {m : M β} {f : β → M α} (h : Succeeds P (fun _ => True) m i)
    (rest : ∀ b j, j.state.compilations = i.state.compilations → j.state.workers = i.state.workers →
      Succeeds P' V (f b) j) : Succeeds (P ∧ P') V (m >>= f) i := by
  obtain ⟨j, compilations, workers, ⟨hP, b, -, hrun⟩ | ⟨hP, hrun⟩⟩ := h
  · obtain ⟨k, compilations', workers', hend⟩ := rest b j compilations workers
    refine ⟨k, compilations'.trans compilations, workers'.trans workers, ?_⟩
    rw [run_bind_ok hrun]
    rcases hend with ⟨hP', hend⟩ | ⟨hP', hend⟩
    · exact .inl ⟨⟨hP, hP'⟩, hend⟩
    · exact .inr ⟨fun h => hP' h.2, hend⟩
  · refine ⟨j, compilations, workers, .inr ⟨fun h => hP h.1, ?_⟩⟩
    show (m >>= f) i = _
    rw [Program.bind_apply, show m i = _ from hrun]
    rfl

theorem of_run {m : M α} {a : α} {j : Impl} (hrun : m.run i = (.ok a, j))
    (compilations : j.state.compilations = i.state.compilations) (workers : j.state.workers = i.state.workers)
    (h : V a) : Succeeds True V m i :=
  ⟨j, compilations, workers, .inl ⟨trivial, a, h, hrun⟩⟩

/-- Reading in front. -/
theorem read {f : Impl → M α} (h : Succeeds P V (f i) i) : Succeeds P V (Program.read >>= f) i := by
  rw [Succeeds, run_bind_ok (show (Program.read : M Impl).run i = (.ok i, i) from rfl)]
  exact h

theorem getState {f : State → M α} (h : Succeeds P V (f i.state) i) :
    Succeeds P V (DistributedCompilation.getState >>= f) i := by
  rw [Succeeds, run_bind_ok (show DistributedCompilation.getState.run i = (.ok i.state, i) from rfl)]
  exact h

theorem ioSucceeds : Succeeds True (fun _ => True) ioSucceeds i := of_run rfl rfl rfl trivial

theorem onStore (f : Store → Store) : Succeeds True (fun _ => True) (onStore f) i := of_run rfl rfl rfl trivial

theorem append (type : RecordType) (payload : Bytes) :
    Succeeds True (fun _ => True) (append type payload) i := by
  unfold DistributedCompilation.append
  refine read ?_
  split
  · split
    · exact pure trivial
    · refine congr (P := True ∧ True) (bind ioSucceeds fun written j _ _ => ?_) (and_self_iff)
      split
      · exact congr (bind (onStore _) fun _ _ _ _ => pure trivial) (and_self_iff)
      · exact pure trivial
  · exact pure trivial

/-- An entity is written, or refused by the disk, unless it is too long to encode. -/
theorem persist (entity : Entity) :
    Succeeds (entity.record.fits = true) (fun _ => True) (persist entity) i := by
  unfold DistributedCompilation.persist writes
  by_cases hfits : entity.record.fits = true
  · rw [if_pos hfits]
    refine congr (P := True) (read ?_) (by simp [hfits])
    split
    · refine congr (P := True ∧ True) (bind (append _ _) fun status j compilations workers => ?_) (and_self_iff)
      cases status with
      | ok => exact of_run rfl rfl rfl trivial
      | error status => exact of_run rfl rfl rfl trivial
    · exact pure trivial
  · rw [if_neg hfits]
    refine ⟨{ i with store := { i.store with lost := i.store.lost + 1 } }, rfl, rfl, .inr ⟨hfits, rfl⟩⟩

theorem persistVoid (entity : Entity) :
    Succeeds (entity.record.fits = true) (fun _ => True) (persistVoid entity) i :=
  congr (bind (persist entity) fun _ _ _ _ => pure trivial) (by simp)

theorem ignoring {m : M (Result Unit)} (h : Succeeds P (fun _ => True) m i) :
    Succeeds P (fun _ => True) (ignoring m) i :=
  congr (bind h fun _ _ _ _ => pure trivial) (by simp)

theorem persistCompilation {id : CompilationId} {record : CompilationRecord}
    (found : i.state.compilations[id]? = some record) :
    Succeeds ((Entity.compilation record).record.fits = true) (fun _ => True)
      (DistributedCompilation.ignoring (DistributedCompilation.persistCompilation id)) i := by
  refine ignoring ?_
  unfold DistributedCompilation.persistCompilation
  refine getState ?_
  simp only [found]
  exact persist _

theorem persistWorker (id : WorkerId) :
    Succeeds (∀ worker : WorkerRecord, i.state.workers[id]? = some worker →
      (Entity.worker worker).record.fits = true) (fun _ => True)
      (DistributedCompilation.ignoring (DistributedCompilation.persistWorker id)) i := by
  refine ignoring ?_
  unfold DistributedCompilation.persistWorker
  refine getState ?_
  cases hworker : i.state.workers[id]? with
  | none => exact congr (pure trivial) (by simp)
  | some worker => exact congr (persist _) (by simp)

end Succeeds

/-- The records of an assignment can be encoded: the lease, the attempt, and the
compilation and the worker as the assignment leaves them. -/
def State.Records (s : State) (compilation : CompilationRecord) (attempt : CompilationAttempt)
    (lease : CompileLease) (updatedAt : UnixMillis) : Prop :=
  (Entity.lease lease).record.fits = true ∧ (Entity.attempt attempt).record.fits = true ∧
  (Entity.compilation (compilation.assigned attempt.id updatedAt)).record.fits = true ∧
  ∀ worker : WorkerRecord, s.workers[attempt.worker]? = some worker →
    (Entity.worker (worker.leased lease.id)).record.fits = true

-- ---------------------------------------------------------------------------
-- The assignment
-- ---------------------------------------------------------------------------

/-- What `build_assignment` loads of the children. -/
def State.childArtifacts (s : State) (compilation : CompilationRecord) (unit : CompilationUnitSpec) :
    List Digest256 :=
  if unit.kind = .link then
    match s.jobs[compilation.requestIdentity]? with
    | none => []
    | some job => s.artifactsOf job unit.childUnits
  else []

/-- The gate of the compilation is open, and what its assignment carries can be loaded. -/
structure Impl.GateOpen (i : Impl) (id : CompilationId) (compilation : CompilationRecord)
    (request : CompilationRequest) (unit : CompilationUnitSpec) : Prop where
  found : i.state.compilations[id]? = some compilation
  resolved : i.state.resolve compilation = some (request, unit)
  ready : i.state.unitReady compilation = true
  loads : i.Loadable (unit.sources.map (·.content.digest) ++
    (unit.dependencies.map (·.content.digest) ++ i.state.childArtifacts compilation unit))

/-- Every child of a link unit has an authoritative commit. -/
def State.ChildrenAuthoritative (s : State) (compilation : CompilationRecord) (unit : CompilationUnitSpec) :
    Prop :=
  unit.kind = .link → ∀ job : JobRecord, s.jobs[compilation.requestIdentity]? = some job →
    ∀ child ∈ unit.childUnits, ∀ childId : CompilationId, job.units[child.toNat]? = some childId →
      ∃ (commitId : ArtifactCommitId) (commit : ArtifactCommit), s.authoritative[childId]? = some commitId ∧
        s.commits[commitId]? = some commit

omit [HashFunction] in
/-- A child the job knows is assignable when it has an authoritative commit. -/
theorem State.childOf_isSome {s : State} {job : JobRecord} {child : UInt32} {childId : CompilationId}
    (hunit : job.units[child.toNat]? = some childId) {record : CompilationRecord}
    (hrecord : s.compilations[childId]? = some record) :
    (s.childOf job child).isSome ↔ ∃ (commitId : ArtifactCommitId) (commit : ArtifactCommit),
      s.authoritative[childId]? = some commitId ∧ s.commits[commitId]? = some commit := by
  unfold State.childOf
  rw [hunit, Option.bind_eq_bind, Option.bind_some, hrecord, Option.bind_eq_bind, Option.bind_some]
  cases hauthority : s.authoritative[childId]? with
  | none => simp
  | some commitId =>
    cases hcommit : s.commits[commitId]? with
    | none => simp [hcommit]
    | some commit => simp [hcommit]

/-- The children of a unit whose gate is open. -/
theorem run_loadLinkInputs {i j : Impl} {compilation : CompilationRecord} {request : CompilationRequest}
    {unit : CompilationUnitSpec} (resolved : i.state.resolve compilation = some (request, unit))
    (ready : i.state.unitReady compilation = true)
    (loads : j.Loadable (i.state.childArtifacts compilation unit)) :
    ∃ (payloads : Option (List AssignmentChild)) (k : Impl),
      (loadLinkInputs i.state compilation unit).run j = (.ok payloads, k) ∧ j.Caches k ∧
      (payloads.isSome ↔ i.state.ChildrenAuthoritative compilation unit) := by
  unfold loadLinkInputs
  unfold State.childArtifacts at loads
  unfold State.unitReady at ready
  rw [resolved] at ready
  simp only at ready
  by_cases hlink : unit.kind = .link
  · rw [if_pos hlink] at loads ⊢
    rw [if_neg (not_not.mpr hlink)] at ready
    cases hjob : i.state.jobs[compilation.requestIdentity]? with
    | none =>
      rw [hjob] at ready
      cases ready
    | some job =>
      rw [hjob] at ready loads
      simp only [List.all_eq_true] at ready loads ⊢
      have known : ∀ child ∈ unit.childUnits, ∃ (childId : CompilationId) (record : CompilationRecord),
          job.units[child.toNat]? = some childId ∧ i.state.compilations[childId]? = some record := by
        intro child hchild
        have havailable := ready child hchild
        cases hunit : job.units[child.toNat]? with
        | none =>
          rw [hunit] at havailable
          cases havailable
        | some childId =>
          rw [hunit] at havailable
          obtain ⟨record, hrecord, -⟩ := (Option.any_eq_true _ _).mp havailable
          exact ⟨childId, record, rfl, hrecord⟩
      obtain ⟨payloads, k, hrun, hk, hall⟩ := run_loadChildren i.state job unit.childUnits j loads
      refine ⟨payloads, k, hrun, hk, hall.trans ⟨fun h _ job' hjob' child hchild childId hunit => ?_,
        fun h child hchild => ?_⟩⟩
      · obtain rfl := Option.some.inj (hjob.symm.trans hjob')
        obtain ⟨childId', record, hunit', hrecord⟩ := known child hchild
        obtain rfl := Option.some.inj (hunit.symm.trans hunit')
        exact (State.childOf_isSome hunit hrecord).mp (h child hchild)
      · obtain ⟨childId, record, hunit, hrecord⟩ := known child hchild
        exact (State.childOf_isSome hunit hrecord).mpr (h hlink job hjob child hchild childId hunit)
  · rw [if_neg hlink]
    exact ⟨some [], j, rfl, .refl j, by simp [State.ChildrenAuthoritative, hlink]⟩

omit [HashFunction] in
theorem run_now (i : Impl) : now.run i = (.ok (i.readings.headD 0), { i with readings := i.readings.tail }) :=
  rfl

omit [HashFunction] in
/-- What follows the tables of an assignment writes its records. -/
theorem issued_cases {i : Impl} {s : State} {id : CompilationId} {compilation : CompilationRecord}
    (found : s.compilations[id]? = some compilation) (attempt : CompilationAttempt) (lease : CompileLease)
    (updatedAt : UnixMillis) (hstate : i.state = s.assign id attempt lease updatedAt) (assignment : Assignment) :
    s.Records compilation attempt lease updatedAt ∧ (∃ out, ((do
      persistVoid (.lease lease)
      persistVoid (.attempt attempt)
      ignoring (persistCompilation id)
      ignoring (persistWorker attempt.worker)
      pure (some assignment) : M (Option Assignment)).run i).1 = .ok (some out)) ∨
    ¬s.Records compilation attempt lease updatedAt ∧ ((do
      persistVoid (.lease lease)
      persistVoid (.attempt attempt)
      ignoring (persistCompilation id)
      ignoring (persistWorker attempt.worker)
      pure (some assignment) : M (Option Assignment)).run i).1 = .error .lengthError := by
  have hrecord : i.state.compilations[id]? = some (compilation.assigned attempt.id updatedAt) := by
    rw [hstate]
    simp [State.assign, found]
  have hworker : i.state.workers[attempt.worker]? = (s.workers[attempt.worker]?).map (·.leased lease.id) := by
    rw [hstate]
    simp [State.assign]
  have hwrites : Succeeds (s.Records compilation attempt lease updatedAt) (fun r => r = some assignment) (do
      persistVoid (.lease lease)
      persistVoid (.attempt attempt)
      ignoring (persistCompilation id)
      ignoring (persistWorker attempt.worker)
      pure (some assignment)) i := by
    refine .congr (.bind (.persistVoid _) fun _ j₁ c₁ w₁ => .bind (.persistVoid _) fun _ j₂ c₂ w₂ =>
      .bind (.persistCompilation (by rw [c₂, c₁]; exact hrecord)) fun _ j₃ c₃ w₃ =>
      .bind (.congr (.persistWorker _) (show _ ↔ ∀ worker : WorkerRecord,
        s.workers[attempt.worker]? = some worker →
          (Entity.worker (worker.leased lease.id)).record.fits = true from ?_)) fun _ _ _ _ => .pure rfl) ?_
    · rw [w₃, w₂, w₁, hworker]
      cases s.workers[attempt.worker]? with
      | none => simp
      | some worker => simp
    · unfold State.Records
      simp
  obtain ⟨j, -, -, ⟨hrecords, r, rfl, hrun⟩ | ⟨hrecords, hrun⟩⟩ := hwrites
  · exact .inl ⟨hrecords, assignment, by rw [hrun]⟩
  · exact .inr ⟨hrecords, by rw [hrun]⟩

/-- What the encoder is asked for by the next assignment of the compilation to that
worker. -/
def Impl.RecordsFit (i : Impl) (compilation : CompilationRecord) (worker : WorkerRecord) (speculative : Bool) :
    Prop :=
  i.state.Records compilation (i.state.attemptFor worker compilation speculative (i.readings.headD 0))
    ((i.state.attemptFor worker compilation speculative (i.readings.headD 0)).leaseOf (i.readings.tail.headD 0))
    (i.readings.tail.tail.headD 0)

/-- What `build_assignment` ends in behind an open gate. -/
theorem Impl.GateOpen.outcome {i : Impl} {id : CompilationId} {compilation : CompilationRecord}
    {request : CompilationRequest} {unit : CompilationUnitSpec} (h : i.GateOpen id compilation request unit)
    (worker : WorkerRecord) (speculative : Bool) :
    ¬i.state.ChildrenAuthoritative compilation unit ∧
        ((buildAssignment worker id speculative).run i).1 = .ok none ∨
    i.state.ChildrenAuthoritative compilation unit ∧
      (i.RecordsFit compilation worker speculative ∧
          (∃ assignment, ((buildAssignment worker id speculative).run i).1 = .ok (some assignment)) ∨
        ¬i.RecordsFit compilation worker speculative ∧
          ((buildAssignment worker id speculative).run i).1 = .error .lengthError) := by
  obtain ⟨sources, j₁, hsources, hj₁, h₁⟩ := run_loadEach (·.content.digest) (fun (source : UnitSource) bytes =>
    { logicalName := source.logicalName, format := source.format, languageMode := source.languageMode,
      bytes : AssignmentSource }) _ unit.sources i h.loads
  obtain ⟨dependencies, j₂, hdependencies, hj₂, h₂⟩ := run_loadEach (·.content.digest)
    (fun (dep : DependencyEntry) bytes => { name := dep.name, kind := dep.kind, bytes : AssignmentDependency }) _
    unit.dependencies j₁ h₁
  obtain ⟨children, j₃, hchildren, hj₃, hall⟩ := run_loadLinkInputs h.resolved h.ready h₂
  have hcaches := (hj₁.trans hj₂).trans hj₃
  unfold buildAssignment
  rw [run_bind_ok (show (Program.read : M Impl).run i = (.ok i, i) from rfl)]
  simp only [h.found, h.resolved]
  rw [run_bind_ok hsources]
  simp only
  rw [run_bind_ok hdependencies]
  simp only
  rw [run_bind_ok hchildren]
  cases children with
  | none =>
    left
    exact ⟨fun hchildren => (nomatch hall.mpr hchildren), rfl⟩
  | some children =>
    right
    refine ⟨hall.mp rfl, ?_⟩
    simp only
    rw [run_bind_ok (run_now _), run_bind_ok (run_now _), run_bind_ok (run_now _), hcaches.readings]
    simp only
    refine issued_cases h.found (i.state.attemptFor worker compilation speculative (i.readings.headD 0)) _ _ ?_ _
    show State.assign j₃.state id _ _ _ = _
    rw [hcaches.state]

/-- Without the commits of its children a ready unit is passed over by `pump`. -/
theorem Impl.GateOpen.passed {i : Impl} {id : CompilationId} {compilation : CompilationRecord}
    {request : CompilationRequest} {unit : CompilationUnitSpec} (h : i.GateOpen id compilation request unit)
    (missing : ¬i.state.ChildrenAuthoritative compilation unit) : ((pumpOne id).run i).1 = .ok [] := by
  have gives (worker : WorkerRecord) : ((buildAssignment worker id false).run i).1 = .ok none := by
    rcases h.outcome worker false with ⟨-, hnone⟩ | ⟨hchildren, -⟩
    · exact hnone
    · exact absurd hchildren missing
  unfold pumpOne
  rw [run_bind_ok (show getState.run i = (.ok i.state, i) from rfl), h.found]
  simp only
  split
  · rfl
  · split
    · rfl
    · split
      · rfl
      · split
        · rfl
        · split
          · rfl
          · split
            · rfl
            · split
              · rfl
              next chosen _ =>
                cases hrun : (buildAssignment chosen id false).run i with
                | mk r j =>
                have hr := gives chosen
                rw [hrun] at hr
                obtain rfl : r = .ok none := hr
                rw [run_bind_ok hrun]
                rfl

/-- Behind an open gate an assignment is built exactly if every child of a link unit has
an authoritative commit and the encoder takes the records; a unit that lacks the
commits is passed over by every round of `pump`. -/
theorem assignment_follows_gate_iff {i : Impl} {id : CompilationId} {compilation : CompilationRecord}
    {request : CompilationRequest} {unit : CompilationUnitSpec} (h : i.GateOpen id compilation request unit) :
    (∀ (worker : WorkerRecord) (speculative : Bool),
      (∃ assignment, ((buildAssignment worker id speculative).run i).1 = .ok (some assignment)) ↔
        i.state.ChildrenAuthoritative compilation unit ∧ i.RecordsFit compilation worker speculative) ∧
    (¬i.state.ChildrenAuthoritative compilation unit → ((pumpOne id).run i).1 = .ok []) := by
  refine ⟨fun worker speculative => ?_, h.passed⟩
  rcases h.outcome worker speculative with ⟨hmissing, hrun⟩ | ⟨hchildren, ⟨hfits, hrun⟩ | ⟨hfits, hrun⟩⟩
  · rw [hrun]
    exact ⟨fun ⟨_, hsome⟩ => (nomatch hsome), fun hboth => absurd hboth.1 hmissing⟩
  · exact ⟨fun _ => ⟨hchildren, hfits⟩, fun _ => hrun⟩
  · rw [hrun]
    exact ⟨fun ⟨_, hsome⟩ => (nomatch hsome), fun hboth => absurd hboth.2 hfits⟩

end

/-- A compile unit and the link unit over it. -/
def fanBundle (forceRebuild : Bool) : SubmissionBundle where
  request := {
    requestId := ⟨1⟩
    toolchain := { family := .gnu, versionString := txt "13" }
    target := { os := .linux, arch := .x86_64 }
    policy := { requireProvableToolchain := false }
    validation := { requireFormatCheck := false, requireTargetMetadata := false }
    units := [
      { logicalName := txt "a", sources := [
        { logicalName := txt "a.cpp", content := { digest := sha256 (txt "x"), size := 1 } }] },
      { index := 1, logicalName := txt "app", kind := .link, childUnits := [0] }] }
  blobs := [{ bytes := txt "x" }]
  forceRebuild

def fanRun : List Op := [.submit (fanBundle false), .registerWorker smallWorker, .markReady ⟨1⟩, .pump]

/-- The compile unit is assigned, the link unit waits. -/
def fanIssued : System := System.perform fanRun volatileFirst

def fanClaim : AuthorityClaim := fanIssued.claimFor ⟨1⟩ (fanIssued.compilationOf ⟨1⟩)

/-- The compile unit is committed and then served from the cache in a forced rebuild. -/
def fanRebuilt : System :=
  System.perform [.commit 0, .submit (fanBundle true)] (fanIssued.checked fanClaim)

theorem runs_fanRebuilt : ∃ steps, Runs volatileFirst steps fanRebuilt := by
  obtain ⟨steps, run⟩ := System.runs_checked fanIssued fanClaim
  exact ⟨_, ((Runs.perform fanRun volatileFirst rfl).trans run).trans
    (Runs.perform [.commit 0, .submit (fanBundle true)] _ rfl)⟩

/-- The first compilation waits behind an open gate, a worker is eligible for it, and
no assignment is built. -/
def System.stalls (sys : System) : Bool :=
  match sys.impl.state.compilations.keys with
  | [] => false
  | id :: _ =>
  match sys.impl.state.compilations[id]? with
  | none => false
  | some compilation =>
    match sys.impl.state.resolve compilation,
      sys.impl.state.eligibleWorkers (sys.impl.state.requirementsFor compilation) with
    | some (_, unit), worker :: _ =>
      compilation.state == .pending && sys.impl.state.unitReady compilation &&
      (match ((loadAll (unit.sources.map (·.content.digest) ++ (unit.dependencies.map (·.content.digest) ++
          sys.impl.state.childArtifacts compilation unit))).run sys.impl).1 with
        | .ok loaded => loaded
        | .error _ => false) &&
      (match ((buildAssignment worker id false).run sys.impl).1 with
        | .ok none => true
        | _ => false)
    | _, _ => false

theorem System.of_stalls {sys : System} (h : sys.stalls = true) :
    ∃ (id : CompilationId) (compilation : CompilationRecord) (request : CompilationRequest)
      (unit : CompilationUnitSpec) (worker : WorkerRecord), sys.impl.GateOpen id compilation request unit ∧
      compilation.state = .pending ∧
      worker ∈ sys.impl.state.eligibleWorkers (sys.impl.state.requirementsFor compilation) ∧
      ((buildAssignment worker id false).run sys.impl).1 = .ok none := by
  unfold System.stalls at h
  split at h
  · cases h
  next id _ _ =>
  split at h
  · cases h
  next compilation found =>
  split at h
  next request unit worker others resolved eligible =>
    simp only [Bool.and_eq_true, beq_iff_eq] at h
    obtain ⟨⟨⟨pending, ready⟩, loads⟩, gives⟩ := h
    refine ⟨id, compilation, request, unit, worker, ⟨found, resolved, ready, ?_⟩, pending, ?_, ?_⟩
    · split at loads
      next hrun => exact hrun.trans (congrArg Except.ok loads)
      · cases loads
    · rw [eligible]
      exact .head _
    · split at gives
      next hrun => exact hrun
      · cases gives
  · cases h

set_option maxRecDepth 100000 in
theorem fanRebuilt_stalls : fanRebuilt.stalls = true := by
  rw [fanRebuilt, fanClaim, fanIssued, volatileFirst, fanRun, System.checked, System.begun, fanBundle,
    System.stalls, hashFunction_eq]
  decide +kernel

theorem assignment_follows_gate_iff_fan : ∃ (id : CompilationId) (compilation : CompilationRecord)
    (unit : CompilationUnitSpec) (worker : WorkerRecord),
    ((∃ assignment, ((buildAssignment worker id false).run fanRebuilt.impl).1 = .ok (some assignment)) ↔
      fanRebuilt.impl.state.ChildrenAuthoritative compilation unit ∧
        fanRebuilt.impl.RecordsFit compilation worker false) := by
  obtain ⟨id, compilation, request, unit, worker, hopen, -, -, -⟩ := System.of_stalls fanRebuilt_stalls
  exact ⟨id, compilation, unit, worker, (assignment_follows_gate_iff hopen).1 worker false⟩

/-- A forced rebuild serves the child from the cache and leaves it without an
authoritative commit. -/
theorem not_assignment_follows_gate : ∃ (steps : List Step) (sys : System), Runs volatileFirst steps sys ∧
    ∃ (id : CompilationId) (compilation : CompilationRecord) (request : CompilationRequest)
      (unit : CompilationUnitSpec) (worker : WorkerRecord), sys.impl.GateOpen id compilation request unit ∧
      compilation.state = .pending ∧
      worker ∈ sys.impl.state.eligibleWorkers (sys.impl.state.requirementsFor compilation) ∧
      ¬∃ assignment, ((buildAssignment worker id false).run sys.impl).1 = .ok (some assignment) := by
  obtain ⟨steps, run⟩ := runs_fanRebuilt
  obtain ⟨id, compilation, request, unit, worker, hopen, pending, eligible, gives⟩ :=
    System.of_stalls fanRebuilt_stalls
  refine ⟨steps, fanRebuilt, run, id, compilation, request, unit, worker, hopen, pending, eligible, ?_⟩
  rw [gives]
  rintro ⟨assignment, hsome⟩
  cases hsome

end DistributedCompilation
