import DistributedCompilation.Safety.Once
import DistributedCompilation.Server.Verdicts

/-!
# Distributed Compilation — progress

Safety says what a report may not do; here is what it can. An assignment `pump` hands
out waits for its worker under the claim it carries, and a worker that begins it at
once and reports bytes the assignment asks for is answered with the commit.
-/

namespace DistributedCompilation

open Program (Keeps)

-- ---------------------------------------------------------------------------
-- What waits
-- ---------------------------------------------------------------------------

/-- What the claim and the validation of a report depend on in a compilation record. -/
def CompilationRecord.core (record : CompilationRecord) : CompilationRecord :=
  { record.frozen with attemptOrdinalCounter := 0, attempts := [], currentAttempt := {} }

/-- The claim is the expected one, and a report is validated as the assignment says. -/
structure State.Fits (s : State) (a : Assignment) (attempt : CompilationAttempt)
    (compilation : CompilationRecord) : Prop where
  claim : a.claim = s.expectationFor compilation attempt
  reservation : ∀ (session : SessionId) (output : ReportOutput) (candidateDigest : Digest256),
    s.reservationFor session output candidateDigest compilation =
      { session, output, candidateDigest, target := a.target, requirements := a.validation
        outputKind := a.outputKind }

/-- The assignment waits for its worker, and nothing is committed for it. -/
structure State.Awaits (s : State) (a : Assignment) (state : AttemptState) : Prop where
  numbered : a.claim.attempt.value < s.header.nextAttemptId
  free : s.authoritative[a.claim.compilation]? = none
  exact : ∃ (attempt : CompilationAttempt) (compilation : CompilationRecord),
    s.attempts[a.claim.attempt]? = some attempt ∧ attempt.state = state ∧
    s.compilations[a.claim.compilation]? = some compilation ∧ s.Fits a attempt compilation

theorem State.Fits.congr {s s' : State} {a : Assignment} {attempt attempt' : CompilationAttempt}
    {compilation compilation' : CompilationRecord} (h : s.Fits a attempt compilation)
    (epoch : s'.header.epoch = s.header.epoch) (cache : s'.header.cacheGeneration = s.header.cacheGeneration)
    (requests : s'.requests = s.requests) (frozen : attempt'.frozen = attempt.frozen)
    (core : compilation'.core = compilation.core) : s'.Fits a attempt' compilation' := by
  simp only [CompilationAttempt.frozen, CompilationAttempt.mk.injEq] at frozen
  simp only [CompilationRecord.core, CompilationRecord.frozen, CompilationRecord.mk.injEq] at core
  refine ⟨h.claim.trans ?_, fun session output candidateDigest => ?_⟩
  · simp only [State.expectationFor, epoch, cache, frozen, core]
  · rw [← h.reservation session output candidateDigest, State.reservationFor, State.reservationFor]
    simp only [requests, core]

/-- An assignment is made out of the tables its report is checked against. -/
theorem State.Fits.built {s : State} {compilation : CompilationRecord} {request : CompilationRequest}
    {unit : CompilationUnitSpec} (resolves : s.resolve compilation = some (request, unit))
    (config : CoordinatorConfig) (worker : WorkerRecord) (attempt : CompilationAttempt) (lease : CompileLease)
    (sources : List AssignmentSource) (dependencies : List AssignmentDependency) (children : List AssignmentChild) :
    s.Fits { s.assignmentFor config worker compilation request unit attempt lease with
      sources, dependencies, children } attempt compilation := by
  unfold State.resolve at resolves
  obtain ⟨found, hfound, hunit⟩ := Option.bind_eq_some_iff.mp resolves
  obtain ⟨own, hown, hpair⟩ := Option.bind_eq_some_iff.mp hunit
  cases hpair
  refine ⟨rfl, fun session output candidateDigest => ?_⟩
  simp [State.reservationFor, State.assignmentFor, hfound, hown]

-- ---------------------------------------------------------------------------
-- What a round of the pump leaves alone
-- ---------------------------------------------------------------------------

/-- Properties that survive the append of records. -/
class Filed (I : Impl → Prop) : Prop extends Still I where
  counted : ∀ {i : Impl}, I i → I { i with state := i.state.counted }

namespace Filed

variable {I : Impl → Prop} [Filed I]

theorem onCounted : Keeps I (onState State.counted) := Keeps.update fun _ hi => counted hi

theorem persist (entity : Entity) : Keeps I (persist entity) := by
  have := @onCounted I _
  unfold DistributedCompilation.persist
  grind

theorem persistVoid (entity : Entity) : Keeps I (persistVoid entity) :=
  Keeps.bind (persist entity) fun _ => Keeps.pure _

theorem persistAttempt (id : CompilationAttemptId) : Keeps I (persistAttempt id) := by
  refine Keeps.bind Still.getState fun s => ?_
  split
  · exact persist _
  · exact Keeps.pure _

theorem persistCompilation (id : CompilationId) : Keeps I (persistCompilation id) := by
  refine Keeps.bind Still.getState fun s => ?_
  split
  · exact persist _
  · exact Keeps.pure _

theorem persistWorker (id : WorkerId) : Keeps I (persistWorker id) := by
  refine Keeps.bind Still.getState fun s => ?_
  split
  · exact persist _
  · exact Keeps.pure _

end Filed

/-- Properties that survive a round of `pump`: a compilation is marked, or assigned. -/
class Assigning (I : Impl → Prop) : Prop extends Filed I where
  record : ∀ {i : Impl} {id : CompilationId} {f : CompilationRecord → CompilationRecord}, I i →
    (∀ record, (f record).frozen = record.frozen) → I { i with state := i.state.withCompilation id f }
  assign : ∀ {i : Impl} {id : CompilationId} {compilation : CompilationRecord} (worker : WorkerRecord)
    (speculative : Bool) (createdAt issuedAt updatedAt : UnixMillis), I i →
    i.state.compilations[id]? = some compilation → I { i with state := (i.state.assign id
      (i.state.attemptFor worker compilation speculative createdAt)
      ((i.state.attemptFor worker compilation speculative createdAt).leaseOf issuedAt) updatedAt : State) }

instance State.Awaits.assigning (a : Assignment) (state : AttemptState) :
    Assigning fun i => i.state.Awaits a state where
  quiet hi hstate _ := hstate ▸ hi
  counted hi := by
    obtain ⟨attempt, compilation, hattempt, hstate, hcompilation, hfits⟩ := hi.exact
    exact ⟨hi.numbered, hi.free, attempt, compilation, hattempt, hstate, hcompilation,
      hfits.congr rfl rfl rfl rfl rfl⟩
  record {i id f} hi frozen := by
    obtain ⟨attempt, compilation, hattempt, hstate, hcompilation, hfits⟩ := hi.exact
    have hnext := Table.get_modify i.state.compilations id a.claim.compilation f
    split at hnext
    next hid =>
      refine ⟨hi.numbered, hi.free, attempt, f compilation, hattempt, hstate,
        hnext.trans (by rw [hid, hcompilation, Option.map_some]), ?_⟩
      refine hfits.congr rfl rfl rfl rfl ?_
      rw [CompilationRecord.core, CompilationRecord.core, frozen]
    next =>
      exact ⟨hi.numbered, hi.free, attempt, compilation, hattempt, hstate, hnext.trans hcompilation,
        hfits.congr rfl rfl rfl rfl rfl⟩
  assign {i id compilation'} worker speculative createdAt issuedAt updatedAt hi _ := by
    obtain ⟨attempt, compilation, hattempt, hstate, hcompilation, hfits⟩ := hi.exact
    have hnumbered := hi.numbered
    -- the fresh attempt has another number
    have hfresh : (⟨i.state.header.nextAttemptId⟩ : CompilationAttemptId) ≠ a.claim.attempt := by
      intro h
      rw [← h] at hnumbered
      exact Nat.lt_irrefl _ hnumbered
    have hkept : (i.state.attempts.insert (⟨i.state.header.nextAttemptId⟩ : CompilationAttemptId)
        (i.state.attemptFor worker compilation' speculative createdAt))[a.claim.attempt]? = some attempt := by
      rw [Table.get_insert, if_neg hfresh, hattempt]
    have hnext := Table.get_modify i.state.compilations id a.claim.compilation
      (·.assigned ⟨i.state.header.nextAttemptId⟩ updatedAt)
    split at hnext
    next hid =>
      exact ⟨Nat.lt_succ_of_lt hnumbered, hi.free, attempt,
        compilation.assigned ⟨i.state.header.nextAttemptId⟩ updatedAt, hkept, hstate,
        hnext.trans (by rw [hid, hcompilation, Option.map_some]),
        hfits.congr rfl rfl rfl rfl rfl⟩
    next =>
      exact ⟨Nat.lt_succ_of_lt hnumbered, hi.free, attempt, compilation, hkept, hstate,
        hnext.trans hcompilation, hfits.congr rfl rfl rfl rfl rfl⟩

/-- Compilations are kept under their ids, and these are the authorities. -/
def Impl.Unmoved (authoritative : Table CompilationId ArtifactCommitId) (i : Impl) : Prop :=
  (∀ (id : CompilationId) (record : CompilationRecord), i.state.compilations[id]? = some record → record.id = id) ∧
    i.state.authoritative = authoritative

instance Impl.Unmoved.assigning (authoritative : Table CompilationId ArtifactCommitId) :
    Assigning (Impl.Unmoved authoritative) where
  quiet {i i'} hi hstate _ := by
    rw [Impl.Unmoved, hstate]
    exact hi
  counted hi := hi
  record {i id f} hi frozen := by
    refine ⟨fun key record hrecord => ?_, hi.2⟩
    obtain ⟨old, hold, hupdated⟩ := Table.of_get_modify hrecord
    have hkey := hi.1 key old hold
    rcases hupdated with rfl | ⟨-, rfl⟩
    · exact hkey
    · exact (congrArg CompilationRecord.id (frozen old)).trans hkey
  assign {i id compilation'} worker speculative createdAt issuedAt updatedAt hi _ := by
    refine ⟨fun key record hrecord => ?_, hi.2⟩
    obtain ⟨old, hold, hupdated⟩ := Table.of_get_modify hrecord
    have hkey := hi.1 key old hold
    rcases hupdated with rfl | ⟨-, rfl⟩
    · exact hkey
    · exact hkey

section Pump

variable [HashFunction]

theorem keeps_buildDuplicate {I : Impl → Prop}
    (builds : ∀ worker id speculative, Keeps I (buildAssignment worker id speculative)) (id : CompilationId)
    (request : Option CompilationRequest) (candidates : List WorkerRecord) (others : List RankedWorker) :
    Keeps I (buildDuplicate id request candidates others) := by
  unfold buildDuplicate
  refine Keeps.ite (fun _ => ?_) fun _ => Keeps.pure _
  split
  · exact Keeps.pure _
  · exact Keeps.bind (builds _ _ _) fun _ => Keeps.pure _

/-- A round of `pump` marks a compilation or builds its assignments. -/
theorem keeps_pumpOne {I : Impl → Prop} (state : Keeps I getState)
    (marks : ∀ {id : CompilationId} {f : CompilationRecord → CompilationRecord},
      (∀ record, (f record).frozen = record.frozen) → Keeps I (onCompilation id f))
    (builds : ∀ worker id speculative, Keeps I (buildAssignment worker id speculative)) (id : CompilationId) :
    Keeps I (pumpOne id) := by
  have queued {f : CompilationRecord → CompilationRecord}
      (frozen : ∀ record, (f record).frozen = record.frozen) :
      Keeps I (do onCompilation id f; pure [] : M (List Assignment)) :=
    Keeps.bind (marks frozen) fun _ => Keeps.pure _
  unfold pumpOne
  refine Keeps.bind state fun s => ?_
  split
  · exact Keeps.pure _
  refine Keeps.ite (fun _ => Keeps.pure _) fun _ => Keeps.ite (fun _ => Keeps.pure _) fun _ => ?_
  refine Keeps.ite (fun _ => Keeps.pure _) fun _ => Keeps.ite (fun _ => queued fun _ => rfl) fun _ => ?_
  refine Keeps.ite (fun _ => queued fun _ => rfl) fun _ => ?_
  split
  · exact queued fun _ => rfl
  split
  · exact Keeps.pure _
  refine Keeps.bind (builds _ _ _) fun assignment => ?_
  split
  · exact Keeps.pure _
  · exact Keeps.bind (keeps_buildDuplicate builds _ _ _ _) fun _ => Keeps.pure _

namespace Held

variable {I : Impl → Prop} [Held I]

theorem loadBlob (digest : Digest256) : Keeps I (loadBlob digest) := by
  unfold DistributedCompilation.loadBlob
  grind

theorem loadEach {α β : Type} (digest : α → Digest256) (payload : α → Bytes → β) (xs : List α) :
    Keeps I (loadEach digest payload xs) := by
  induction xs with
  | nil => exact Keeps.pure _
  | cons x xs ih =>
    have := @loadBlob _ I _
    unfold DistributedCompilation.loadEach
    grind

theorem loadLinkInputs (s : State) (compilation : CompilationRecord) (unit : CompilationUnitSpec) :
    Keeps I (loadLinkInputs s compilation unit) := by
  have := @loadBlob _ I _
  have children (job : JobRecord) (children : List UInt32) : Keeps I (loadChildren s job children) := by
    induction children with
    | nil => exact Keeps.pure _
    | cons child children ih =>
      unfold loadChildren
      grind
  unfold DistributedCompilation.loadLinkInputs
  grind

theorem buildAssignment (worker : WorkerRecord) (id : CompilationId) (speculative : Bool) :
    Keeps I (buildAssignment worker id speculative) := by
  unfold DistributedCompilation.buildAssignment
  refine Keeps.bind .read fun i => ?_
  split
  · exact Keeps.pure _
  split
  · exact Keeps.pure _
  refine Keeps.bind (loadEach _ _ _) fun sources => ?_
  split
  · exact Keeps.pure _
  refine Keeps.bind (loadEach _ _ _) fun dependencies => ?_
  split
  · exact Keeps.pure _
  refine Keeps.bind (loadLinkInputs _ _ _) fun children => ?_
  split
  · exact Keeps.pure _
  refine Keeps.bind now fun createdAt => Keeps.bind now fun issuedAt => Keeps.bind now fun updatedAt => ?_
  refine Keeps.bind (onState _) fun _ => Keeps.bind (persistVoid _) fun _ => Keeps.bind (persistVoid _) fun _ => ?_
  refine Keeps.bind (ignoring (persistCompilation _)) fun _ => ?_
  exact Keeps.bind (ignoring (persistWorker _)) fun _ => Keeps.pure _

theorem pump : Keeps I pump := by
  unfold DistributedCompilation.pump
  refine Keeps.bind .read fun i => Keeps.ite (fun _ => ?_) fun _ => Keeps.pure _
  exact Keeps.collect _ fun id _ => keeps_pumpOne getState (fun _ => onCompilation _ _) buildAssignment id

end Held

/-- An assignment is built from what is loaded, or the tables stay as they are. -/
theorem wp_buildAssignment {I : Impl → Prop} [Still I] {i : Impl} (hi : I i) {worker : WorkerRecord}
    {id : CompilationId} {speculative : Bool} {Q : Except Fault (Option Assignment) → Impl → Prop}
    (stops : ∀ r k, I k → k.state = i.state → (∀ a, r ≠ .ok (some a)) → Q r k)
    (goes : ∀ compilation request unit sources dependencies children createdAt issuedAt updatedAt k,
      i.state.compilations[id]? = some compilation → i.state.resolve compilation = some (request, unit) →
      I k → k.state = i.state → Program.wp (do
        persistVoid (.lease ((i.state.attemptFor worker compilation speculative createdAt).leaseOf issuedAt))
        persistVoid (.attempt (i.state.attemptFor worker compilation speculative createdAt))
        ignoring (persistCompilation id)
        ignoring (persistWorker worker.id)
        pure (some { i.state.assignmentFor i.config worker compilation request unit
          (i.state.attemptFor worker compilation speculative createdAt)
          ((i.state.attemptFor worker compilation speculative createdAt).leaseOf issuedAt) with
          sources, dependencies, children })) Q
        { k with state := (i.state.assign id (i.state.attemptFor worker compilation speculative createdAt)
          ((i.state.attemptFor worker compilation speculative createdAt).leaseOf issuedAt) updatedAt : State) }) :
    Program.wp (buildAssignment worker id speculative) Q i := by
  have stop (k : Impl) (hk : I k ∧ k.state = i.state) : Q (.ok none) k :=
    stops _ k hk.1 hk.2 fun a h => by cases h
  have left (fault : Fault) (k : Impl) (hk : I k ∧ k.state = i.state) : Q (.error fault) k :=
    stops _ k hk.1 hk.2 fun a h => by cases h
  unfold buildAssignment
  rw [Program.wp_read_bind]
  split
  next => exact stop i ⟨hi, rfl⟩
  next compilation hcompilation =>
  split
  next => exact stop i ⟨hi, rfl⟩
  next request unit hresolve =>
  refine Program.wp_seq (fun _ k => I k ∧ k.state = i.state) (Still.loadEach _ _ _ i ⟨hi, rfl⟩)
    (fun sources j hj => ?_) left
  split
  next => exact stop j hj
  next sources =>
  refine Program.wp_seq (fun _ k => I k ∧ k.state = i.state) (Still.loadEach _ _ _ j hj)
    (fun dependencies j hj => ?_) left
  split
  next => exact stop j hj
  next dependencies =>
  refine Program.wp_seq (fun _ k => I k ∧ k.state = i.state) (Still.loadLinkInputs _ _ _ j hj)
    (fun children j hj => ?_) left
  split
  next => exact stop j hj
  next children =>
  refine Still.wp_now hj.1 fun createdAt j₁ h₁ same₁ => ?_
  refine Still.wp_now h₁ fun issuedAt j₂ h₂ same₂ => ?_
  refine Still.wp_now h₂ fun updatedAt j₃ h₃ same₃ => ?_
  have hstate : j₃.state = i.state := same₃.trans (same₂.trans (same₁.trans hj.2))
  rw [Still.wp_onState_bind, hstate]
  exact goes compilation request unit sources dependencies children createdAt issuedAt updatedAt j₃ hcompilation
    hresolve h₃ hstate

omit [HashFunction] in
/-- The records of an assignment are appended, and it is handed out. -/
theorem wp_filed {I : Impl → Prop} [Filed I] {i : Impl} (hi : I i) (lease : CompileLease)
    (attempt : CompilationAttempt) (id : CompilationId) (worker : WorkerId) (a : Assignment) :
    Program.wp (do
      persistVoid (.lease lease)
      persistVoid (.attempt attempt)
      ignoring (persistCompilation id)
      ignoring (persistWorker worker)
      pure (some a) : M (Option Assignment)) (fun r j => I j ∧ ∀ result, r = .ok result → result = some a) i := by
  have failed (fault : Fault) (k : Impl) (hk : I k) :
      I k ∧ ∀ result, (.error fault : Except Fault (Option Assignment)) = .ok result → result = some a :=
    ⟨hk, fun _ h => by cases h⟩
  refine Program.wp_seq (fun _ k => I k) (Filed.persistVoid _ i hi) (fun _ j₁ h₁ => ?_) failed
  refine Program.wp_seq (fun _ k => I k) (Filed.persistVoid _ j₁ h₁) (fun _ j₂ h₂ => ?_) failed
  refine Program.wp_seq (fun _ k => I k) (Still.ignoring (Filed.persistCompilation _) j₂ h₂) (fun _ j₃ h₃ => ?_) failed
  refine Program.wp_seq (fun _ k => I k) (Still.ignoring (Filed.persistWorker _) j₃ h₃) (fun _ j₄ h₄ => ?_) failed
  exact ⟨h₄, fun _ h => (Except.ok.inj h).symm⟩

omit [HashFunction] in
theorem wp_filed_awaits {i : Impl} {a : Assignment} {state : AttemptState} (awaits : i.state.Awaits a state)
    (lease : CompileLease) (attempt : CompilationAttempt) (id : CompilationId) (worker : WorkerId) :
    Program.wp (do
      persistVoid (.lease lease)
      persistVoid (.attempt attempt)
      ignoring (persistCompilation id)
      ignoring (persistWorker worker)
      pure (some a) : M (Option Assignment)) (fun r j => Program.Returned (j.state.Awaits · state) r) i := by
  refine Program.wp_mono (wp_filed (I := fun j => j.state.Awaits a state) awaits lease attempt id worker a) ?_
  rintro r j ⟨hj, hresult⟩
  cases r with
  | ok result =>
    obtain rfl := hresult result rfl
    exact hj
  | error fault => trivial

namespace Assigning

variable {I : Impl → Prop} [Assigning I]

omit [HashFunction] in
theorem onCompilation {id : CompilationId} {f : CompilationRecord → CompilationRecord}
    (frozen : ∀ record, (f record).frozen = record.frozen) : Keeps I (onCompilation id f) :=
  Keeps.update fun _ hi => record hi frozen

theorem buildAssignment (worker : WorkerRecord) (id : CompilationId) (speculative : Bool) :
    Keeps I (buildAssignment worker id speculative) := by
  intro i hi
  refine wp_buildAssignment hi (fun r k hk _ _ => hk) ?_
  intro compilation request unit sources dependencies children createdAt issuedAt updatedAt k hcompilation _ hk hstate
  refine Program.wp_mono (wp_filed ?_ _ _ _ _ _) fun _ _ h => h.1
  rw [← hstate] at hcompilation ⊢
  exact assign worker speculative createdAt issuedAt updatedAt hk hcompilation

theorem pumpOne (id : CompilationId) : Keeps I (pumpOne id) :=
  keeps_pumpOne Still.getState onCompilation buildAssignment id

end Assigning

/-- An assignment waits once it is built, if its compilation has no authority. -/
theorem wp_buildAssignment_awaits {i : Impl} {id : CompilationId}
    (keyed : ∀ record : CompilationRecord, i.state.compilations[id]? = some record → record.id = id)
    (free : i.state.authoritative[id]? = none) (worker : WorkerRecord) (speculative : Bool) :
    Program.wp (buildAssignment worker id speculative)
      (fun r j => Program.Returned (j.state.Awaits · .assigned) r) i := by
  refine wp_buildAssignment (I := fun _ => True) trivial (fun r k _ _ hr => ?_) ?_
  · cases r with
    | ok assignment =>
      cases assignment with
      | none => trivial
      | some a => exact absurd rfl (hr a)
    | error fault => trivial
  · intro compilation request unit sources dependencies children createdAt issuedAt updatedAt k hcompilation hresolve
      _ _
    obtain rfl := keyed compilation hcompilation
    have hfits := State.Fits.built hresolve i.config worker
      (i.state.attemptFor worker compilation speculative createdAt)
      ((i.state.attemptFor worker compilation speculative createdAt).leaseOf issuedAt) sources dependencies children
    have hawaits : (i.state.assign compilation.id (i.state.attemptFor worker compilation speculative createdAt)
        ((i.state.attemptFor worker compilation speculative createdAt).leaseOf issuedAt) updatedAt).Awaits
          { i.state.assignmentFor i.config worker compilation request unit
            (i.state.attemptFor worker compilation speculative createdAt)
            ((i.state.attemptFor worker compilation speculative createdAt).leaseOf issuedAt) with
            sources, dependencies, children } .assigned := by
      refine ⟨Nat.lt_succ_self _, free, _, compilation.assigned ⟨i.state.header.nextAttemptId⟩ updatedAt, ?_, rfl,
        ?_, hfits.congr rfl rfl rfl rfl rfl⟩
      · exact (Table.get_insert _ _ _ _).trans (if_pos rfl)
      · exact (Table.get_modify _ _ _ _).trans ((if_pos rfl).trans (by rw [hcompilation]; rfl))
    exact wp_filed_awaits hawaits _ _ _ _

/-- A round hands out what waits for its worker. -/
theorem wp_pumpOne_awaits (authoritative : Table CompilationId ArtifactCommitId) (id : CompilationId) {i : Impl}
    (hi : i.Unmoved authoritative) : Program.wp (pumpOne id)
      (fun r j => j.Unmoved authoritative ∧ Program.Collected (j.state.Awaits · .assigned) r) i := by
  have unmoved := Assigning.pumpOne (I := Impl.Unmoved authoritative) id i hi
  refine Program.wp_and unmoved ?_
  have queued (f : CompilationRecord → CompilationRecord) : Program.wp (do
      onCompilation id f
      pure [] : M (List Assignment)) (fun r j => Program.Collected (j.state.Awaits · .assigned) r) i :=
    fun _ h => absurd h List.not_mem_nil
  have nothing : Program.wp (pure [] : M (List Assignment))
      (fun r j => Program.Collected (j.state.Awaits · .assigned) r) i := fun _ h => absurd h List.not_mem_nil
  unfold pumpOne
  rw [Still.wp_getState_bind]
  split
  next => exact nothing
  next compilation hcompilation =>
  split
  next => exact nothing
  next =>
  split
  next => exact nothing
  next hfree =>
  split
  next => exact nothing
  next =>
  split
  next => exact queued _
  next =>
  simp only
  split
  next => exact queued _
  next =>
  split
  next => exact queued _
  next best others _ =>
  split
  next => exact nothing
  next chosen _ =>
  have free (j : Impl) (hj : j.Unmoved authoritative) : j.state.authoritative[id]? = none := by
    rw [hj.2, ← hi.2]
    exact Table.contains_eq_false.mp (Bool.eq_false_of_not_eq_true hfree)
  refine Program.wp_seq (fun r j => j.Unmoved authoritative ∧
    Program.Returned (j.state.Awaits · .assigned) r) (Program.wp_and (Assigning.buildAssignment _ _ _ i hi)
      (wp_buildAssignment_awaits (hi.1 id) (free i hi) chosen false)) (fun assignment j hj => ?_) fun _ _ _ => trivial
  split
  next => exact fun _ h => absurd h List.not_mem_nil
  next assignment =>
    refine Program.wp_seq (fun r k => k.state.Awaits assignment .assigned ∧
      Program.Collected (k.state.Awaits · .assigned) r) (Program.wp_and
        (keeps_buildDuplicate (Assigning.buildAssignment (I := fun k => k.state.Awaits assignment .assigned)) _ _ _ _
          j hj.2) ?_) ?_
      fun _ _ _ => trivial
    · unfold buildDuplicate
      split
      · split
        · exact fun _ h => absurd h List.not_mem_nil
        · refine Program.wp_seq _ (wp_buildAssignment_awaits (hj.1.1 id) (free j hj.1) _ true) ?_
            fun _ _ _ => trivial
          intro duplicate k hk other hother
          obtain rfl := Option.mem_toList.mp hother
          exact hk
      · exact fun _ h => absurd h List.not_mem_nil
    · rintro duplicate k ⟨hfirst, hsecond⟩ other hother
      rcases List.mem_cons.mp hother with rfl | hother
      · exact hfirst
      · exact hsecond other hother

/-- So does `pump`. -/
theorem wp_pump_awaits {i : Impl} (keyed : i.state.Keyed) :
    Program.wp pump (fun r j => Program.Collected (j.state.Awaits · .assigned) r) i := by
  unfold pump
  rw [Program.wp_read_bind]
  split
  · refine Program.wp_mono (Program.wp_collect (I := Impl.Unmoved i.state.authoritative) _
      (fun id j hj => wp_pumpOne_awaits _ id hj) (fun a id => Assigning.pumpOne id) ?_) fun _ _ h => h.2
    exact ⟨keyed.compilation, rfl⟩
  · exact fun _ h => absurd h List.not_mem_nil

end Pump

-- ---------------------------------------------------------------------------
-- Begin
-- ---------------------------------------------------------------------------

/-- The records of a begin are appended, and only that may fail. -/
theorem wp_persistBegun {I : Impl → Prop} [Filed I] {i : Impl} (hi : I i) (attempt : CompilationAttemptId)
    (compilation : CompilationId) : Program.wp (do
      orReturn (persistAttempt attempt)
      orReturn (persistCompilation compilation)) (fun r j =>
        (∀ status, r = .error (.status status) → i.config.enablePersistence = true) ∧
        I j ∧ j.opened = i.opened ∧ j.config = i.config) i := by
  have hkeeps : Keeps I (do orReturn (persistAttempt attempt); orReturn (persistCompilation compilation)) :=
    Keeps.bind (Still.orReturn (Filed.persistAttempt _)) fun _ => Still.orReturn (Filed.persistCompilation _)
  have hheld {J : Impl → Prop} [Held J] :
      Keeps J (do orReturn (persistAttempt attempt); orReturn (persistCompilation compilation)) :=
    Keeps.bind (Held.orReturn (Held.persistAttempt _)) fun _ => Held.orReturn (Held.persistCompilation _)
  refine Program.wp_and ?_ (Program.wp_and (hkeeps i hi) (Program.wp_and
    (hheld (J := fun j => j.opened = i.opened) i rfl) (hheld (J := fun j => j.config = i.config) i rfl)))
  refine Program.wp_seq _ (Program.wp_and (wp_orReturn_persistAttempt attempt)
    (Held.orReturn (Held.persistAttempt (I := fun j => j.config = i.config) attempt) i rfl)) ?_ ?_
  · rintro ⟨⟩ j ⟨-, hconfig⟩
    rw [← hconfig]
    exact wp_orReturn_persistCompilation compilation
  · rintro fault j ⟨hstatus, -⟩ status h
    obtain rfl := Except.error.inj h
    exact hstatus status rfl

/-- The begin of an assignment that waits goes through, up to what is persisted. -/
theorem wp_beginCompile_awaits {i : Impl} (opened : i.opened = true) {a : Assignment}
    (awaits : i.state.Awaits a .assigned) :
    Program.wp (beginCompile a.claim) (fun r j =>
      (∀ status, r = .error (.status status) → i.config.enablePersistence = true) ∧
      (r = .ok () → j.state.Awaits a .preparing ∧ j.opened = i.opened ∧ j.config = i.config)) i := by
  obtain ⟨attempt, compilation, hattempt, hassigned, hcompilation, hfits⟩ := awaits.exact
  have hauthority := validateAuthority_eq_ok.mpr hfits.claim
  have hleads : attempt.state.Leads .preparing := .inr (by rw [hassigned]; decide)
  unfold beginCompile
  rw [wp_ensureOpen_bind_iff, if_pos opened, Still.wp_getState_bind]
  simp only [hattempt, hcompilation, hauthority, hassigned, ne_eq, not_true_eq_false, false_and, if_false, if_true]
  refine Program.wp_seq (fun r j => r = .ok () ∧ j = { i with state :=
    (i.state.withAttempt a.claim.attempt fun _ => { attempt with state := .preparing } : State) }) ?_ ?_ ?_
  · refine wp_orReturn (wp_transitionAttempt hattempt .preparing) ?_ ?_ ?_
    · rintro j (⟨-, -, rfl⟩ | ⟨hillegal, -⟩)
      · exact ⟨rfl, rfl⟩
      · exact absurd hleads hillegal
    · rintro status j (⟨-, hr, -⟩ | ⟨hillegal, -⟩)
      · cases hr
      · exact absurd hleads hillegal
    · rintro fault j (⟨-, hr, -⟩ | ⟨hillegal, -⟩)
      · cases hr
      · exact absurd hleads hillegal
  · rintro ⟨⟩ j ⟨-, rfl⟩
    rw [Still.wp_now_bind, onAttempt, Still.wp_onState_bind, onCompilation, Still.wp_onState_bind]
    refine Program.wp_mono (wp_persistBegun (I := fun j => j.state.Awaits a .preparing) ?_ _ _) ?_
    · refine ⟨awaits.numbered, awaits.free, { attempt with state := .preparing, startedAt := i.readings.headD 0 },
        { compilation with
          state := if compilation.state = .committed then .committed else .running
          updatedAt := i.readings.headD 0 }, ?_, rfl, ?_, hfits.congr rfl rfl rfl rfl rfl⟩
      · refine (Table.get_modify _ _ _ _).trans ((if_pos rfl).trans ?_)
        exact congrArg _ ((Table.get_modify _ _ _ _).trans ((if_pos rfl).trans (by rw [hattempt])))
      · exact (Table.get_modify _ _ _ _).trans ((if_pos rfl).trans (congrArg (Option.map _) hcompilation))
    · rintro r j ⟨hstatus, hawaits, hopened, hconfig⟩
      exact ⟨hstatus, fun _ => ⟨hawaits, hopened, hconfig⟩⟩
  · rintro fault j ⟨h, -⟩
    cases h

-- ---------------------------------------------------------------------------
-- From the assignment to the commit
-- ---------------------------------------------------------------------------

section

variable [HashFunction]

/-- A report about the assignment that a worker may make: under its claim, from a session
of the worker boot it went to, with bytes within the bounds that the assignment's own
requirements let pass. -/
structure Impl.Delivers (i : Impl) (a : Assignment) (session : SessionId) (output : ReportOutput)
    (smoke : SmokeTest) : Prop where
  claim : output.claim = a.claim
  speaks : ∃ record : SessionRecord, i.state.sessions[session]? = some record ∧ record.isWorker = true ∧
    record.worker = a.claim.worker ∧ record.boot = a.claim.workerBoot
  bounded : output.bytes.length ≤ i.config.maxArtifactBytes ∧ output.bytes.length ≤ i.config.maxBlobBytes
  declared : output.declaredDigest.isZero = true ∨ sha256 output.bytes = output.declaredDigest
  nonzero : (sha256 output.bytes).isZero = false
  passes : (Reservation.validate { session, output, candidateDigest := sha256 output.bytes, target := a.target
                                   requirements := a.validation, outputKind := a.outputKind } smoke).aggregate = .pass

/-- The verdict on it is the commit. -/
theorem Impl.Delivers.verdict {i : Impl} {a : Assignment} {session : SessionId} {output : ReportOutput}
    {smoke : SmokeTest} (h : i.Delivers a session output smoke) (opened : i.opened = true)
    (awaits : i.state.Awaits a .preparing) : Server.verdict i session output smoke = .ok (.committed, .ok) := by
  obtain ⟨attempt, compilation, hattempt, hstate, hcompilation, hfits⟩ := awaits.exact
  obtain ⟨record, hrecord, hworker, hid, hboot⟩ := h.speaks
  have howns : record.owns attempt = true := by
    have hclaimed := hfits.claim
    rw [SessionRecord.owns, hid, hboot, hclaimed]
    simp [State.expectationFor]
  have hauthority := validateAuthority_eq_ok.mpr hfits.claim
  have hadmits : Server.admits i session output = .ok compilation := by
    have hdeclared : ¬(¬output.declaredDigest.isZero = true ∧ sha256 output.bytes ≠ output.declaredDigest) := by
      rintro ⟨hzero, hdiffers⟩
      rcases h.declared with hdeclared | hdeclared
      · exact hzero hdeclared
      · exact hdiffers hdeclared
    have hlarge := Nat.not_lt.mpr h.bounded.1
    have hworking : ¬(attempt.state ≠ .running ∧ attempt.state ≠ .preparing) := fun hidle => hidle.2 hstate
    simp only [Server.admits, opened, h.claim, hattempt, hcompilation, hrecord, Server.grants, hworker, howns,
      hauthority, if_neg hworking, if_neg hlarge, if_neg hdeclared, not_true_eq_false, if_false]
  have hlive : i.state.liveCommit a.claim.compilation = none := by
    rw [State.liveCommit, awaits.free]
    rfl
  rw [Server.verdict, hadmits]
  simp only [if_neg (Nat.not_lt.mpr h.bounded.2), Server.settles, h.nonzero, h.claim, hfits.reservation, h.passes,
    hlive]
  rfl

end

/-- Two units are submitted and a worker is ready for them. -/
def pairOffer : List Op := [.submit pairBundle, .registerWorker smallWorker, .markReady ⟨1⟩]

theorem runs_pairOffer : Runs volatileFirst (System.stepsOf pairOffer volatileFirst)
    (System.perform pairOffer volatileFirst) := Runs.perform pairOffer volatileFirst rfl

/-- What `pump` hands out there, -/
def pairPumped : Except Fault (List Assignment) × Impl :=
  pump.run (System.given {} (System.perform pairOffer volatileFirst).impl)

def pairFirst : Assignment := (pairPumped.1.toOption.getD []).headD {}

/-- the begin of the first of it, -/
def pairBegan : Except Fault Unit × Impl := (beginCompile pairFirst.claim).run pairPumped.2

/-- and the report about it. -/
def shortReport (claim : AuthorityClaim) : ReportOutput := { claim, bytes := txt "o" }

def pairReported : Except Fault CommitDecision × Impl :=
  (Server.reportOutput ⟨1⟩ (shortReport pairFirst.claim) none).run pairBegan.2

set_option maxRecDepth 100000 in
theorem pairReported_checks : (pairPumped.1.toOption.getD []).length = 2 ∧ pairBegan.1.isOk = true ∧
    (pairBegan.2.state.sessions[(⟨1⟩ : SessionId)]?).any (fun record => record.isWorker &&
      record.worker == pairFirst.claim.worker && record.boot == pairFirst.claim.workerBoot) = true ∧
    (shortReport pairFirst.claim).bytes.length ≤
      min pairBegan.2.config.maxArtifactBytes pairBegan.2.config.maxBlobBytes ∧
    (sha256 (shortReport pairFirst.claim).bytes).isZero = false ∧
    (Reservation.validate { session := ⟨1⟩, output := shortReport pairFirst.claim
                            candidateDigest := sha256 (shortReport pairFirst.claim).bytes
                            target := pairFirst.target, requirements := pairFirst.validation
                            outputKind := pairFirst.outputKind } none).aggregate = .pass ∧
    pairReported.1.isOk = true := by
  rw [pairReported, shortReport, pairBegan, pairFirst, pairPumped, pairOffer, volatileFirst, pairBundle,
    hashFunction_eq]
  decide +kernel

theorem eq_mk_of_fst {α β : Type} {p : α × β} {a : α} (h : p.1 = a) : p = (a, p.2) := by
  rw [← h]

/-- All of it succeeds. -/
theorem pairReported_delivers : ∃ assignments decision, pairPumped = (.ok assignments, pairPumped.2) ∧
    pairFirst ∈ assignments ∧ pairBegan = (.ok (), pairBegan.2) ∧
    pairBegan.2.Delivers pairFirst ⟨1⟩ (shortReport pairFirst.claim) none ∧ pairReported.1 = .ok decision := by
  obtain ⟨hhanded, hbegan, hspeaks, hbounded, hnonzero, hpasses, hreported⟩ := pairReported_checks
  cases hpumped : pairPumped.1 with
  | error fault =>
    rw [hpumped] at hhanded
    cases hhanded
  | ok assignments =>
    cases hdecision : pairReported.1 with
    | error fault =>
      rw [hdecision] at hreported
      cases hreported
    | ok decision =>
      refine ⟨assignments, decision, eq_mk_of_fst hpumped, ?_, eq_mk_of_fst (eq_ok_of_isOk hbegan), ?_, rfl⟩
      · rw [pairFirst, hpumped]
        rw [hpumped] at hhanded
        cases assignments with
        | nil => cases hhanded
        | cons a others => exact List.mem_cons_self
      · obtain ⟨record, hrecord, hfields⟩ := (Option.any_eq_true _ _).mp hspeaks
        simp only [Bool.and_eq_true, beq_iff_eq] at hfields
        have hclaim (claim : AuthorityClaim) : (shortReport claim).claim = claim ∧
            (shortReport claim).declaredDigest.isZero = true :=
          ⟨rfl, (by decide : (default : Digest256).isZero = true)⟩
        exact ⟨(hclaim _).1, ⟨record, hrecord, hfields.1.1, hfields.1.2, hfields.2⟩,
          Nat.le_min.mp hbounded, .inl (hclaim _).2, hnonzero, hpasses⟩

end DistributedCompilation
