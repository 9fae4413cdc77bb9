import DistributedCompilation.Safety.Touched

/-!
# Distributed Compilation — what most sections leave alone

Registries, commits, the authoritative map and the generations of compilations
are the core of the state. Few sections write to it; `Framed` collects the
properties the others preserve, whatever they are, so that a new property only
has to be proved across the sections that do.
-/

namespace DistributedCompilation

open Program (Keeps)

-- ---------------------------------------------------------------------------
-- The core
-- ---------------------------------------------------------------------------

/-- The second state has the core of the first. -/
structure State.SameCore (s s' : State) : Prop where
  registries : s'.registries = s.registries
  commits : s'.commits = s.commits
  authoritative : s'.authoritative = s.authoritative
  counter : s'.header.nextCommitId = s.header.nextCommitId
  generations : ∀ id : CompilationId, (s'.compilations[id]?).map (·.generation) =
    (s.compilations[id]?).map (·.generation)

namespace State.SameCore

@[grind ←] theorem refl (s : State) : s.SameCore s := ⟨rfl, rfl, rfl, rfl, fun _ => rfl⟩

/-- Tables outside the core. -/
theorem outside {s s' : State} (registries : s'.registries = s.registries) (commits : s'.commits = s.commits)
    (authoritative : s'.authoritative = s.authoritative)
    (counter : s'.header.nextCommitId = s.header.nextCommitId)
    (compilations : s'.compilations = s.compilations) : s.SameCore s' :=
  ⟨registries, commits, authoritative, counter, fun id => by rw [compilations]⟩

/-- Compilation records move within their generation. -/
@[grind ←] theorem withCompilation (s : State) (id : CompilationId)
    {f : CompilationRecord → CompilationRecord}
    (h : ∀ record, (f record).generation = record.generation) : s.SameCore (s.withCompilation id f) := by
  refine ⟨rfl, rfl, rfl, rfl, fun i => ?_⟩
  rw [State.withCompilation, Table.get_modify]
  split
  next heq =>
    subst heq
    rw [Option.map_map]
    exact congrArg (Option.map · _) (funext h)
  next => rfl

@[grind ←] theorem withAttempt (s : State) (id : CompilationAttemptId)
    (f : CompilationAttempt → CompilationAttempt) : s.SameCore (s.withAttempt id f) :=
  outside rfl rfl rfl rfl rfl

@[grind ←] theorem withWorker (s : State) (id : WorkerId) (f : WorkerRecord → WorkerRecord) :
    s.SameCore (s.withWorker id f) := outside rfl rfl rfl rfl rfl

@[grind ←] theorem withLease (s : State) (id : LeaseId) (f : CompileLease → CompileLease) :
    s.SameCore (s.withLease id f) := outside rfl rfl rfl rfl rfl

@[grind ←] theorem withSession (s : State) (id : SessionId) (f : SessionRecord → SessionRecord) :
    s.SameCore (s.withSession id f) := outside rfl rfl rfl rfl rfl

@[grind ←] theorem withCacheEntry (s : State) (id : CacheEntryId) (f : CacheEntry → CacheEntry) :
    s.SameCore (s.withCacheEntry id f) := outside rfl rfl rfl rfl rfl

@[grind ←] theorem withJob (s : State) (identity : Digest256) (f : JobRecord → JobRecord) :
    s.SameCore (s.withJob identity f) := outside rfl rfl rfl rfl rfl

@[grind ←] theorem putJob (s : State) (identity : Digest256) (job : JobRecord) :
    s.SameCore (s.putJob identity job) := outside rfl rfl rfl rfl rfl

@[grind ←] theorem control (s : State) (messages : List ControlMessage) :
    s.SameCore (s.control messages) := outside rfl rfl rfl rfl rfl

@[grind ←] theorem counted (s : State) : s.SameCore s.counted := outside rfl rfl rfl rfl rfl

@[grind ←] theorem uncounted (s : State) : s.SameCore s.uncounted := outside rfl rfl rfl rfl rfl

@[grind ←] theorem drawCacheEntryId (s : State) : s.SameCore s.drawCacheEntryId :=
  outside rfl rfl rfl rfl rfl

@[grind ←] theorem indexEntry (s : State) (entry : CacheEntry) : s.SameCore (s.indexEntry entry) :=
  outside rfl rfl rfl rfl rfl

@[grind ←] theorem revokeLeasesFor (s : State) (worker : WorkerId) (reason : Bytes) :
    s.SameCore (s.revokeLeasesFor worker reason) := outside rfl rfl rfl rfl rfl

@[grind ←] theorem addIntermediate (s : State) (artifact : IntermediateArtifact) :
    s.SameCore (s.addIntermediate artifact) := outside rfl rfl rfl rfl rfl

@[grind ←] theorem enroll (s : State) (worker : WorkerRecord) (session : SessionRecord) :
    s.SameCore (s.enroll worker session) := outside rfl rfl rfl rfl rfl

@[grind ←] theorem retain (s : State) (request : CompilationRequest) : s.SameCore (s.retain request) :=
  outside rfl rfl rfl rfl rfl

@[grind ←] theorem assign (s : State) (id : CompilationId) (attempt : CompilationAttempt)
    (lease : CompileLease) (updatedAt : UnixMillis) :
    s.SameCore (s.assign id attempt lease updatedAt) := by
  obtain ⟨-, -, -, -, generations⟩ := withCompilation s id (f := (·.assigned attempt.id updatedAt))
    fun _ => rfl
  exact ⟨rfl, rfl, rfl, rfl, generations⟩

@[grind ←] theorem restart (s : State) (openedAt : UnixMillis) : s.SameCore (s.restart openedAt) :=
  outside rfl rfl rfl rfl rfl

@[grind ←] theorem revokeAllLeases (s : State) : s.SameCore s.revokeAllLeases :=
  outside rfl rfl rfl rfl rfl

@[grind ←] theorem requeue (s : State) : s.SameCore s.requeue := by
  refine ⟨rfl, rfl, rfl, rfl, fun id => ?_⟩
  rw [State.requeue, Table.get_map, Option.map_map]
  refine congrArg (Option.map · _) (funext fun record => ?_)
  simp only [Function.comp_apply]
  split
  · rfl
  · split <;> rfl

/-- A touch leaves the core alone. -/
theorem of_touch {s s' : State} (h : Touch s s') : s.SameCore s' := by
  cases h with
  | note h =>
    have hheader := congrArg StateHeader.nextCommitId h.stable
    exact outside h.registries h.commits h.authoritative hheader h.compilations
  | record id h => exact withCompilation s id fun record => congrArg (·.generation) (h record)
  | attempt id => exact outside rfl rfl rfl rfl rfl
  | worker id => exact outside rfl rfl rfl rfl rfl
  | lease id => exact outside rfl rfl rfl rfl rfl
  | revoke worker reason => exact outside rfl rfl rfl rfl rfl
  | session id => exact outside rfl rfl rfl rfl rfl

end State.SameCore

/-- The core is the same, and the snapshot on disk is the old one or that of the
state. -/
structure Impl.SameCore (i i' : Impl) : Prop where
  state : i.state.SameCore i'.state
  snapshot : i'.store.snapshot = i.store.snapshot ∨
    (encodeState i.state).fits = true ∧ i'.store.snapshot = (encodeState i.state).bytes

/-- Properties that only look at the core and at what the snapshot is of. -/
class Framed (I : Impl → Prop) : Prop where
  frame : ∀ {i i' : Impl}, I i → i.SameCore i' → I i'

namespace Framed

variable {I : Impl → Prop} [Framed I]

instance : Touched I where
  quiet hi hstate hwrote := frame hi ⟨hstate ▸ .refl _, hwrote⟩
  touch hi h := frame hi ⟨.of_touch h, .inl rfl⟩

@[grind ←] theorem onState {g : State → State} (h : ∀ s : State, s.SameCore (g s)) :
    Keeps I (onState g) := Keeps.update fun i hi => frame hi ⟨h i.state, .inl rfl⟩

@[grind ←] theorem onAttempt (id : CompilationAttemptId) (f : CompilationAttempt → CompilationAttempt) :
    Keeps I (onAttempt id f) := onState fun s => .withAttempt s id f

@[grind ←] theorem onWorker (id : WorkerId) (f : WorkerRecord → WorkerRecord) :
    Keeps I (onWorker id f) := onState fun s => .withWorker s id f

-- ---------------------------------------------------------------------------
-- Scheduling and workers
-- ---------------------------------------------------------------------------

section

variable [HashFunction]

@[grind ←] theorem buildAssignment (worker : WorkerRecord) (id : CompilationId) (speculative : Bool) :
    Keeps I (buildAssignment worker id speculative) := by
  unfold DistributedCompilation.buildAssignment
  refine Keeps.bind .read fun i => ?_
  split
  · exact Keeps.pure _
  · split
    · exact Keeps.pure _
    · refine Keeps.bind (Still.loadEach _ _ _) fun sources => ?_
      split
      · exact Keeps.pure _
      · refine Keeps.bind (Still.loadEach _ _ _) fun dependencies => ?_
        split
        · exact Keeps.pure _
        · refine Keeps.bind (Still.loadLinkInputs _ _ _) fun children => ?_
          split
          · exact Keeps.pure _
          · refine Keeps.bind Still.now fun createdAt => Keeps.bind Still.now fun issuedAt => ?_
            refine Keeps.bind Still.now fun updatedAt => ?_
            refine Keeps.bind (onState fun s => .assign s _ _ _ _) fun _ => ?_
            grind

@[grind ←] theorem buildDuplicate (id : CompilationId) (request : Option CompilationRequest)
    (candidates : List WorkerRecord) (others : List RankedWorker) :
    Keeps I (buildDuplicate id request candidates others) := by
  unfold DistributedCompilation.buildDuplicate
  grind

@[grind ←] theorem pumpOne (id : CompilationId) : Keeps I (pumpOne id) := by
  unfold DistributedCompilation.pumpOne
  refine Keeps.bind Still.getState fun s => ?_
  split
  · exact Keeps.pure _
  · refine Keeps.ite (fun _ => Keeps.pure _) fun _ => Keeps.ite (fun _ => Keeps.pure _) fun _ =>
      Keeps.ite (fun _ => Keeps.pure _) fun _ => ?_
    have queued {f : CompilationRecord → CompilationRecord}
        (h : ∀ record, (f record).frozen = record.frozen) :
        Keeps I (do DistributedCompilation.onCompilation id f; pure [] : M (List Assignment)) :=
      Keeps.bind (Touched.onCompilation h) fun _ => Keeps.pure _
    refine Keeps.ite (fun _ => queued fun _ => rfl) fun _ => Keeps.ite (fun _ => queued fun _ => rfl) fun _ => ?_
    split
    · exact queued fun _ => rfl
    · grind

@[grind ←] theorem pump : Keeps I pump := by
  unfold DistributedCompilation.pump
  grind


@[grind ←] theorem registerWorker (registration : WorkerRegistration) :
    Keeps I (registerWorker registration) := by
  unfold DistributedCompilation.registerWorker
  grind


omit [HashFunction] in
@[grind ←] theorem markReady (session : SessionId) : Keeps I (markReady session) := by
  unfold DistributedCompilation.markReady
  grind


@[grind ←] theorem fenceAtRestart (id : WorkerId) : Keeps I (fenceAtRestart id) := by
  unfold DistributedCompilation.fenceAtRestart
  grind

omit [HashFunction] in
@[grind ←] theorem interruptAttempt (id : CompilationAttemptId) : Keeps I (interruptAttempt id) := by
  unfold DistributedCompilation.interruptAttempt
  grind

@[grind ←] theorem restartState : Keeps I restartState := by
  unfold DistributedCompilation.restartState
  refine Keeps.bind Still.now fun openedAt => Keeps.bind (onState fun s => .restart s _) fun _ => ?_
  refine Keeps.bind Still.getState fun s => ?_
  refine Keeps.bind (Keeps.forEach _ fun id _ => fenceAtRestart id) fun _ => ?_
  refine Keeps.bind (onState fun s => .revokeAllLeases s) fun _ => Keeps.bind Still.getState fun s => ?_
  refine Keeps.bind (Keeps.forEach _ fun id _ => interruptAttempt id) fun _ => ?_
  exact onState fun s => .requeue s


end

end Framed

end DistributedCompilation
