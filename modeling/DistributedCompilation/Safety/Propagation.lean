import DistributedCompilation.Safety.Touched

/-!
# Distributed Compilation — failures of children

What `propagate_fan_in_failure` does to the tables: the waiting parents over the lost
child fail, and nothing else moves.
-/

namespace DistributedCompilation

open Program (Keeps)

-- ---------------------------------------------------------------------------
-- Sections that write to the journal only
-- ---------------------------------------------------------------------------

/-- Properties of the tables and of the configuration. -/
class Logged (I : Impl → Prop) : Prop where
  logged : ∀ {i j : Impl}, I i → j.state = i.state ∨ j.state = i.state.counted → j.config = i.config → I j

namespace Logged

variable {I : Impl → Prop} [Logged I]

theorem update {f : Impl → Impl} (state : ∀ i : Impl, (f i).state = i.state)
    (config : ∀ i : Impl, (f i).config = i.config) : Keeps I (Program.update f : M Unit) :=
  Keeps.update fun i hi => logged hi (.inl (state i)) (config i)

@[grind ←] theorem now : Keeps I now :=
  Keeps.bind .read fun _ => Keeps.bind (update (fun _ => rfl) fun _ => rfl) fun _ => .pure _

@[grind ←] theorem ioSucceeds : Keeps I ioSucceeds :=
  Keeps.bind .read fun _ => Keeps.bind (update (fun _ => rfl) fun _ => rfl) fun _ => .pure _

@[grind ←] theorem onStore (f : Store → Store) : Keeps I (onStore f) := update (fun _ => rfl) fun _ => rfl

@[grind ←] theorem counted : Keeps I (onState State.counted) :=
  Keeps.update fun _ hi => logged hi (.inr rfl) rfl

@[grind ←] theorem append (type : RecordType) (payload : Bytes) : Keeps I (append type payload) := by
  unfold DistributedCompilation.append
  grind

@[grind ←] theorem persist (entity : Entity) : Keeps I (persist entity) := by
  unfold DistributedCompilation.persist countLost
  grind

@[grind ←] theorem persistVoid (entity : Entity) : Keeps I (persistVoid entity) := by
  unfold DistributedCompilation.persistVoid
  grind

@[grind ←] theorem persistCompilation (id : CompilationId) : Keeps I (persistCompilation id) := by
  unfold DistributedCompilation.persistCompilation
  grind

@[grind ←] theorem persistAttempt (id : CompilationAttemptId) : Keeps I (persistAttempt id) := by
  unfold DistributedCompilation.persistAttempt
  grind

@[grind ←] theorem persistWorker (id : WorkerId) : Keeps I (persistWorker id) := by
  unfold DistributedCompilation.persistWorker
  grind

end Logged

-- ---------------------------------------------------------------------------
-- What spreads
-- ---------------------------------------------------------------------------

/-- The compilation waits, in some job, in a mandatory link over the lost child. -/
def State.Breaks (s : State) (failed id : CompilationId) : Prop :=
  ∃ (identity : Digest256) (job : JobRecord) (request : CompilationRequest), s.jobs[identity]? = some job ∧
    s.requests[job.requestIdentity]? = some request ∧ id ∈ job.units ∧
    (s.brokenParent failed job request id).isSome

/-- Parents that wait for the lost child may have failed. -/
structure State.Spread (failed : CompilationId) (s s' : State) : Prop where
  requests : s'.requests = s.requests
  attempts : s'.attempts = s.attempts
  authoritative : s'.authoritative = s.authoritative
  workers : s'.workers = s.workers
  leases : s'.leases = s.leases
  jobs : ∀ identity : Digest256, (s'.jobs[identity]?).map (·.frozen) = (s.jobs[identity]?).map (·.frozen)
  compilations : ∀ id : CompilationId, s'.compilations[id]? = s.compilations[id]? ∨
    s.Breaks failed id ∧ ∃ record record' : CompilationRecord, s.compilations[id]? = some record ∧
      s'.compilations[id]? = some record' ∧ record'.state = .failed ∧ record'.frozen = record.frozen

namespace State.Spread

variable {failed : CompilationId} {s s' : State}

theorem refl (s : State) : s.Spread failed s := ⟨rfl, rfl, rfl, rfl, rfl, fun _ => rfl, fun _ => .inl rfl⟩

/-- A job as it was, up to its failure. -/
theorem job (h : s.Spread failed s') {identity : Digest256} {job' : JobRecord} (found : s'.jobs[identity]? = some job') :
    ∃ job, s.jobs[identity]? = some job ∧ job'.frozen = job.frozen := by
  have hjobs := h.jobs identity
  rw [found, Option.map_some] at hjobs
  obtain ⟨job, hjob, hfrozen⟩ := Option.map_eq_some_iff.mp hjobs.symm
  exact ⟨job, hjob, hfrozen.symm⟩

/-- The lost child itself is left alone. -/
theorem child (h : s.Spread failed s') : s'.compilations[failed]? = s.compilations[failed]? := by
  rcases h.compilations failed with hsame | ⟨⟨_, job, request, -, -, -, hbroken⟩, -⟩
  · exact hsame
  · unfold State.brokenParent at hbroken
    simp at hbroken

/-- A parent that is broken now was broken at first. -/
theorem brokenParent_of (h : s.Spread failed s') {job job' : JobRecord} (frozen : job'.frozen = job.frozen)
    {request : CompilationRequest} {id : CompilationId} {lost : CompilationState}
    (broken : s'.brokenParent failed job' request id = some lost) :
    s.brokenParent failed job request id = some lost := by
  have hunits : job'.units = job.units := (congrArg JobRecord.units frozen :)
  rcases h.compilations id with hsame | ⟨-, record, record', -, hrecord', hfailed, -⟩
  · rw [← broken]
    unfold State.brokenParent linksTo
    rw [hsame, h.child, hunits]
  · unfold State.brokenParent at broken
    rw [hrecord'] at broken
    simp [hfailed, CompilationState.settled] at broken

/-- A parent that was broken at first still is, or has failed. -/
theorem brokenParent_or (h : s.Spread failed s') {job job' : JobRecord} (frozen : job'.frozen = job.frozen)
    {request : CompilationRequest} {id : CompilationId} {lost : CompilationState}
    (broken : s.brokenParent failed job request id = some lost) :
    s'.brokenParent failed job' request id = some lost ∨
      ∃ record', s'.compilations[id]? = some record' ∧ record'.state = .failed := by
  have hunits : job'.units = job.units := (congrArg JobRecord.units frozen :)
  rcases h.compilations id with hsame | ⟨-, record, record', -, hrecord', hfailed, -⟩
  · left
    rw [← broken]
    unfold State.brokenParent linksTo
    rw [hsame, h.child, hunits]
  · exact .inr ⟨record', hrecord', hfailed⟩

theorem outside (h : s.Spread failed s') {s'' : State} (requests : s''.requests = s'.requests)
    (attempts : s''.attempts = s'.attempts) (authoritative : s''.authoritative = s'.authoritative)
    (workers : s''.workers = s'.workers) (leases : s''.leases = s'.leases) (jobs : s''.jobs = s'.jobs)
    (compilations : s''.compilations = s'.compilations) : s.Spread failed s'' where
  requests := requests.trans h.requests
  attempts := attempts.trans h.attempts
  authoritative := authoritative.trans h.authoritative
  workers := workers.trans h.workers
  leases := leases.trans h.leases
  jobs identity := by rw [jobs]; exact h.jobs identity
  compilations id := by rw [compilations]; exact h.compilations id

/-- A broken parent fails. -/
theorem fail (h : s.Spread failed s') {id : CompilationId} (breaks : s.Breaks failed id)
    {f : CompilationRecord → CompilationRecord} (hstate : ∀ record, (f record).state = .failed)
    (hfrozen : ∀ record, (f record).frozen = record.frozen) : s.Spread failed (s'.withCompilation id f) where
  requests := h.requests
  attempts := h.attempts
  authoritative := h.authoritative
  workers := h.workers
  leases := h.leases
  jobs := h.jobs
  compilations key := by
    unfold State.withCompilation
    simp only [Table.get_modify]
    by_cases hkey : id = key
    · subst hkey
      rw [if_pos rfl]
      rcases h.compilations id with hsame | ⟨-, record, record', hrecord, hrecord', -, hsame⟩
      · rw [hsame]
        cases hrecord : s.compilations[id]? with
        | none => exact .inl rfl
        | some record => exact .inr ⟨breaks, record, _, rfl, rfl, hstate record, hfrozen record⟩
      · rw [hrecord']
        exact .inr ⟨breaks, record, _, hrecord, rfl, hstate record', (hfrozen record').trans hsame⟩
    · rw [if_neg hkey]
      exact h.compilations key

/-- The job of a broken parent notes the failure. -/
theorem note (h : s.Spread failed s') {identity : Digest256} {f : JobRecord → JobRecord}
    (hfrozen : ∀ job, (f job).frozen = job.frozen) : s.Spread failed (s'.withJob identity f) where
  requests := h.requests
  attempts := h.attempts
  authoritative := h.authoritative
  workers := h.workers
  leases := h.leases
  compilations := h.compilations
  jobs key := by
    unfold State.withJob
    simp only [Table.get_modify]
    split
    next heq =>
      subst heq
      rw [← h.jobs identity, Option.map_map]
      exact congrArg (Option.map · s'.jobs[identity]?) (funext hfrozen)
    next => exact h.jobs key

end State.Spread

instance (failed : CompilationId) (s : State) (config : CoordinatorConfig) :
    Logged fun i => s.Spread failed i.state ∧ i.config = config where
  logged hi hstate hconfig := by
    refine ⟨?_, hconfig.trans hi.2⟩
    rcases hstate with hstate | hstate
    · rw [hstate]
      exact hi.1
    · rw [hstate]
      exact hi.1.outside rfl rfl rfl rfl rfl rfl rfl

-- ---------------------------------------------------------------------------
-- One parent
-- ---------------------------------------------------------------------------

section

variable {failed : CompilationId} {s : State} {config : CoordinatorConfig} {identity : Digest256}
  {job : JobRecord} {request : CompilationRequest} {unitId : CompilationId}

/-- One round of the inner loop fails its unit if that is a broken parent. -/
theorem wp_propagateTo (hjob : s.jobs[identity]? = some job)
    (hrequest : s.requests[job.requestIdentity]? = some request) (hunit : unitId ∈ job.units) {i : Impl}
    (hi : s.Spread failed i.state ∧ i.config = config) :
    Program.wp (propagateTo failed identity request unitId) (fun r j =>
      (s.Spread failed j.state ∧ j.config = config) ∧
      (r = .ok () → (s.brokenParent failed job request unitId).isSome →
        ∃ record, j.state.compilations[unitId]? = some record ∧ record.state = .failed)) i := by
  unfold propagateTo
  rw [Still.wp_getState_bind]
  split
  next hnone =>
    have hjobs := hi.1.jobs identity
    rw [hnone, hjob] at hjobs
    cases hjobs
  next job' hjob' =>
  obtain ⟨job₀, hjob₀, hfrozen⟩ := hi.1.job hjob'
  obtain rfl := Option.some.inj (hjob.symm.trans hjob₀)
  split
  next hwhole =>
    refine ⟨hi, fun _ hbroken => ?_⟩
    obtain ⟨lost, hlost⟩ := Option.isSome_iff_exists.mp hbroken
    rcases hi.1.brokenParent_or hfrozen hlost with hstill | hfailed
    · rw [hwhole] at hstill
      cases hstill
    · exact hfailed
  next childState hbroken =>
  have hbreaks : s.Breaks failed unitId :=
    ⟨identity, job, request, hjob, hrequest, hunit, by rw [hi.1.brokenParent_of hfrozen hbroken]; rfl⟩
  obtain ⟨parent, hparent⟩ : ∃ parent, i.state.compilations[unitId]? = some parent := by
    unfold State.brokenParent at hbroken
    cases hparent : i.state.compilations[unitId]? with
    | none => simp [hparent] at hbroken
    | some parent => exact ⟨parent, rfl⟩
  rw [Still.wp_now_bind, Still.wp_onState_bind]
  -- behind the update everything is written to the journal or to the job
  let I : Impl → Prop := fun j => (s.Spread failed j.state ∧ j.config = config) ∧
    ∃ record, j.state.compilations[unitId]? = some record ∧ record.state = .failed
  have : Logged I := by
    refine ⟨fun hj hstate hconfig => ⟨Logged.logged (I := fun i => s.Spread failed i.state ∧
      i.config = config) hj.1 hstate hconfig, ?_⟩⟩
    rcases hstate with hstate | hstate
    · rw [hstate]
      exact hj.2
    · rw [hstate]
      exact hj.2
  have hrest : Keeps I (do
      ignoring (persistCompilation unitId)
      onState (·.withJob identity fun job =>
        { job with
          failure := .fanInIncomplete
          failureDetail := txt "mandatory child compilation " ++ decimal failed.value ++
            txt " cannot become authoritative (state " ++ childState.text ++ txt ")" })
      persistVoid (.job { job' with
        failure := .fanInIncomplete
        failureDetail := txt "mandatory child compilation " ++ decimal failed.value ++
          txt " cannot become authoritative (state " ++ childState.text ++ txt ")" })) := by
    refine Keeps.bind (Still.ignoring (Logged.persistCompilation _)) fun _ => Keeps.bind ?_ fun _ =>
      Logged.persistVoid _
    exact Keeps.update fun j hj => ⟨⟨hj.1.1.note fun _ => rfl, hj.1.2⟩, hj.2⟩
  refine Program.wp_mono (hrest _ ⟨⟨hi.1.fail hbreaks (fun _ => rfl) fun _ => rfl, hi.2⟩, ?_⟩) ?_
  · exact ⟨{ parent with
      state := .failed
      failure := .fanInIncomplete
      failureDetail := txt "mandatory child compilation " ++ decimal failed.value ++
        txt " cannot become authoritative (state " ++ childState.text ++ txt ")"
      updatedAt := i.readings.headD 0 }, by simp [State.withCompilation, hparent], rfl⟩
  · exact fun r j hj => ⟨hj.1, fun _ _ => hj.2⟩

end

-- ---------------------------------------------------------------------------
-- All parents
-- ---------------------------------------------------------------------------

/-- One element of a loop establishes what the others, and the loop's invariant, keep. -/
theorem wp_forEach_of_each {β : Type} {I J : Impl → Prop} {body : β → M Unit} {xs : List β} {x : β} (hx : x ∈ xs)
    (keeps : ∀ y ∈ xs, Keeps I (body y)) (stays : ∀ y ∈ xs, Keeps J (body y))
    (makes : ∀ i, I i → Program.wp (body x) (fun r j => r = .ok () → J j) i) {i : Impl} (hi : I i) :
    Program.wp (Program.forEach xs body) (fun r j => r = .ok () → J j) i := by
  induction xs generalizing i with
  | nil => cases hx
  | cons y ys ih =>
    rcases List.mem_cons.mp hx with rfl | hx
    · refine Program.wp_seq _ (makes i hi) (fun _ j hj => ?_) fun _ _ _ => nofun
      have hrest := Keeps.forEach ys (fun y hy => stays y (.tail _ hy)) j (hj rfl)
      exact Program.wp_mono hrest fun _ _ h _ => h
    · refine Program.wp_seq _ (keeps y (.head _) i hi) (fun _ j hj => ?_) fun _ _ _ => nofun
      exact ih hx (fun y hy => keeps y (.tail _ hy)) (fun y hy => stays y (.tail _ hy)) hj

/-- The compilation has failed. -/
def State.Failed (s : State) (id : CompilationId) : Prop :=
  ∃ record, s.compilations[id]? = some record ∧ record.state = .failed

instance (id : CompilationId) : Logged fun i => i.state.Failed id where
  logged hi hstate _ := by
    rcases hstate with hstate | hstate
    · rw [hstate]
      exact hi
    · rw [hstate]
      exact hi

/-- What failed stays so while failures spread. -/
theorem failed_propagateTo (id failed : CompilationId) (identity : Digest256) (request : CompilationRequest)
    (unitId : CompilationId) : Keeps (fun i => i.state.Failed id) (propagateTo failed identity request unitId) := by
  unfold propagateTo
  refine Keeps.bind Still.getState fun s => ?_
  split
  · exact Keeps.pure _
  · split
    · exact Keeps.pure _
    · refine Keeps.bind Logged.now fun updatedAt => Keeps.bind (Keeps.update fun i hi => ?_) fun _ => ?_
      · obtain ⟨record, hrecord, hstate⟩ := hi
        unfold State.withCompilation State.Failed
        simp only [Table.get_modify, hrecord]
        split
        next heq =>
          subst heq
          rw [hrecord, Option.map_some]
          exact ⟨_, rfl, rfl⟩
        next => exact ⟨record, rfl, hstate⟩
      · refine Keeps.bind (Still.ignoring (Logged.persistCompilation _)) fun _ => ?_
        exact Keeps.bind (Keeps.update fun i hi => hi) fun _ => Logged.persistVoid _

/-- The outer loop body of `propagate_fan_in_failure`. -/
def State.propagateEntry (s : State) (failed : CompilationId) (entry : Digest256 × JobRecord) : M Unit :=
  match s.requests[entry.2.requestIdentity]? with
  | none => pure ()
  | some request => Program.forEach entry.2.units (propagateTo failed entry.1 request)

/-- The failures that spread from a lost child: only parents that wait for it fail, and
where the section returns all of them have. -/
theorem wp_propagateFanInFailure (failed : CompilationId) (i : Impl) :
    Program.wp (propagateFanInFailure failed) (fun r j =>
      (i.state.Spread failed j.state ∧ j.config = i.config) ∧
      (r = .ok () → ∀ id, i.state.Breaks failed id → j.state.Failed id)) i := by
  let I : Impl → Prop := fun j => i.state.Spread failed j.state ∧ j.config = i.config
  have hi : I i := ⟨.refl _, rfl⟩
  unfold propagateFanInFailure
  rw [Still.wp_getState_bind]
  have inner {identity : Digest256} {job : JobRecord} {request : CompilationRequest}
      (hjob : i.state.jobs[identity]? = some job) (hrequest : i.state.requests[job.requestIdentity]? = some request) :
      ∀ unitId ∈ job.units, Keeps I (propagateTo failed identity request unitId) := fun unitId hunit j hj =>
    Program.wp_mono (wp_propagateTo hjob hrequest hunit hj) fun _ _ h => h.1
  have outer : ∀ entry ∈ i.state.jobs.toList, Keeps I (i.state.propagateEntry failed entry) := by
    rintro ⟨identity, job⟩ hentry
    have hjob : i.state.jobs[identity]? = some job := Std.ExtTreeMap.mem_toList_iff_getElem?_eq_some.mp hentry
    unfold State.propagateEntry
    split
    · exact Keeps.pure _
    next request hrequest => exact Keeps.forEach _ (inner hjob hrequest)
  have stays (id : CompilationId) (entry : Digest256 × JobRecord) :
      Keeps (fun j => j.state.Failed id) (i.state.propagateEntry failed entry) := by
    unfold State.propagateEntry
    split
    · exact Keeps.pure _
    · exact Keeps.forEach _ fun unitId _ => failed_propagateTo id failed _ _ unitId
  refine Program.wp_and (Keeps.forEach _ outer i hi) ?_
  show (_ = _ → ∀ id, i.state.Breaks failed id → _)
  intro hr id hbreaks
  obtain ⟨identity, job, request, hjob, hrequest, hunit, hbroken⟩ := hbreaks
  refine wp_forEach_of_each (J := fun j => j.state.Failed id)
    (Std.ExtTreeMap.mem_toList_iff_getElem?_eq_some.mpr hjob) outer (fun entry _ => stays id entry) ?_ hi hr
  intro j hj
  unfold State.propagateEntry
  simp only [hrequest]
  refine wp_forEach_of_each hunit (inner hjob hrequest) (fun unitId _ => failed_propagateTo id failed _ _ unitId)
    (fun k hk => ?_) hj
  exact Program.wp_mono (wp_propagateTo hjob hrequest hunit hk) fun _ _ h hok => h.2 hok hbroken

end DistributedCompilation
