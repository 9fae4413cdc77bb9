import DistributedCompilation.Base.Evaluation
import DistributedCompilation.Domain.Identification
import DistributedCompilation.Safety.Frame

/-!
# Distributed Compilation — registries across a restart

What the seven generation registries answer after the coordinator stopped and
was opened again. The journal carries no registry, so they come back from the
last snapshot, and every current generation comes back as the greatest one
recorded for its id. They answer as before exactly when nothing was resolved to
anything else since.
-/

namespace DistributedCompilation

open Program (Keeps)

-- ---------------------------------------------------------------------------
-- Answers
-- ---------------------------------------------------------------------------

namespace GenerationRegistry

variable {idTag : IdTag} {genTag : GenTag}

/-- The second registry answers as the first. -/
structure Answers (registry registry' : GenerationRegistry idTag genTag) : Prop where
  resolve : ∀ id content, (registry'.resolve id content).1 = (registry.resolve id content).1
  lookup : ∀ id content, registry'.lookup id content = registry.lookup id content
  current : ∀ id, registry'.current id = registry.current id

/-- The digest that spells a number. -/
def digestOf (n : Nat) : Digest256 := ⟨LittleEndian.encode 32 n, LittleEndian.length_encode 32 n⟩

/-- A table of moderate size does not hold every digest. -/
theorem exists_unknown {α : Type} (t : Table Digest256 α) (h : t.size < 2 ^ 64) :
    ∃ content : Digest256, t[content]? = none := by
  by_contra hall
  push Not at hall
  have hinj : Set.InjOn digestOf (Finset.range (2 ^ 64) : Set Nat) := by
    intro n hn m hm heq
    have hn : n < 256 ^ 32 := lt_of_lt_of_le (Finset.mem_range.mp hn) (by norm_num)
    have hm : m < 256 ^ 32 := lt_of_lt_of_le (Finset.mem_range.mp hm) (by norm_num)
    have hdecode := congrArg (fun digest : Digest256 => LittleEndian.decode digest.bytes) heq
    simpa only [digestOf, LittleEndian.decode_encode_of_lt hn, LittleEndian.decode_encode_of_lt hm]
      using hdecode
  have hsubset : (Finset.range (2 ^ 64)).image digestOf ⊆ t.keys.toFinset := by
    intro content _
    obtain ⟨value, hvalue⟩ := Option.ne_none_iff_exists'.mp (hall content)
    rw [List.mem_toFinset, Std.ExtTreeMap.mem_keys]
    exact Std.ExtTreeMap.mem_iff_isSome_getElem?.mpr (by rw [hvalue]; rfl)
  have hcard := Finset.card_le_card hsubset
  rw [Finset.card_image_of_injOn hinj, Finset.card_range] at hcard
  have hkeys := List.toFinset_card_le t.keys
  rw [Std.ExtTreeMap.length_keys] at hkeys
  omega

/-- What a call returns depends on the recorded pairs and the current
generation only. -/
theorem resolve_fst_congr {registry registry' : GenerationRegistry idTag genTag} {id : Id idTag}
    (pairs : (registry'.slot id).byContent = (registry.slot id).byContent)
    (current : (registry'.slot id).current = (registry.slot id).current) (content : Digest256) :
    (registry'.resolve id content).1 = (registry.resolve id content).1 := by
  show (Slot.resolve _ content _).1 = (Slot.resolve _ content _).1
  cases hget : (registry.slot id).byContent[content]? with
  | some generation =>
    rw [Slot.resolve_known hget, Slot.resolve_known (pairs ▸ hget)]
  | none =>
    rw [Slot.resolve_new hget, Slot.resolve_new (pairs ▸ hget), Slot.fresh, Slot.fresh, current]

/-- Between two registries with the pairs of a third, the one with the greatest
generations answers as the other exactly when that one has them too. -/
theorem answers_iff {saved registry registry' : GenerationRegistry idTag genTag}
    (small : ∀ id, (saved.slot id).byContent.size < 2 ^ 64) (restored : saved.Restores registry') :
    registry.Answers registry' ↔ saved.Restores registry := by
  constructor
  · intro answers id
    have hpairs : (registry'.slot id).byContent = (registry.slot id).byContent := by
      refine Table.ext fun content => ?_
      rw [← lookup_eq, ← lookup_eq]
      exact answers.lookup id content
    obtain ⟨hsaved, hgreatest⟩ := restored id
    obtain ⟨content, hcontent⟩ := exists_unknown (registry.slot id).byContent
      (by rw [← hpairs, hsaved]; exact small id)
    -- what unknown content resolves to tells the current generation
    have hfresh := answers.resolve id content
    change (Slot.resolve _ content _).1 = (Slot.resolve _ content _).1 at hfresh
    rw [Slot.resolve_new hcontent, Slot.resolve_new (by rw [hpairs]; exact hcontent)] at hfresh
    have hvalue := congrArg Gen.value hfresh
    simp only [Slot.fresh_value] at hvalue
    have hcurrent : (registry.slot id).current = (registry'.slot id).current := by
      have : (registry.slot id).current.value = (registry'.slot id).current.value := by omega
      cases h : (registry.slot id).current
      cases h' : (registry'.slot id).current
      rw [h, h'] at this
      exact congrArg Gen.mk this
    refine ⟨hpairs ▸ hsaved, ?_, ?_⟩
    · intro c generation hc
      rw [hcurrent]
      exact hgreatest.above c generation (hpairs ▸ hc)
    · rw [hcurrent, ← hpairs]
      exact hgreatest.reached
  · intro kept
    have hpairs : ∀ id, (registry'.slot id).byContent = (registry.slot id).byContent :=
      fun id => (restored id).1.trans (kept id).1.symm
    have hcurrent : ∀ id, (registry'.slot id).current = (registry.slot id).current :=
      fun id => (restored id).2.current_eq (kept id).2 (hpairs id)
    constructor
    case resolve => exact fun id content => resolve_fst_congr (hpairs id) (hcurrent id) content
    case lookup =>
      intro id content
      rw [lookup_eq, lookup_eq, hpairs]
    case current =>
      intro id
      rw [current_eq, current_eq, Slot.currentContent, Slot.currentContent, hcurrent, hpairs]

end GenerationRegistry

/-- Every registry of the second state answers as that of the first. -/
structure State.Answers (s s' : State) : Prop where
  sources : s.sources.Answers s'.sources
  irs : s.irs.Answers s'.irs
  dependencies : s.dependencies.Answers s'.dependencies
  toolchains : s.toolchains.Answers s'.toolchains
  targets : s.targets.Answers s'.targets
  specializations : s.specializations.Answers s'.specializations
  policies : s.policies.Answers s'.policies

/-- The sizes a registry is written with. -/
theorem size_lt_of_fits {idTag : IdTag} {genTag : GenTag} {registry : GenerationRegistry idTag genTag}
    (h : (encodeRegistry registry).eachFits = true) (id : Id idTag) :
    (registry.slot id).byContent.size < 2 ^ 64 := by
  simp only [encodeRegistry, Record.join_cons, Record.join_nil, Record.eachFits_append,
    Record.eachFits_nil, Bool.and_true, Bool.and_eq_true, Record.eachFits_flatMap,
    List.all_eq_true] at h
  rw [GenerationRegistry.slot]
  cases hget : registry.slots[id]? with
  | none =>
    rw [Option.getD_none, Std.ExtTreeMap.size_empty]
    norm_num
  | some slot =>
    have hslot := h.2 _ (Std.ExtTreeMap.mem_toList_iff_getElem?_eq_some.mpr hget)
    simp only [encodeSlot, Record.join_cons, Record.eachFits_append, Record.eachFits_cons,
      Bool.and_eq_true] at hslot
    simpa [Field.fits] using hslot.1.2.2.1

theorem State.answers_iff {saved s s' : State} (fits : (encodeState saved).eachFits = true)
    (restored : saved.Restores s') : s.Answers s' ↔ saved.Restores s := by
  simp only [encodeState, Record.join_cons, Record.eachFits_append, Bool.and_eq_true] at fits
  obtain ⟨-, hsources, hirs, hdependencies, htoolchains, htargets, hspecializations, hpolicies, -⟩ :=
    fits
  constructor
  · intro h
    exact {
      sources := (GenerationRegistry.answers_iff (size_lt_of_fits hsources) restored.sources).mp h.sources
      irs := (GenerationRegistry.answers_iff (size_lt_of_fits hirs) restored.irs).mp h.irs
      dependencies := (GenerationRegistry.answers_iff (size_lt_of_fits hdependencies)
        restored.dependencies).mp h.dependencies
      toolchains := (GenerationRegistry.answers_iff (size_lt_of_fits htoolchains)
        restored.toolchains).mp h.toolchains
      targets := (GenerationRegistry.answers_iff (size_lt_of_fits htargets) restored.targets).mp h.targets
      specializations := (GenerationRegistry.answers_iff (size_lt_of_fits hspecializations)
        restored.specializations).mp h.specializations
      policies := (GenerationRegistry.answers_iff (size_lt_of_fits hpolicies)
        restored.policies).mp h.policies }
  · intro h
    exact {
      sources := (GenerationRegistry.answers_iff (size_lt_of_fits hsources) restored.sources).mpr h.sources
      irs := (GenerationRegistry.answers_iff (size_lt_of_fits hirs) restored.irs).mpr h.irs
      dependencies := (GenerationRegistry.answers_iff (size_lt_of_fits hdependencies)
        restored.dependencies).mpr h.dependencies
      toolchains := (GenerationRegistry.answers_iff (size_lt_of_fits htoolchains)
        restored.toolchains).mpr h.toolchains
      targets := (GenerationRegistry.answers_iff (size_lt_of_fits htargets) restored.targets).mpr h.targets
      specializations := (GenerationRegistry.answers_iff (size_lt_of_fits hspecializations)
        restored.specializations).mpr h.specializations
      policies := (GenerationRegistry.answers_iff (size_lt_of_fits hpolicies)
        restored.policies).mpr h.policies }

-- ---------------------------------------------------------------------------
-- Checks of declared generations
-- ---------------------------------------------------------------------------

section Checks

variable {tag : GenTag} {β : Type} {code : ErrorCode} {dimension : String} {declared : Gen tag}
  {resolve : State → Gen tag × State}

theorem resolveDeclared_run (i : Impl) : resolveDeclared code dimension declared resolve i =
    (if declared.value ≠ 0 ∧ (resolve i.state).1.value ≠ declared.value then
      refused code (txt dimension ++ txt " generation declared as " ++ decimal declared.value ++
        txt " but the coordinator resolved " ++ decimal (resolve i.state).1.value)
    else pure (resolve i.state).1 : M (Gen tag)) { i with state := (resolve i.state).2 } := rfl

/-- Checks that resolve the same generation go on alike. -/
theorem resolveDeclared_bind_congr {f : Gen tag → M β} {i i' : Impl}
    (same : (resolve i'.state).1 = (resolve i.state).1)
    (next : ∀ generation, (f generation { i' with state := (resolve i'.state).2 }).1 =
      (f generation { i with state := (resolve i.state).2 }).1) :
    ((resolveDeclared code dimension declared resolve >>= f) i').1 =
      ((resolveDeclared code dimension declared resolve >>= f) i).1 := by
  rw [Program.bind_apply, Program.bind_apply, resolveDeclared_run, resolveDeclared_run, same]
  split
  · rfl
  · exact next _

variable [HashFunction]

/-- Registries that answer alike accept the same requests. -/
theorem registerAndCheck_of_answers {i i' : Impl} (h : i.state.Answers i'.state)
    (request : CompilationRequest) :
    (registerAndCheck request i').1 = (registerAndCheck request i).1 := by
  unfold registerAndCheck
  split
  · rfl
  · refine resolveDeclared_bind_congr (h.toolchains.resolve _ _) fun toolchain => ?_
    refine resolveDeclared_bind_congr (h.targets.resolve _ _) fun target => ?_
    refine resolveDeclared_bind_congr (h.specializations.resolve _ _) fun specialization => ?_
    refine resolveDeclared_bind_congr (h.policies.resolve _ _) fun policy => ?_
    exact resolveDeclared_bind_congr (h.dependencies.resolve _ _) fun dependencies => rfl

end Checks

-- ---------------------------------------------------------------------------
-- What the snapshot on disk is of
-- ---------------------------------------------------------------------------

/-- The snapshot on disk is of the given state, the initial one when there is no
snapshot. -/
structure Store.Snapshots (store : Store) (saved : State) : Prop where
  listed : saved.Listed
  fits : (encodeState saved).eachFits = true
  payload : store.snapshot = [] ∧ saved = {} ∨ store.snapshot = (encodeState saved).bytes

theorem State.Listed.initial : State.Listed {} :=
  ⟨.empty, .empty, .empty, .empty, .empty, .empty, .empty⟩

theorem Store.Snapshots.initial {store : Store} (h : store.snapshot = []) : store.Snapshots {} :=
  ⟨.initial, by decide +kernel, .inl ⟨h, rfl⟩⟩

theorem State.Listed.of_registries {s s' : State} (h : s.Listed)
    (same : s'.registries = s.registries) : s'.Listed := by
  simp only [State.registries, Prod.mk.injEq] at same
  obtain ⟨sources, irs, dependencies, toolchains, targets, specializations, policies⟩ := same
  exact ⟨sources ▸ h.sources, irs ▸ h.irs, dependencies ▸ h.dependencies, toolchains ▸ h.toolchains,
    targets ▸ h.targets, specializations ▸ h.specializations, policies ▸ h.policies⟩

theorem State.Restores.of_registries {saved s s' : State} (h : saved.Restores s)
    (same : s'.registries = s.registries) : saved.Restores s' := by
  simp only [State.registries, Prod.mk.injEq] at same
  obtain ⟨sources, irs, dependencies, toolchains, targets, specializations, policies⟩ := same
  exact ⟨sources ▸ h.sources, irs ▸ h.irs, dependencies ▸ h.dependencies, toolchains ▸ h.toolchains,
    targets ▸ h.targets, specializations ▸ h.specializations, policies ▸ h.policies⟩

theorem State.Restores.initial : State.Restores {} {} := by
  have empty {idTag : IdTag} {genTag : GenTag} :
      GenerationRegistry.Restores ({} : GenerationRegistry idTag genTag) {} := by
    intro id
    have hslot : ({} : GenerationRegistry idTag genTag).slot id = {} := by
      simp [GenerationRegistry.slot]
    rw [hslot]
    exact ⟨rfl, .empty⟩
  exact ⟨empty, empty, empty, empty, empty, empty, empty⟩

section Recover

variable [HashFunction]

theorem registries_replayRecord {s s' : State} {record : RecordType × Bytes}
    (h : replayRecord s record = .ok s') : s'.registries = s.registries := by
  unfold replayRecord at h
  split at h
  all_goals
    first
      | (obtain ⟨value, -, h⟩ := bind_eq_ok_iff.mp h; cases h; rfl)
      | (cases h; rfl)

/-- The journal carries no registry. -/
theorem registries_replay {s s' : State} {journal : List (RecordType × Bytes)}
    (h : replay s journal = .ok s') : s'.registries = s.registries := by
  unfold replay at h
  induction journal generalizing s with
  | nil =>
    cases h
    rfl
  | cons record journal ih =>
    rw [List.foldlM_cons] at h
    obtain ⟨mid, hmid, h⟩ := bind_eq_ok_iff.mp h
    rw [ih h, registries_replayRecord hmid]

/-- A recovered state has the registries of the snapshot, restored. -/
theorem Store.Snapshots.recovered {store : Store} {saved s : State} (h : store.Snapshots saved)
    (hrecover : store.recover = .ok s) : saved.Restores s ∧ s.Listed := by
  obtain ⟨base, hbase, hreplay⟩ := bind_eq_ok_iff.mp hrecover
  have hsame := registries_replay hreplay
  have hrestored : saved.Restores base ∧ base.Listed := by
    unfold decodeSnapshot at hbase
    rcases h.payload with ⟨hempty, rfl⟩ | hbytes
    · rw [hempty] at hbase
      cases hbase
      exact ⟨.initial, .initial⟩
    · have hne : store.snapshot.isEmpty = false := by
        rw [hbytes]
        rfl
      rw [hne] at hbase
      simp only [Bool.false_eq_true, if_false] at hbase
      split at hbase
      next decoded hdecode =>
        cases hbase
        rw [hbytes] at hdecode
        exact restores_of_decodeState h.listed h.fits hdecode
      next => cases hbase
  exact ⟨hrestored.1.of_registries hsame, hrestored.2.of_registries hsame⟩

end Recover

-- ---------------------------------------------------------------------------
-- Every reachable system
-- ---------------------------------------------------------------------------

/-- The registries list their contents, and the snapshot on disk is of such
registries too. -/
structure Impl.Recorded (i : Impl) : Prop where
  listed : i.state.Listed
  snapshots : ∃ saved, i.store.Snapshots saved

namespace Impl.Recorded

theorem of_registries {i i' : Impl} (h : i.Recorded) (same : i'.state.registries = i.state.registries)
    (snapshot : i'.store.snapshot = i.store.snapshot) : i'.Recorded := by
  obtain ⟨hlisted, saved, hsaved⟩ := h
  exact ⟨hlisted.of_registries same, saved, hsaved.listed, hsaved.fits, snapshot ▸ hsaved.payload⟩

instance : Framed Impl.Recorded where
  frame h same := by
    obtain ⟨hlisted, saved, hsaved⟩ := h
    refine ⟨hlisted.of_registries same.state.registries, ?_⟩
    rcases same.snapshot with hkept | ⟨hfits, hwritten⟩
    · exact ⟨saved, hsaved.listed, hsaved.fits, hkept ▸ hsaved.payload⟩
    · exact ⟨_, hlisted, Record.eachFits_of_fits hfits, .inr hwritten⟩

/-- The tables of commits do not hold registries. -/
theorem onState {g : State → State} (h : ∀ s : State, (g s).registries = s.registries) :
    Keeps Impl.Recorded (DistributedCompilation.onState g) :=
  Keeps.update fun i hi => hi.of_registries (h i.state) rfl

theorem commitFirst (session : SessionId) (workerId : WorkerId) (claim : AuthorityClaim)
    (validation : ValidationReport) (compilation : CompilationRecord) :
    Keeps Impl.Recorded (commitFirst session workerId claim validation compilation) := by
  have published (provenance : Provenance) (commit : ArtifactCommit) (report : ValidationReport) :
      Keeps Impl.Recorded (DistributedCompilation.onState
        (·.publish claim.compilation report provenance commit)) := onState fun _ => rfl
  unfold DistributedCompilation.commitFirst
  refine Keeps.bind (Still.orReturn (Touched.transitionAttempt _ (by decide))) fun _ => ?_
  refine Keeps.bind Still.now fun _ => Keeps.bind (Touched.onCompilation fun _ => rfl) fun _ => ?_
  refine Keeps.bind Still.getState fun s => Keeps.bind Still.now fun _ => ?_
  refine Keeps.bind Still.now fun _ => Keeps.bind (Framed.onAttempt _ _) fun _ => ?_
  refine Keeps.bind (Still.orReturn (Touched.transitionAttempt _ (by decide))) fun _ => ?_
  refine Keeps.bind (Touched.onCompilation fun _ => rfl) fun _ => ?_
  refine Keeps.bind (Still.orReturn (Touched.transitionAttempt _ (by decide))) fun _ => ?_
  refine Keeps.bind Still.now fun _ => Keeps.bind (Touched.onCompilation fun _ => rfl) fun _ => ?_
  refine Keeps.bind (Touched.finishAttemptBookkeeping _) fun _ => Keeps.bind (published _ _ _) fun _ => ?_
  refine Keeps.bind (Noted.recordIntermediate _ _) fun _ => ?_
  refine Keeps.bind (Noted.recordCacheEntry _ _ _) fun _ => ?_
  refine Keeps.bind (Noted.markJobProgress _) fun _ => Keeps.bind Still.getState fun s => ?_
  refine Keeps.bind (Framed.onState fun s => .control s _) fun _ => ?_
  refine Keeps.bind (Noted.persistCommit _ _ _ _ _) fun _ => ?_
  exact Keeps.bind (Framed.onState fun s => .control s _) fun _ => Keeps.pure _

theorem commitOutput (session : SessionId) (output : ReportOutput) (validation : ValidationReport) :
    Keeps Impl.Recorded (commitOutput session output validation) := by
  have committed : Keeps Impl.Recorded (commitLocked session output.claim validation) := by
    have first := commitFirst
    unfold commitLocked
    refine Keeps.bind Still.getState fun s => ?_
    split
    · grind
    · grind
  unfold DistributedCompilation.commitOutput
  refine Keeps.bind Still.getState fun s => ?_
  split
  · grind
  · split
    · grind
    · split
      · exact committed
      · refine Keeps.bind (Noted.recordViolation _ _ _ _ _) fun _ => ?_
        grind

-- ---------------------------------------------------------------------------
-- Submission
-- ---------------------------------------------------------------------------

variable [HashFunction]

theorem admitUnit (forceRebuild : Bool) (request : CompilationRequest) (unit : CompilationUnitSpec) :
    Keeps Impl.Recorded (admitUnit forceRebuild request unit) := by
  have rebuilt (id : CompilationId) : Keeps Impl.Recorded (rebuild id) := by
    have superseded : Keeps Impl.Recorded (DistributedCompilation.onState (·.supersede id)) := by
      refine onState fun s => ?_
      rw [State.supersede]
      split <;> rfl
    have withdrawn : Keeps Impl.Recorded (DistributedCompilation.onState (·.withdraw id)) :=
      onState fun _ => rfl
    unfold rebuild
    refine Keeps.bind superseded fun _ => Keeps.bind Still.getState fun s => ?_
    have reset : Keeps Impl.Recorded (do
        let updatedAt ← now
        onCompilation id (·.reset updatedAt)
        orReturn (persistCompilation id)) :=
      Keeps.bind Still.now fun _ => Keeps.bind (Touched.onCompilation fun _ => rfl) fun _ =>
        Still.orReturn (Noted.persistCompilation id)
    grind
  have created (createdAt : UnixMillis) : Keeps Impl.Recorded
      (DistributedCompilation.onState (·.create (newCompilation request unit createdAt))) :=
    onState fun _ => rfl
  unfold DistributedCompilation.admitUnit
  refine Keeps.bind Still.getState fun s => ?_
  split
  · refine Keeps.bind Still.now fun createdAt => Keeps.bind (created createdAt) fun _ => ?_
    exact Noted.persistOrLeave _
  · refine Keeps.ite (fun _ => rebuilt _) fun _ => Keeps.ite (fun _ => ?_) fun _ => Keeps.pure _
    exact Framed.onState fun s => .withCompilation s _ fun _ => rfl

omit [HashFunction] in
theorem resolveDeclared {tag : GenTag} {code : ErrorCode} {dimension : String} {declared : Gen tag}
    {resolve : State → Gen tag × State} (h : ∀ s : State, s.Listed → (resolve s).2.Listed) :
    Keeps Impl.Recorded (resolveDeclared code dimension declared resolve) := by
  intro i hi
  unfold Program.wp Program.run
  rw [resolveDeclared_run]
  have hafter : Impl.Recorded { i with state := (resolve i.state).2 } := ⟨h _ hi.listed, hi.snapshots⟩
  split
  · exact hafter
  · exact hafter

theorem registerAndCheck (request : CompilationRequest) :
    Keeps Impl.Recorded (registerAndCheck request) := by
  have sources : ∀ (xs : List UnitSource) (s : State), s.Listed →
      (xs.foldl State.resolveSource s).Listed := by
    intro xs
    induction xs with
    | nil => exact fun s hs => hs
    | cons x xs ih => exact fun s hs => ih _ { hs with sources := hs.sources.resolve _ _ }
  unfold DistributedCompilation.registerAndCheck
  refine Keeps.ite (fun _ => Still.refused _ _) fun _ => ?_
  refine Keeps.bind (resolveDeclared fun s hs => { hs with toolchains := hs.toolchains.resolve _ _ })
    fun _ => ?_
  refine Keeps.bind (resolveDeclared fun s hs => { hs with targets := hs.targets.resolve _ _ })
    fun _ => ?_
  refine Keeps.bind (resolveDeclared fun s hs =>
    { hs with specializations := hs.specializations.resolve _ _ }) fun _ => ?_
  refine Keeps.bind (resolveDeclared fun s hs => { hs with policies := hs.policies.resolve _ _ })
    fun _ => ?_
  refine Keeps.bind (resolveDeclared fun s hs =>
    { hs with dependencies := hs.dependencies.resolve _ _ }) fun _ => ?_
  refine Keeps.bind (Keeps.update fun i hi => ⟨sources _ _ hi.listed, hi.snapshots⟩) fun _ => ?_
  exact Keeps.pure _

theorem submit (bundle : SubmissionBundle) : Keeps Impl.Recorded (submit bundle) := by
  unfold DistributedCompilation.submit
  refine Keeps.bind .read fun i => Keeps.bind (Still.orLeave _) fun _ => ?_
  refine Keeps.bind Still.ensureOpen fun _ => Keeps.bind (Still.orThrow _) fun request => ?_
  refine Keeps.bind (Keeps.forEach _ fun unit _ => Still.orLeave _) fun _ => ?_
  refine Keeps.bind (registerAndCheck request) fun request => ?_
  unfold submitRegistered
  refine Keeps.bind Still.getState fun s => Keeps.bind (Still.storeBlobs _) fun _ => ?_
  refine Keeps.bind (Noted.retainRequest _) fun _ => Keeps.bind (Noted.openJob _) fun job => ?_
  refine Keeps.bind (Keeps.forEach _ fun unit _ => admitUnit _ _ unit) fun _ => ?_
  refine Keeps.bind (Framed.onState fun s => .putJob s _ _) fun _ => ?_
  refine Keeps.bind (Noted.persistOrLeave _) fun _ => ?_
  refine Keeps.bind (Keeps.collect _ fun unit _ => ?_) fun units => ?_
  · exact Keeps.bind (Touched.answerUnit _ _ _) fun _ => Keeps.pure _
  · refine Keeps.bind (Framed.onState fun s => .putJob s _ _) fun _ => ?_
    exact Keeps.bind (Noted.persistOrLeave _) fun _ => Keeps.pure _

-- ---------------------------------------------------------------------------
-- Opening
-- ---------------------------------------------------------------------------

omit [HashFunction] in
theorem wp_openStore (i : Impl) : Program.wp openStore
    (fun _ j => j.opened = i.opened ∧ j.state = i.state ∧ j.store.snapshot = i.store.snapshot) i := by
  have io : Keeps (fun j => j.opened = i.opened ∧ j.state = i.state ∧
      j.store.snapshot = i.store.snapshot) ioSucceeds :=
    Keeps.bind .read fun _ => Keeps.bind (Keeps.update fun _ h => h) fun _ => .pure _
  have opened : Keeps (fun j => j.opened = i.opened ∧ j.state = i.state ∧
      j.store.snapshot = i.store.snapshot) (onStore fun store => { store with isOpen := true }) :=
    Keeps.update fun _ h => h
  have keeps : Keeps (fun j => j.opened = i.opened ∧ j.state = i.state ∧
      j.store.snapshot = i.store.snapshot) openStore := by
    unfold openStore
    grind
  exact keeps i ⟨rfl, rfl, rfl⟩

omit [HashFunction] in
/-- The registries are those of every saved state that counts. -/
theorem framed_restores (counts : State → Prop) :
    Framed fun i => i.Recorded ∧ ∀ saved, counts saved → saved.Restores i.state where
  frame h same := ⟨Framed.frame h.1 same, fun saved hsaved =>
    (h.2 saved hsaved).of_registries same.state.registries⟩

/-- What opening makes of a closed coordinator. -/
theorem wp_openCoordinator (config : CoordinatorConfig) {i : Impl} (h : i.Recorded) :
    Program.wp (openCoordinator config) (fun _ j => j.Recorded ∧
      (i.opened = false → config.enablePersistence = true → j.opened = true →
        ∀ saved, i.store.Snapshots saved → saved.Restores j.state)) i := by
  unfold openCoordinator
  rw [Program.wp_read_bind]
  by_cases hopened : i.opened = true
  · rw [if_pos hopened]
    exact ⟨h, fun hclosed => absurd hopened (by rw [hclosed]; decide)⟩
  rw [if_neg hopened, Program.wp_update_bind]
  -- the rest, once the state is recovered
  have rest : ∀ (recovered : State) (j : Impl), recovered.Listed →
      (∃ saved, j.store.Snapshots saved) → (config.enablePersistence = true →
        ∀ saved, i.store.Snapshots saved → saved.Restores recovered) →
      Program.wp (do
        Program.update fun i => { i with state := recovered, opened := true }
        restartState
        if config.enablePersistence then
          let s ← getState
          orReturn (persist (.header s.header.epoch s.header.restarts s.header.openedAt))
          orReturn takeSnapshot : M Unit) (fun _ j => j.Recorded ∧
        (i.opened = false → config.enablePersistence = true → j.opened = true →
          ∀ saved, i.store.Snapshots saved → saved.Restores j.state)) j := by
    intro recovered j hlisted hsnapshots hrestores
    have framed := framed_restores fun saved =>
      config.enablePersistence = true ∧ i.store.Snapshots saved
    have keeps : Keeps (fun j => j.Recorded ∧ ∀ saved,
        config.enablePersistence = true ∧ i.store.Snapshots saved → saved.Restores j.state) (do
        restartState
        if config.enablePersistence then
          let s ← getState
          orReturn (persist (.header s.header.epoch s.header.restarts s.header.openedAt))
          orReturn takeSnapshot : M Unit) := by
      refine Keeps.bind Framed.restartState fun _ => ?_
      grind
    rw [Program.wp_update_bind]
    refine Program.wp_mono (keeps _ ⟨⟨hlisted, hsnapshots⟩, fun saved hsaved =>
      hrestores hsaved.1 saved hsaved.2⟩) ?_
    exact fun _ j' hj' => ⟨hj'.1, fun _ hpersists _ saved hsaved => hj'.2 saved ⟨hpersists, hsaved⟩⟩
  by_cases hpersists : config.enablePersistence = true
  · simp only [if_pos hpersists] at rest ⊢
    refine Program.wp_seq _ (wp_openStore _) ?_ ?_
    · rintro - j ⟨hclosed, hstate, hsnapshot⟩
      rw [Program.wp_read_bind]
      have hsaved : ∀ saved, i.store.Snapshots saved → j.store.Snapshots saved :=
        fun saved hsaved => ⟨hsaved.listed, hsaved.fits, hsnapshot ▸ hsaved.payload⟩
      cases hrecover : j.store.recover with
      | error status =>
        refine ⟨⟨hstate ▸ h.listed, h.snapshots.imp hsaved⟩, fun hi _ hj => ?_⟩
        exact absurd ((hclosed.trans hi).symm.trans hj) Bool.false_ne_true
      | ok recovered =>
        obtain ⟨saved, hsnapshots⟩ := h.snapshots
        refine rest recovered j ((hsaved saved hsnapshots).recovered hrecover).2
          ⟨saved, hsaved saved hsnapshots⟩ fun _ saved hsnapshots => ?_
        exact ((hsaved saved hsnapshots).recovered hrecover).1
    · rintro - j ⟨hclosed, hstate, hsnapshot⟩
      obtain ⟨saved, hsnapshots⟩ := h.snapshots
      refine ⟨⟨hstate ▸ h.listed, saved, hsnapshots.listed, hsnapshots.fits,
        hsnapshot ▸ hsnapshots.payload⟩, fun hi _ hj => ?_⟩
      exact absurd ((hclosed.trans hi).symm.trans hj) Bool.false_ne_true
  · simp only [if_neg hpersists] at rest ⊢
    exact rest {} _ .initial h.snapshots fun hp => absurd hp hpersists

end Impl.Recorded

-- ---------------------------------------------------------------------------
-- Runs
-- ---------------------------------------------------------------------------

namespace System

variable [HashFunction]

/-- The systems that runs from a fresh directory reach, crashes included. -/
inductive Reachable : System → Prop
  | fresh : Reachable {}
  | step {sys : System} (environment : Environment) (op : Op) (reachable : Reachable sys) :
      Reachable (step environment op sys)
  | crash {sys : System} (n : Nat) (reachable : Reachable sys) : Reachable (crash n sys)

omit [HashFunction] in
theorem recorded_after {α : Type} {m : M α} (h : Keeps Impl.Recorded m) {i : Impl}
    (hi : i.Recorded) : (after m i).Recorded := h i hi

theorem recorded_step {sys : System} (h : sys.impl.Recorded) (environment : Environment) (op : Op) :
    (step environment op sys).impl.Recorded := by
  have given : (given environment sys.impl).Recorded := h.of_registries rfl rfl
  cases op with
  | openWith config => exact (Impl.Recorded.wp_openCoordinator config given).1
  | close => exact recorded_after Noted.closeCoordinator given
  | snapshot => exact recorded_after Noted.snapshotCoordinator given
  | submit bundle => exact recorded_after (Impl.Recorded.submit bundle) given
  | pump => exact recorded_after Framed.pump given
  | drainControls => exact recorded_after Noted.drainControls given
  | registerWorker registration => exact recorded_after (Framed.registerWorker registration) given
  | advertiseCapabilities session capabilities =>
    exact recorded_after (Touched.advertiseCapabilities session capabilities) given
  | markReady session => exact recorded_after (Framed.markReady session) given
  | heartbeat session => exact recorded_after (Touched.heartbeat session) given
  | beginCompile claim => exact recorded_after (Touched.beginCompile claim) given
  | validateResponse session mode evidence digest detail =>
    exact recorded_after (Touched.handleValidateResponse session mode evidence digest detail) given
  | shutdownSessions => exact recorded_after Noted.shutdownSessions given
  | failAttempt session report => exact recorded_after (Touched.failAttempt session report) given
  | disconnect session reason => exact recorded_after (Touched.disconnectSession session reason) given
  | cancel compilation reason => exact recorded_after (Touched.cancel compilation reason) given
  | reserve session output =>
    have hrun := recorded_after (Touched.reserveOutput session output) given
    unfold after at hrun
    simp only [System.step, reserveStep]
    split
    next heq => rw [heq] at hrun; exact hrun
    next heq => rw [heq] at hrun; exact hrun
  | validate n smoke =>
    simp only [System.step, validateStep]
    split
    next => exact given
    next reservation _ =>
      have hrun := recorded_after (Still.storeOutput reservation) given
      unfold after at hrun
      split
      next heq => rw [heq] at hrun; exact hrun
      next heq => rw [heq] at hrun; exact hrun
  | commit n =>
    simp only [System.step, commitStep]
    split
    next => exact given
    next reservation report _ =>
      exact recorded_after (Impl.Recorded.commitOutput _ _ _) given

theorem Reachable.recorded {sys : System} (h : Reachable sys) : sys.impl.Recorded := by
  induction h with
  | fresh => exact ⟨.initial, {}, .initial rfl⟩
  | step environment op _ ih => exact recorded_step ih environment op
  | crash n _ ih =>
    obtain ⟨-, saved, hsaved⟩ := ih
    exact ⟨.initial, saved, hsaved.listed, hsaved.fits, hsaved.payload⟩

-- ---------------------------------------------------------------------------
-- Stopping and opening again
-- ---------------------------------------------------------------------------

/-- The coordinator is closed, or its process ends. -/
inductive Stops (sys : System) : System → Prop
  | close (environment : Environment)
      (closed : (step environment .close sys).impl.opened = false) :
      Stops sys (step environment .close sys)
  | crash (n : Nat) : Stops sys (crash n sys)

/-- What a stop leaves on disk is what was there or the snapshot of the state. -/
theorem Stops.down {sys sys' : System} (h : sys.Stops sys') : sys'.impl.opened = false ∧
    (sys'.impl.store.snapshot = sys.impl.store.snapshot ∨
      (encodeState sys.impl.state).fits = true ∧
        sys'.impl.store.snapshot = (encodeState sys.impl.state).bytes) := by
  cases h with
  | close environment closed =>
    refine ⟨closed, ?_⟩
    let I : Impl → Prop := fun j => j.state = sys.impl.state ∧
      (j.store.snapshot = sys.impl.store.snapshot ∨ (encodeState sys.impl.state).fits = true ∧
        j.store.snapshot = (encodeState sys.impl.state).bytes)
    have written : Keeps I writeState := Still.wroteState sys.impl.state sys.impl.store.snapshot
    have unopened : Keeps I (onStore fun store => { store with isOpen := false }) :=
      Keeps.update fun _ hj => hj
    have ended : Keeps I (Program.update fun i => { i with opened := false } : M Unit) :=
      Keeps.update fun _ hj => hj
    have keeps : Keeps I closeCoordinator := by
      unfold closeCoordinator
      grind
    exact (keeps (given environment sys.impl) ⟨rfl, .inl rfl⟩).2
  | crash n => exact ⟨rfl, .inl rfl⟩

end System

/-- The registries answer as before, whatever they are asked, and every request
is checked as before. -/
structure Impl.Survives [HashFunction] (i i' : Impl) : Prop where
  answers : i.state.Answers i'.state
  checks : ∀ request, (registerAndCheck request i').1 = (registerAndCheck request i).1

/-- After a stop the snapshot on disk is that of some state, of the last one if
the close wrote it; the registries survive exactly when they hold the pairs they
held there, each id with the greatest of its generations as the current one. -/
theorem registries_survive_iff [HashFunction] {sys sys' : System} {environment : Environment}
    {config : CoordinatorConfig} (reachable : sys.Reachable) (stops : sys.Stops sys')
    (persists : config.enablePersistence = true)
    (opens : (sys'.step environment (.openWith config)).impl.opened = true) :
    (∃ saved, sys'.impl.store.Snapshots saved) ∧
      (sys'.impl.store.snapshot = sys.impl.store.snapshot ∨
        sys'.impl.store.Snapshots sys.impl.state) ∧
      ∀ saved, sys'.impl.store.Snapshots saved →
        (sys.impl.Survives (sys'.step environment (.openWith config)).impl ↔
          saved.Restores sys.impl.state) := by
  have hsys := reachable.recorded
  have hsys' : sys'.impl.Recorded := by
    cases stops with
    | close environment => exact (reachable.step environment .close).recorded
    | crash n => exact (reachable.crash n).recorded
  obtain ⟨hclosed, hsnapshot⟩ := stops.down
  refine ⟨hsys'.snapshots, ?_, ?_⟩
  · rcases hsnapshot with hkept | ⟨hfits, hbytes⟩
    · exact .inl hkept
    · exact .inr ⟨hsys.listed, Record.eachFits_of_fits hfits, .inr hbytes⟩
  · intro saved hsaved
    have given : (System.given environment sys'.impl).Recorded := hsys'.of_registries rfl rfl
    have hopen := (Impl.Recorded.wp_openCoordinator config given).2 hclosed persists opens saved hsaved
    have hiff := State.answers_iff hsaved.fits hopen (s := sys.impl.state)
    constructor
    · intro survives
      exact hiff.mp survives.answers
    · intro kept
      exact ⟨hiff.mpr kept, registerAndCheck_of_answers (hiff.mpr kept)⟩

/-- A fresh coordinator that is opened, closed and opened again. -/
theorem registries_survive_iff_fresh :
    let sys := System.step {} (.openWith {}) {}
    let sys' := System.step {} .close sys
    (∃ saved, sys'.impl.store.Snapshots saved) ∧
      (sys'.impl.store.snapshot = sys.impl.store.snapshot ∨
        sys'.impl.store.Snapshots sys.impl.state) ∧
      ∀ saved, sys'.impl.store.Snapshots saved →
        (sys.impl.Survives (sys'.step {} (.openWith {})).impl ↔ saved.Restores sys.impl.state) :=
  registries_survive_iff (.step _ _ .fresh) (.close _ (by decide +kernel)) rfl (by decide +kernel)

/-- A request of one compile unit with its source. -/
def plainBundle : SubmissionBundle where
  request := {
    requestId := ⟨1⟩
    toolchain := { family := .gnu, versionString := txt "13" }
    target := { os := .linux, arch := .x86_64 }
    units := [{ logicalName := txt "a", sources := [
      { logicalName := txt "a.cpp", content := { digest := sha256 (txt "x"), size := 1 } }] }] }
  blobs := [{ bytes := txt "x" }]

/-- Whether a coordinator that crashes after the submission, with its whole
journal on disk, reopens without a toolchain generation it had. -/
def forgetsToolchain (bundle : SubmissionBundle) : Bool :=
  let sys := System.step {} (.submit bundle) (System.step {} (.openWith {}) {})
  let sys' := System.step {} (.openWith {}) (sys.crash sys.impl.store.journal.length)
  sys'.impl.opened && sys.impl.state.toolchains.slots.toList.any fun entry =>
    entry.2.byContent.toList.any fun pair =>
      sys'.impl.state.toolchains.lookup entry.1 pair.1 !=
        sys.impl.state.toolchains.lookup entry.1 pair.1

set_option maxRecDepth 100000 in
/-- The registries of a crashed coordinator do not survive. -/
theorem not_registries_survive_crash : ¬∀ (sys sys' : System) (environment : Environment)
    (config : CoordinatorConfig), sys.Reachable → sys.Stops sys' → config.enablePersistence = true →
    (sys'.step environment (.openWith config)).impl.opened = true →
    sys.impl.Survives (sys'.step environment (.openWith config)).impl := by
  intro h
  have hforgets : forgetsToolchain plainBundle = true := by
    rw [forgetsToolchain, plainBundle, hashFunction_eq]
    decide +kernel
  unfold forgetsToolchain at hforgets
  simp only [Bool.and_eq_true, List.any_eq_true, bne_iff_ne] at hforgets
  obtain ⟨hopened, entry, -, pair, -, hlookup⟩ := hforgets
  have hsurvives := h _ _ {} {} (.step {} (.submit plainBundle) (.step {} (.openWith {}) .fresh))
    (.crash _) rfl hopened
  exact hlookup (hsurvives.answers.toolchains.lookup entry.1 pair.1)

end DistributedCompilation
