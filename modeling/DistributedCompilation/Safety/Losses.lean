import DistributedCompilation.Safety.MandatoryChildren
import DistributedCompilation.Safety.Disconnects
import DistributedCompilation.Safety.Held

/-!
# Distributed Compilation — lost workers

`disconnect_session` ends the attempts of a boot one by one, in the order of the
table. What each of them means for a compilation is known beforehand; the last
one that bears on it decides whether it waits for a new attempt.
-/

namespace DistributedCompilation

open Program (Keeps)

-- ---------------------------------------------------------------------------
-- Loops
-- ---------------------------------------------------------------------------

/-- A loop with what holds behind each of its prefixes. -/
theorem wp_forEach_steps {β : Type} {body : β → M Unit} {xs : List β} {I : List β → Impl → Prop}
    (step : ∀ (before : List β) (x : β) (rest : List β), xs = before ++ x :: rest → ∀ i, I before i →
      Program.wp (body x) (fun r j => r = .ok () → I (before ++ [x]) j) i) {i : Impl} (hi : I [] i) :
    Program.wp (Program.forEach xs body) (fun r j => r = .ok () → I xs j) i := by
  have run : ∀ (rest before : List β), xs = before ++ rest → ∀ i, I before i →
      Program.wp (Program.forEach rest body) (fun r j => r = .ok () → I xs j) i := by
    intro rest
    induction rest with
    | nil =>
      intro before hxs i hi _
      rw [List.append_nil] at hxs
      exact hxs ▸ hi
    | cons x rest ih =>
      intro before hxs i hi
      refine Program.wp_seq _ (step before x rest hxs i hi) (fun _ j hj => ?_) fun _ _ _ => nofun
      exact ih (before ++ [x]) (by rw [hxs, List.append_assoc]; rfl) j (hj rfl)
  exact run xs [] rfl i hi

-- ---------------------------------------------------------------------------
-- What a loss means
-- ---------------------------------------------------------------------------

/-- In some job the parent is a mandatory link over the child. -/
def State.linksOver (s : State) (child parent : CompilationId) : Bool :=
  s.jobs.values.any fun job =>
    match s.requests[job.requestIdentity]?, s.compilations[parent]? with
    | some request, some record => !parent.isZero && job.units.contains parent &&
        (request.findUnit record.unitIndex).any (linksTo job · child)
    | _, _ => false

/-- What the loss of the attempt with its session means for the compilation: it waits for
another attempt, it fails, or nothing. -/
def Impl.lossFor (i : Impl) (session : SessionRecord) (compilation : CompilationId) (id : CompilationAttemptId) :
    Option Bool := do
  let attempt ← i.state.attempts[id]?
  if ¬session.owns attempt ∨ isTerminalState attempt.state then none
  let record ← i.state.compilations[attempt.compilation]?
  let left := retryState (maxAttempts i.config (i.state.requests[record.requestIdentity]?)) record (lossCode attempt.state)
  if attempt.compilation = compilation then some (left == .eligible)
  else if left.lost && i.state.linksOver attempt.compilation compilation then some false
  else none

/-- What the last loss that bears on the compilation means for it. -/
def Impl.lastLoss (i : Impl) (session : SessionRecord) (compilation : CompilationId)
    (ids : List CompilationAttemptId) : Option Bool := (ids.filterMap (i.lossFor session compilation)).getLast?

/-- What failures leave of the links between compilations. -/
structure State.Kin (s s' : State) : Prop where
  requests : s'.requests = s.requests
  jobs : ∀ identity : Digest256, (s'.jobs[identity]?).map (·.frozen) = (s.jobs[identity]?).map (·.frozen)
  compilations : ∀ id : CompilationId, (s'.compilations[id]?).map (·.frozen) = (s.compilations[id]?).map (·.frozen)

theorem State.linksOver_iff {s : State} {child parent : CompilationId} : s.linksOver child parent = true ↔
    ∃ (identity : Digest256) (job : JobRecord) (request : CompilationRequest) (record : CompilationRecord)
      (unit : CompilationUnitSpec), s.jobs[identity]? = some job ∧
      s.requests[job.requestIdentity]? = some request ∧ s.compilations[parent]? = some record ∧
      parent.isZero = false ∧ parent ∈ job.units ∧ request.findUnit record.unitIndex = some unit ∧
      linksTo job unit child = true := by
  unfold State.linksOver
  rw [List.any_eq_true]
  constructor
  · rintro ⟨job, hjob, hlinks⟩
    obtain ⟨identity, hjob⟩ := Table.mem_values hjob
    split at hlinks
    next request record hrequest hrecord =>
      simp only [Bool.and_eq_true, Bool.not_eq_true', List.contains_iff_mem, Option.any_eq_true] at hlinks
      obtain ⟨⟨hzero, hunit⟩, unit, hfind, hlinks⟩ := hlinks
      exact ⟨identity, job, request, record, unit, hjob, hrequest, hrecord, hzero, hunit, hfind, hlinks⟩
    next => cases hlinks
  · rintro ⟨identity, job, request, record, unit, hjob, hrequest, hrecord, hzero, hunit, hfind, hlinks⟩
    refine ⟨job, Table.mem_values_of_get hjob, ?_⟩
    simp only [hrequest, hrecord, hzero, hfind, Option.any_some, hlinks, Bool.not_false, Bool.true_and, Bool.and_true,
      List.contains_iff_mem]
    exact hunit

namespace State.Kin

variable {s s' s'' : State}

theorem refl (s : State) : s.Kin s := ⟨rfl, fun _ => rfl, fun _ => rfl⟩

theorem symm (h : s.Kin s') : s'.Kin s :=
  ⟨h.requests.symm, fun identity => (h.jobs identity).symm, fun id => (h.compilations id).symm⟩

theorem trans (h : s.Kin s') (h' : s'.Kin s'') : s.Kin s'' :=
  ⟨h'.requests.trans h.requests, fun identity => (h'.jobs identity).trans (h.jobs identity),
    fun id => (h'.compilations id).trans (h.compilations id)⟩

/-- A record, up to what failures write. -/
theorem record (h : s.Kin s') {id : CompilationId} {next : CompilationRecord} (found : s'.compilations[id]? = some next) :
    ∃ record, s.compilations[id]? = some record ∧ next.frozen = record.frozen := by
  have hsame := h.compilations id
  rw [found, Option.map_some] at hsame
  obtain ⟨record, hrecord, hfrozen⟩ := Option.map_eq_some_iff.mp hsame.symm
  exact ⟨record, hrecord, hfrozen.symm⟩

theorem links (h : s.Kin s') {child parent : CompilationId} (hlinks : s'.linksOver child parent = true) :
    s.linksOver child parent = true := by
  obtain ⟨identity, job', request, record', unit, hjob', hrequest, hrecord', hzero, hunit, hfind, hlinks⟩ :=
    State.linksOver_iff.mp hlinks
  have hjobs := h.jobs identity
  rw [hjob', Option.map_some] at hjobs
  obtain ⟨job, hjob, hfrozen⟩ := Option.map_eq_some_iff.mp hjobs.symm
  have hunits : job.units = job'.units := (congrArg JobRecord.units hfrozen :)
  have hidentity : job.requestIdentity = job'.requestIdentity := (congrArg JobRecord.requestIdentity hfrozen :)
  obtain ⟨record, hrecord, hsame⟩ := h.record hrecord'
  have hindex : record'.unitIndex = record.unitIndex := (congrArg CompilationRecord.unitIndex hsame :)
  refine State.linksOver_iff.mpr ⟨identity, job, request, record, unit, hjob, ?_, hrecord, hzero, hunits ▸ hunit,
    hindex ▸ hfind, ?_⟩
  · rw [hidentity, ← h.requests]
    exact hrequest
  · unfold linksTo at hlinks ⊢
    rw [hunits]
    exact hlinks

/-- Links stay. -/
theorem linksOver (h : s.Kin s') (child parent : CompilationId) : s'.linksOver child parent = s.linksOver child parent :=
  Bool.eq_iff_iff.mpr ⟨h.links, h.symm.links⟩

end State.Kin

/-- A parent fails with its child if it is a mandatory link over it that is not settled,
and the child is lost. -/
theorem State.breaks_iff_linksOver {s : State} {failed id : CompilationId} {lost : CompilationRecord}
    (child : s.compilations[failed]? = some lost) (hne : id ≠ failed) {parent : CompilationRecord}
    (found : s.compilations[id]? = some parent) : s.Breaks failed id ↔
      lost.state.lost = true ∧ s.linksOver failed id = true ∧ parent.state.settled = false := by
  rw [State.linksOver_iff]
  constructor
  · rintro ⟨identity, job, request, hjob, hrequest, hunit, hbroken⟩
    unfold State.brokenParent at hbroken
    cases hfind : request.findUnit parent.unitIndex with
    | none => simp [hne, found, hfind] at hbroken
    | some unit =>
    have hzero : id.isZero = false := by
      by_contra hzero
      rw [Bool.not_eq_false] at hzero
      simp [hzero] at hbroken
    have hsettled : parent.state.settled = false := by
      by_contra hsettled
      rw [Bool.not_eq_false] at hsettled
      simp [hzero, hne, found, hsettled] at hbroken
    have hlinks : linksTo job unit failed = true := by
      by_contra hno
      rw [Bool.not_eq_true] at hno
      simp [hzero, hne, found, hsettled, hfind, hno] at hbroken
    have hlost : lost.state.lost = true := by
      by_contra hno
      rw [Bool.not_eq_true] at hno
      simp [hzero, hne, found, child, hno] at hbroken
    exact ⟨hlost, ⟨identity, job, request, parent, unit, hjob, hrequest, found, hzero, hunit, hfind, hlinks⟩, hsettled⟩
  · rintro ⟨hlost, ⟨identity, job, request, record, unit, hjob, hrequest, hrecord, hzero, hunit, hfind, hlinks⟩, hsettled⟩
    obtain rfl := Option.some.inj (found.symm.trans hrecord)
    refine ⟨identity, job, request, hjob, hrequest, hunit, ?_⟩
    unfold State.brokenParent
    simp [hzero, hne, found, hsettled, hfind, hlinks, child, hlost]

-- ---------------------------------------------------------------------------
-- One lost attempt
-- ---------------------------------------------------------------------------

instance (id : CompilationAttemptId) (attempt : Option CompilationAttempt) :
    Logged fun i => i.state.attempts[id]? = attempt where
  logged hi hstate _ := by
    rcases hstate with hstate | hstate
    · rw [hstate]
      exact hi
    · rw [hstate]
      exact hi

/-- An attempt that fails leaves the others as they are. -/
theorem failAttemptLocked_other {id other : CompilationAttemptId} (hne : id ≠ other)
    (attempt : Option CompilationAttempt) (code : ErrorCode) (detail : Bytes) :
    Keeps (fun i => i.state.attempts[id]? = attempt) (failAttemptLocked other code detail) := by
  have updated (f : CompilationAttempt → CompilationAttempt) :
      Keeps (fun i => i.state.attempts[id]? = attempt) (onAttempt other f) := by
    refine Keeps.update fun i hi => ?_
    unfold State.withAttempt
    simp only [Table.get_modify, if_neg (Ne.symm hne)]
    exact hi
  have moved (next : AttemptState) : Keeps (fun i => i.state.attempts[id]? = attempt) (transitionAttempt other next) := by
    unfold transitionAttempt
    refine Keeps.bind Still.getState fun s => ?_
    split
    · exact Keeps.pure _
    · split
      · exact Keeps.pure _
      · exact Keeps.bind (updated _) fun _ => Keeps.pure _
  have ended : Keeps (fun i => i.state.attempts[id]? = attempt) (finishAttemptBookkeeping other) := by
    unfold finishAttemptBookkeeping
    refine Keeps.bind Logged.now fun _ => Keeps.bind (updated _) fun _ => Keeps.bind Still.getState fun s => ?_
    split
    · exact Keeps.pure _
    · split
      · refine Keeps.bind Logged.now fun _ => Keeps.bind (Keeps.update fun i hi => hi) fun _ => ?_
        exact Keeps.update fun i hi => hi
      · exact Keeps.update fun i hi => hi
  have recorded : Keeps (fun i => i.state.attempts[id]? = attempt) (do
      onAttempt other fun attempt => { attempt with failure := code, failureDetail := detail }
      finishAttemptBookkeeping other
      persistAttempt other) :=
    Keeps.bind (updated _) fun _ => Keeps.bind ended fun _ => Logged.persistAttempt _
  unfold failAttemptLocked
  refine Keeps.bind (moved _) fun _ => Keeps.bind Still.getState fun s => ?_
  dsimp only
  split
  · split
    · exact recorded
    · exact Keeps.pure _
  · exact recorded

/-- What follows the failure of an attempt: the compilation goes where `retryState` says,
and what waits for it fails. -/
theorem wp_scheduleRetryOrFail {i : Impl} {id : CompilationId} {record : CompilationRecord}
    (found : i.state.compilations[id]? = some record) (code : ErrorCode) (detail : Bytes) :
    Program.wp (scheduleRetryOrFail id code detail) (fun r j => r = .ok () → j.config = i.config ∧
      ∃ (s : State) (next : CompilationRecord), s.compilations[id]? = some next ∧
        (∀ key, key ≠ id → s.compilations[key]? = i.state.compilations[key]?) ∧
        next.frozen = record.frozen ∧
        next.state = retryState (maxAttempts i.config (i.state.requests[record.requestIdentity]?)) record code ∧
        s.requests = i.state.requests ∧ s.jobs = i.state.jobs ∧ s.attempts = i.state.attempts ∧
        s.Spread id j.state ∧ ∀ parent, s.Breaks id parent → j.state.Failed parent) i := by
  unfold scheduleRetryOrFail
  rw [Program.wp_read_bind, found]
  simp only
  rw [Still.wp_now_bind, onCompilation, Still.wp_onState_bind]
  refine Program.wp_mono (wp_propagateFanInFailure id _) ?_
  rintro r j ⟨⟨hspread, hconfig⟩, hbreaks⟩ hr
  refine ⟨hconfig, _, { record with
    state := retryState (maxAttempts i.config (i.state.requests[record.requestIdentity]?)) record code
    failure := code
    failureDetail := detail
    updatedAt := i.readings.headD 0 }, ?_, ?_, ?_, ?_, ?_, ?_, ?_, hspread, hbreaks hr⟩
  · simp [State.withCompilation, found]
  · intro key hne
    simp only [State.withCompilation, Table.get_modify, if_neg (Ne.symm hne)]
  all_goals rfl

/-- What a loop over some of the attempts has done, as far as the compilation is
concerned. -/
structure Impl.Losing (i : Impl) (session : SessionRecord) (compilation : CompilationId)
    (before : List CompilationAttemptId) (j : Impl) : Prop where
  config : j.config = i.config
  kin : i.state.Kin j.state
  attempts : ∀ id, id ∉ before → j.state.attempts[id]? = i.state.attempts[id]?
  last : ∀ waits, i.lastLoss session compilation before = some waits → ∃ record,
    j.state.compilations[compilation]? = some record ∧ (waits = true ↔ record.state = .eligible)

theorem Impl.lastLoss_concat (i : Impl) (session : SessionRecord) (compilation : CompilationId)
    (before : List CompilationAttemptId) (id : CompilationAttemptId) :
    i.lastLoss session compilation (before ++ [id]) =
      (i.lossFor session compilation id).or (i.lastLoss session compilation before) := by
  unfold Impl.lastLoss
  rw [List.filterMap_append, List.getLast?_append]
  cases hloss : i.lossFor session compilation id with
  | none => simp [hloss]
  | some waits => simp [hloss]

namespace Impl.Losing

variable {i j k : Impl} {session : SessionRecord} {compilation : CompilationId} {before : List CompilationAttemptId}
  {id : CompilationAttemptId}

/-- An attempt that means nothing for the compilation. -/
theorem skip (h : i.Losing session compilation before j) (loss : i.lossFor session compilation id = none) :
    i.Losing session compilation (before ++ [id]) j where
  config := h.config
  kin := h.kin
  attempts key hkey := h.attempts key fun hbefore => hkey (List.mem_append_left _ hbefore)
  last waits hlast := by
    rw [Impl.lastLoss_concat, loss, Option.none_or] at hlast
    exact h.last waits hlast

instance : Logged (i.Losing session compilation before) where
  logged hi hstate hconfig := by
    rcases hstate with hstate | hstate
    · exact ⟨hconfig.trans hi.config, hstate ▸ hi.kin, hstate ▸ hi.attempts, hstate ▸ hi.last⟩
    · refine ⟨hconfig.trans hi.config, ?_, ?_, ?_⟩
      · rw [hstate]
        exact ⟨hi.kin.requests, hi.kin.jobs, hi.kin.compilations⟩
      · rw [hstate]
        exact hi.attempts
      · rw [hstate]
        exact hi.last

end Impl.Losing

theorem State.Spread.kin {failed : CompilationId} {s s' : State} (h : s.Spread failed s') : s.Kin s' where
  requests := h.requests
  jobs := h.jobs
  compilations id := by
    rcases h.compilations id with hsame | ⟨-, record, record', hrecord, hrecord', -, hfrozen⟩
    · rw [hsame]
    · rw [hrecord, hrecord', Option.map_some, Option.map_some, hfrozen]

/-- The rule looks at the identity of the record only. -/
theorem retryState_of_frozen {record record' : CompilationRecord} (frozen : record'.frozen = record.frozen)
    (limit : UInt32) (code : ErrorCode) : retryState limit record' code = retryState limit record code := by
  have hcounter : record'.attemptOrdinalCounter = record.attemptOrdinalCounter :=
    (congrArg CompilationRecord.attemptOrdinalCounter frozen :)
  unfold retryState
  rw [hcounter]

namespace Impl.Losing

variable {i j k : Impl} {session : SessionRecord} {compilation : CompilationId} {before : List CompilationAttemptId}
  {id : CompilationAttemptId} {attempt : CompilationAttempt}

/-- An attempt that means something. -/
theorem lose (h : i.Losing session compilation before k) (found : i.state.attempts[id]? = some attempt)
    (lost : ¬(¬session.owns attempt = true ∨ isTerminalState attempt.state = true)) {s : State} {record next : CompilationRecord}
    (hrecord : k.state.compilations[attempt.compilation]? = some record) (config : j.config = k.config)
    (hnext : s.compilations[attempt.compilation]? = some next)
    (other : ∀ key, key ≠ attempt.compilation → s.compilations[key]? = k.state.compilations[key]?)
    (frozen : next.frozen = record.frozen)
    (state : next.state = retryState (maxAttempts k.config (k.state.requests[record.requestIdentity]?)) record
      (lossCode attempt.state)) (requests : s.requests = k.state.requests) (jobs : s.jobs = k.state.jobs)
    (attempts : ∀ key, key ≠ id → s.attempts[key]? = k.state.attempts[key]?)
    (spread : s.Spread attempt.compilation j.state)
    (breaks : ∀ parent, s.Breaks attempt.compilation parent → j.state.Failed parent) :
    i.Losing session compilation (before ++ [id]) j := by
  have hkin : i.state.Kin s := by
    refine ⟨requests.trans h.kin.requests, fun identity => by rw [jobs]; exact h.kin.jobs identity, fun key => ?_⟩
    by_cases hkey : key = attempt.compilation
    · subst hkey
      rw [← h.kin.compilations, hnext, hrecord, Option.map_some, Option.map_some, frozen]
    · rw [other key hkey]
      exact h.kin.compilations key
  obtain ⟨first, hfirst, hsame⟩ := h.kin.record hrecord
  have hidentity : record.requestIdentity = first.requestIdentity :=
    (congrArg CompilationRecord.requestIdentity hsame :)
  -- what the loss means was known beforehand
  have hleft : next.state = retryState (maxAttempts i.config (i.state.requests[first.requestIdentity]?)) first
      (lossCode attempt.state) := by
    rw [state, h.config, h.kin.requests, hidentity]
    exact retryState_of_frozen hsame _ _
  have hloss : i.lossFor session compilation id =
      if attempt.compilation = compilation then some (next.state == .eligible)
      else if next.state.lost && i.state.linksOver attempt.compilation compilation then some false
      else none := by
    unfold Impl.lossFor
    rw [found, Option.bind_eq_bind, Option.bind_some, if_neg lost, hfirst, Option.bind_eq_bind, Option.bind_some, ← hleft]
  refine ⟨config.trans h.config, hkin.trans spread.kin, fun key hkey => ?_, fun waits hlast => ?_⟩
  · rw [List.mem_append, not_or, List.mem_singleton] at hkey
    rw [spread.attempts, attempts key hkey.2]
    exact h.attempts key hkey.1
  · rw [Impl.lastLoss_concat, hloss] at hlast
    by_cases hown : attempt.compilation = compilation
    · subst hown
      rw [if_pos rfl, Option.some_or] at hlast
      obtain rfl := Option.some.inj hlast
      exact ⟨next, spread.child.trans hnext, by rw [beq_iff_eq]⟩
    · rw [if_neg hown] at hlast
      have hne : compilation ≠ attempt.compilation := fun heq => hown heq.symm
      by_cases hlinks : (next.state.lost && i.state.linksOver attempt.compilation compilation) = true
      · rw [if_pos hlinks, Option.some_or] at hlast
        obtain rfl := Option.some.inj hlast
        rw [Bool.and_eq_true] at hlinks
        obtain ⟨-, -, -, parent, -, -, -, hparent, -⟩ := State.linksOver_iff.mp ((hkin.linksOver _ _).trans hlinks.2)
        by_cases hsettled : parent.state.settled = true
        · rcases spread.compilations compilation with hkept | ⟨-, -, parent', -, hparent', hfailed, -⟩
          · refine ⟨parent, hkept.trans hparent, ?_⟩
            revert hsettled
            cases parent.state <;> decide
          · exact ⟨parent', hparent', by simp [hfailed]⟩
        · have hbreaks : s.Breaks attempt.compilation compilation :=
            (State.breaks_iff_linksOver hnext hne hparent).mpr
              ⟨hlinks.1, (hkin.linksOver _ _).trans hlinks.2, by simpa using hsettled⟩
          obtain ⟨parent', hparent', hfailed⟩ := breaks compilation hbreaks
          exact ⟨parent', hparent', by simp [hfailed]⟩
      · rw [if_neg hlinks, Option.none_or] at hlast
        obtain ⟨parent, hparent, hwaits⟩ := h.last waits hlast
        have hparent : s.compilations[compilation]? = some parent := (other compilation hne).trans hparent
        rcases spread.compilations compilation with hkept | ⟨hbreaks, -⟩
        · exact ⟨parent, hkept.trans hparent, hwaits⟩
        · obtain ⟨hlost, hover, -⟩ := (State.breaks_iff_linksOver hnext hne hparent).mp hbreaks
          rw [hkin.linksOver] at hover
          exact absurd (Bool.and_eq_true_iff.mpr ⟨hlost, hover⟩) hlinks

end Impl.Losing

/-- One round of the loop. -/
theorem Impl.Losing.wp_loseAttempt {i j : Impl} {session : SessionRecord} {compilation : CompilationId}
    {before : List CompilationAttemptId} {id : CompilationAttemptId} (h : i.Losing session compilation before j)
    (fresh : id ∉ before) (detail : Bytes) : Program.wp (loseAttempt session detail id) (fun r k => r = .ok () →
      i.Losing session compilation (before ++ [id]) k) j := by
  unfold loseAttempt
  rw [Still.wp_getState_bind, h.attempts id fresh]
  split
  next hnone =>
    exact fun _ => h.skip (by unfold Impl.lossFor; rw [hnone]; rfl)
  next attempt found =>
  by_cases lost : ¬session.owns attempt = true ∨ isTerminalState attempt.state = true
  · rw [if_pos lost]
    refine fun _ => h.skip ?_
    unfold Impl.lossFor
    rw [found, Option.bind_eq_bind, Option.bind_some, if_pos lost]
    rfl
  · rw [if_neg lost]
    have hfailed : Program.wp (ignoring (failAttemptLocked id (lossCode attempt.state) detail)) (fun _ k =>
        k.config = j.config ∧ (k.state.compilations = j.state.compilations ∧ k.state.jobs = j.state.jobs ∧
          k.state.requests = j.state.requests) ∧
        ∀ key, key ≠ id → k.state.attempts[key]? = j.state.attempts[key]?) j := by
      have : Aloof fun k => k.state.compilations = j.state.compilations ∧ k.state.jobs = j.state.jobs ∧
          k.state.requests = j.state.requests :=
        ⟨fun hi compilations jobs requests => ⟨compilations.trans hi.1, jobs.trans hi.2.1, requests.trans hi.2.2⟩⟩
      have kept := Still.ignoring (Aloof.failAttemptLocked (I := fun k => k.state.compilations = j.state.compilations ∧
        k.state.jobs = j.state.jobs ∧ k.state.requests = j.state.requests) id (lossCode attempt.state) detail)
      have held := Still.ignoring (Held.failAttemptLocked (I := fun k => k.config = j.config) id
        (lossCode attempt.state) detail)
      exact ⟨held j rfl, kept j ⟨rfl, rfl, rfl⟩, fun key hne =>
        Still.ignoring (failAttemptLocked_other hne _ _ _) j rfl⟩
    refine Program.wp_seq _ hfailed ?_ fun _ _ _ => nofun
    rintro - k ⟨config, ⟨compilations, jobs, requests⟩, attempts⟩
    rw [Still.wp_getState_bind]
    split
    next hcontains =>
      obtain ⟨record, hrecord⟩ := Table.contains_iff.mp hcontains
      refine Program.wp_seq _ (wp_scheduleRetryOrFail hrecord _ _) (fun _ l hl => ?_) fun _ _ _ => nofun
      obtain ⟨hconfig, s, next, hnext, other, frozen, state, hrequests, hjobs, hattempts, spread, breaks⟩ := hl rfl
      have hlosing : i.Losing session compilation (before ++ [id]) l := by
        refine h.lose found lost (compilations ▸ hrecord) (hconfig.trans config) hnext ?_ frozen ?_
          (hrequests.trans requests) (hjobs.trans jobs) ?_ spread breaks
        · intro key hne
          rw [other key hne, compilations]
        · rw [state, config, requests]
        · intro key hne
          rw [hattempts]
          exact attempts key hne
      have hpersisted := Still.ignoring (Logged.persistCompilation
        (I := i.Losing session compilation (before ++ [id])) attempt.compilation)
      exact Program.wp_mono (hpersisted l hlosing) fun _ _ hm _ => hm
    next hmissing =>
      have hnone : i.state.compilations[attempt.compilation]? = none := by
        have hkin := h.kin.compilations attempt.compilation
        rw [Bool.not_eq_true, Table.contains_eq_false, compilations] at hmissing
        rw [hmissing, Option.map_none] at hkin
        exact Option.map_eq_none_iff.mp hkin.symm
      have hloss : i.lossFor session compilation id = none := by
        unfold Impl.lossFor
        rw [found, Option.bind_eq_bind, Option.bind_some, if_neg lost, hnone]
        rfl
      intro _
      show i.Losing session compilation (before ++ [id]) k
      refine ⟨config.trans h.config, ?_, fun key hkey => ?_, fun waits hlast => ?_⟩
      · refine ⟨requests.trans h.kin.requests, fun identity => ?_, fun key => ?_⟩
        · rw [jobs]
          exact h.kin.jobs identity
        · rw [compilations]
          exact h.kin.compilations key
      · rw [List.mem_append, not_or, List.mem_singleton] at hkey
        exact (attempts key hkey.2).trans (h.attempts key hkey.1)
      · rw [Impl.lastLoss_concat, hloss, Option.none_or] at hlast
        rw [compilations]
        exact h.last waits hlast

-- ---------------------------------------------------------------------------
-- The attempt itself
-- ---------------------------------------------------------------------------

/-- The attempt holds no authority any more, and its lease is revoked. -/
structure State.Ended (s : State) (id : CompilationAttemptId) (lease : LeaseId) : Prop where
  dormant : ∃ attempt, s.attempts[id]? = some attempt ∧ holdsCommitAuthority attempt.state = false
  revoked : ∀ entry, s.leases[lease]? = some entry → entry.revoked = true

section

variable [HashFunction]

instance (id : CompilationAttemptId) (lease : LeaseId) : Touched fun i => i.state.Ended id lease where
  quiet hi hstate _ := hstate ▸ hi
  touch {i s} hi h := by
    obtain ⟨attempt, found, hdormant⟩ := hi.dormant
    obtain ⟨next, hnext, hcontinues⟩ := (State.Steady.of_touch h).attempts id attempt found
    refine ⟨⟨next, hnext, (hcontinues.dormant hdormant).1⟩, ?_⟩
    cases h with
    | note notes =>
      rw [notes.leases]
      exact hi.revoked
    | record | attempt | worker | session => exact hi.revoked
    | @lease key f expires =>
      intro entry hentry
      rcases Table.of_get_modify hentry with ⟨before, hbefore, rfl | ⟨rfl, rfl⟩⟩
      · exact hi.revoked _ hbefore
      · exact (expires before hbefore).revoked (hi.revoked _ hbefore)
    | revoke worker reason =>
      intro entry hentry
      simp only [State.revokeLeasesFor, Table.get_map] at hentry
      obtain ⟨before, hbefore, rfl⟩ := Option.map_eq_some_iff.mp hentry
      split
      · rfl
      · exact hi.revoked _ hbefore

omit [HashFunction] in
/-- The bookkeeping of an attempt that holds no authority revokes its lease. -/
theorem wp_finishAttemptBookkeeping_ends {i : Impl} {id : CompilationAttemptId} {attempt : CompilationAttempt}
    (found : i.state.attempts[id]? = some attempt) (dormant : holdsCommitAuthority attempt.state = false) :
    Program.wp (finishAttemptBookkeeping id) (fun _ j => j.state.Ended id attempt.lease) i := by
  have revoked (s : State) (reason : Bytes) (hs : s.attempts[id]? = some { attempt with finishedAt := i.readings.headD 0 }) :
      (s.withLease attempt.lease (·.revoke reason)).Ended id attempt.lease := by
    refine ⟨⟨_, hs, dormant⟩, fun entry hentry => ?_⟩
    rw [State.withLease, Table.get_modify, if_pos rfl] at hentry
    obtain ⟨before, -, rfl⟩ := Option.map_eq_some_iff.mp hentry
    rfl
  unfold finishAttemptBookkeeping
  rw [Still.wp_now_bind, onAttempt, Still.wp_onState_bind, Still.wp_getState_bind]
  have hfound : (i.state.withAttempt id fun attempt =>
      { attempt with finishedAt := i.readings.headD 0 }).attempts[id]? =
      some { attempt with finishedAt := i.readings.headD 0 } := by
    simp [State.withAttempt, found]
  simp only [hfound]
  split
  · exact revoked _ _ hfound
  · exact revoked _ _ hfound

omit [HashFunction] in
/-- An attempt that fails in a state that may lead to its end is over. -/
theorem wp_failAttemptLocked_ends {i : Impl} {id : CompilationAttemptId} {attempt : CompilationAttempt}
    {code : ErrorCode} (found : i.state.attempts[id]? = some attempt) (leads : attempt.state.Leads (failedState code))
    (dormant : holdsCommitAuthority (failedState code) = false) (detail : Bytes) :
    Program.wp (failAttemptLocked id code detail) (fun _ j => j.state.Ended id attempt.lease) i := by
  unfold failAttemptLocked
  refine Program.wp_seq _ (wp_transitionAttempt found _) ?_ ?_
  · rintro moved j (⟨-, hmoved, rfl⟩ | ⟨hillegal, -⟩)
    · obtain rfl := Except.ok.inj hmoved
      rw [Still.wp_getState_bind, onAttempt]
      dsimp only
      rw [Still.wp_onState_bind]
      refine Program.wp_seq _ (@wp_finishAttemptBookkeeping_ends _ id { attempt with
        state := failedState code
        failure := code
        failureDetail := detail } ?_ dormant) (fun _ k hk => ?_) fun _ _ h => h
      · simp [State.withAttempt, found]
      · exact Noted.persistAttempt (I := fun i => i.state.Ended id attempt.lease) id k hk
    · exact absurd leads hillegal
  · rintro fault j (⟨-, hmoved, -⟩ | ⟨-, -, status, hstatus⟩)
    · cases hmoved
    · cases hstatus

omit [HashFunction] in
/-- One that may not stays as it is. -/
theorem wp_failAttemptLocked_stays {i : Impl} {id : CompilationAttemptId} {attempt : CompilationAttempt}
    {code : ErrorCode} (found : i.state.attempts[id]? = some attempt) (illegal : ¬attempt.state.Leads (failedState code))
    (live : isTerminalState attempt.state = false) (detail : Bytes) :
    Program.wp (failAttemptLocked id code detail) (fun _ j => j = i) i := by
  unfold failAttemptLocked
  refine Program.wp_seq _ (wp_transitionAttempt found _) ?_ ?_
  · rintro moved j (⟨hleads, -⟩ | ⟨-, rfl, status, hstatus⟩)
    · exact absurd hleads illegal
    · obtain rfl := Except.ok.inj hstatus
      rw [Still.wp_getState_bind]
      simp only [found, Option.any_some, live, Bool.false_eq_true, if_false]
      rfl
  · rintro fault j (⟨-, hmoved, -⟩ | ⟨-, -, status, hstatus⟩)
    · cases hmoved
    · cases hstatus

/-- The states whose loss is ambiguous although a candidate exists. -/
def AttemptState.hasCandidate : AttemptState → Bool
  | .produced | .validating => true
  | _ => false

omit [HashFunction] in
theorem leads_lossCode {state : AttemptState} (holds : holdsCommitAuthority state = true)
    (early : state.hasCandidate = false) : state.Leads (failedState (lossCode state)) ∧
      holdsCommitAuthority (failedState (lossCode state)) = false := by
  unfold AttemptState.Leads
  revert holds early
  cases state <;> decide

omit [HashFunction] in
theorem not_leads_lossCode {state : AttemptState} (late : state.hasCandidate = true) :
    ¬state.Leads (failedState (lossCode state)) := by
  unfold AttemptState.Leads
  revert late
  cases state <;> decide

-- ---------------------------------------------------------------------------
-- The loop
-- ---------------------------------------------------------------------------

omit [HashFunction] in
/-- What follows a failure leaves all attempts as they are. -/
theorem scheduleRetryOrFail_attempts (id : CompilationAttemptId) (attempt : Option CompilationAttempt)
    (compilation : CompilationId) (code : ErrorCode) (detail : Bytes) :
    Keeps (fun i => i.state.attempts[id]? = attempt) (scheduleRetryOrFail compilation code detail) := by
  unfold scheduleRetryOrFail
  refine Keeps.bind .read fun i => ?_
  split
  · exact Keeps.pure _
  · refine Keeps.bind Logged.now fun _ => Keeps.bind (Keeps.update fun i hi => hi) fun _ => fun i hi => ?_
    refine Program.wp_mono (wp_propagateFanInFailure compilation i) ?_
    rintro - j ⟨⟨spread, -⟩, -⟩
    rw [spread.attempts]
    exact hi

omit [HashFunction] in
/-- A lost attempt leaves the others as they are. -/
theorem loseAttempt_other {id other : CompilationAttemptId} (hne : id ≠ other) (attempt : Option CompilationAttempt)
    (session : SessionRecord) (detail : Bytes) :
    Keeps (fun i => i.state.attempts[id]? = attempt) (loseAttempt session detail other) := by
  unfold loseAttempt
  refine Keeps.bind Still.getState fun s => ?_
  split
  · exact Keeps.pure _
  · split
    · exact Keeps.pure _
    · refine Keeps.bind (Still.ignoring (failAttemptLocked_other hne _ _ _)) fun _ => Keeps.bind Still.getState fun s => ?_
      split
      · exact Keeps.bind (scheduleRetryOrFail_attempts _ _ _ _ _) fun _ => Still.ignoring (Logged.persistCompilation _)
      · exact Keeps.pure _

omit [HashFunction] in
/-- A loop over different attempts that ends the one. -/
theorem wp_forEach_ends {i : Impl} {session : SessionRecord} {id : CompilationAttemptId} {attempt : CompilationAttempt}
    {ids : List CompilationAttemptId} (hid : id ∈ ids) (nodup : ids.Nodup) (found : i.state.attempts[id]? = some attempt)
    (owned : session.owns attempt = true) (holds : holdsCommitAuthority attempt.state = true)
    (early : attempt.state.hasCandidate = false) (detail : Bytes) :
    Program.wp (Program.forEach ids (loseAttempt session detail)) (fun r j => r = .ok () →
      j.state.Ended id attempt.lease) i := by
  have live : isTerminalState attempt.state = false := by
    revert holds
    cases attempt.state <;> decide
  refine Program.wp_mono (wp_forEach_steps (I := fun before j => if id ∈ before then j.state.Ended id attempt.lease
    else j.state.attempts[id]? = some attempt) ?_ (by simpa using found)) ?_
  · intro before x rest hids j hj
    have hfresh : x ∉ before := by
      rw [hids] at nodup
      exact fun hx => (List.nodup_append.mp nodup).2.2 x hx x (.head _) rfl
    by_cases hx : x = id
    · subst hx
      rw [if_neg hfresh] at hj
      have hin : x ∈ before ++ [x] := by simp
      simp only [if_pos hin]
      unfold loseAttempt
      rw [Still.wp_getState_bind, hj]
      simp only [owned, live, Bool.false_eq_true, not_true_eq_false, or_self, if_false]
      refine Program.wp_seq (fun _ k => k.state.Ended x attempt.lease) ?_ (fun _ k hk => ?_) fun _ _ _ => nofun
      · obtain ⟨leads, dormant⟩ := leads_lossCode holds early
        exact Program.wp_seq _ (wp_failAttemptLocked_ends hj leads dormant _) (fun _ _ h => h) fun _ _ h => h
      · have hrest : Keeps (fun k : Impl => k.state.Ended x attempt.lease) (do
            let s ← getState
            if s.compilations.contains attempt.compilation then
              scheduleRetryOrFail attempt.compilation (lossCode attempt.state) detail
              ignoring (persistCompilation attempt.compilation)) := by
          grind
        exact Program.wp_mono (hrest k hk) fun _ _ h _ => h
    · by_cases hbefore : id ∈ before
      · rw [if_pos hbefore] at hj
        have hin : id ∈ before ++ [x] := List.mem_append_left _ hbefore
        simp only [if_pos hin]
        exact Program.wp_mono (Touched.loseAttempt (I := fun k => k.state.Ended id attempt.lease) _ _ _ j hj)
          fun _ _ h _ => h
      · rw [if_neg hbefore] at hj
        have hout : id ∉ before ++ [x] := by
          rw [List.mem_append, not_or, List.mem_singleton]
          exact ⟨hbefore, Ne.symm hx⟩
        simp only [if_neg hout]
        exact Program.wp_mono (loseAttempt_other (Ne.symm hx) _ _ _ j hj) fun _ _ h _ => h
  · intro r j hj hr
    have hend := hj hr
    rw [if_pos hid] at hend
    exact hend

omit [HashFunction] in
/-- A loop that cannot end the one leaves it as it is. -/
theorem wp_forEach_stays {i : Impl} {session : SessionRecord} {id : CompilationAttemptId} {attempt : CompilationAttempt}
    (ids : List CompilationAttemptId) (found : i.state.attempts[id]? = some attempt)
    (late : attempt.state.hasCandidate = true) (detail : Bytes) :
    Program.wp (Program.forEach ids (loseAttempt session detail)) (fun _ j => j.state.attempts[id]? = some attempt) i := by
  refine Keeps.forEach ids (fun x _ => ?_) i found
  by_cases hx : x = id
  · subst hx
    intro j hj
    unfold loseAttempt
    rw [Still.wp_getState_bind, hj]
    simp only
    split
    · exact hj
    next hlost =>
      rw [not_or, Bool.not_eq_true, Bool.not_eq_true] at hlost
      refine Program.wp_seq (fun _ k => k = j) ?_ ?_ ?_
      · have stays := wp_failAttemptLocked_stays hj (not_leads_lossCode late) hlost.2 detail
        exact Program.wp_seq _ stays (fun _ _ h => h) fun _ _ h => h
      · rintro - k rfl
        rw [Still.wp_getState_bind]
        split
        · refine Program.wp_seq _ (scheduleRetryOrFail_attempts _ _ _ _ _ k hj) ?_ fun _ _ h => h
          exact fun _ l hl => Still.ignoring (Logged.persistCompilation _) l hl
        · exact hj
      · rintro - k rfl
        exact hj
  · exact loseAttempt_other (Ne.symm hx) _ _ _

-- ---------------------------------------------------------------------------
-- The disconnect
-- ---------------------------------------------------------------------------

/-- The session is that of a worker of the same boot, and the disconnect takes place. -/
structure Impl.LosesWorker (i : Impl) (id : SessionId) (session : SessionRecord) (worker : WorkerRecord) : Prop where
  opened : i.opened = true
  found : i.state.sessions[id]? = some session
  isWorker : session.isWorker = true
  registered : i.state.workers[session.worker]? = some worker
  boot : worker.boot = session.boot

/-- An attempt of the session that holds authority, over a compilation without an
authoritative commit that may have further attempts. -/
structure Impl.AtRisk (i : Impl) (session : SessionRecord) (id : CompilationAttemptId) (attempt : CompilationAttempt)
    (record : CompilationRecord) : Prop where
  found : i.state.attempts[id]? = some attempt
  owned : session.owns attempt = true
  holds : holdsCommitAuthority attempt.state = true
  compilation : i.state.compilations[attempt.compilation]? = some record
  uncommitted : i.state.authoritative[attempt.compilation]? = none
  budget : record.attemptOrdinalCounter < maxAttempts i.config (i.state.requests[record.requestIdentity]?)

/-- The attempt is over, nothing of it is left on the worker, and the compilation waits for
an attempt whose lease will have a larger generation. -/
structure State.Requeued (s : State) (id : CompilationAttemptId) (attempt : CompilationAttempt) : Prop where
  ended : s.Ended id attempt.lease
  released : ∀ worker, s.workers[attempt.worker]? = some worker → attempt.lease ∉ worker.activeLeases
  uncommitted : s.authoritative[attempt.compilation]? = none
  waits : ∃ record, s.compilations[attempt.compilation]? = some record ∧ record.state = .eligible ∧
    ∀ (worker : WorkerRecord) (speculative : Bool) (createdAt : UnixMillis),
      attempt.leaseGeneration.value < (s.attemptFor worker record speculative createdAt).leaseGeneration.value

/-- What a disconnect does behind its guards. -/
theorem Impl.LosesWorker.wp_disconnectSession {i : Impl} {id : SessionId} {session : SessionRecord}
    {worker : WorkerRecord} (h : i.LosesWorker id session worker) {reason : Bytes} {Q : Except Fault Unit → Impl → Prop}
    (wp : Program.wp (do
      Program.forEach i.state.attempts.keys (loseAttempt session (txt "worker session lost: " ++ reason))
      fenceWorker session.worker (txt "worker session lost: " ++ reason)
      ignoring (persistWorker session.worker)) Q
      { i with state := i.state.withSession id fun session => { session with isOpen := false } }) :
    Program.wp (disconnectSession id reason) Q i := by
  have hnotOpen : ¬¬i.opened = true := by simp [h.opened]
  unfold disconnectSession
  rw [Program.wp_read_bind, if_neg hnotOpen]
  simp only [h.found, h.isWorker, h.registered, h.boot, not_true_eq_false, ne_eq, if_false]
  rw [Still.wp_onState_bind]
  exact wp

/-- Fencing a worker takes its leases from it and leaves attempts and compilations alone. -/
theorem wp_fenceWorker_clears {i : Impl} (id : WorkerId) (reason : Bytes) :
    Program.wp (do
      fenceWorker id reason
      ignoring (persistWorker id)) (fun r j => j.state.attempts = i.state.attempts ∧
        j.state.compilations = i.state.compilations ∧
        (r = .ok () → ∀ worker, j.state.workers[id]? = some worker → worker.activeLeases = [])) i := by
  let I : Impl → Prop := fun j => j.state.attempts = i.state.attempts ∧
    j.state.compilations = i.state.compilations ∧
    ∀ worker, j.state.workers[id]? = some worker → worker.activeLeases = []
  have : Logged I := by
    refine ⟨fun hj hstate _ => ?_⟩
    rcases hstate with hstate | hstate
    · unfold I
      rw [hstate]
      exact hj
    · unfold I
      rw [hstate]
      exact hj
  have distrusted : Keeps I (markCapabilitiesUnknown id) := by
    unfold markCapabilitiesUnknown
    refine Keeps.bind Still.getState fun s => ?_
    split
    · exact Keeps.pure _
    · refine Keeps.bind (Keeps.update fun j hj => ⟨hj.1, hj.2.1, fun worker hworker => ?_⟩) fun _ => ?_
      · rcases Table.of_get_modify hworker with ⟨before, hbefore, rfl | ⟨-, rfl⟩⟩
        · exact hj.2.2 _ hbefore
        · exact hj.2.2 before hbefore
      · split
        · exact Keeps.pure _
        · exact Keeps.leave _
  have hrest : Keeps I (do
      markCapabilitiesUnknown id
      onState (·.revokeLeasesFor id reason)) := Keeps.bind distrusted fun _ => Keeps.update fun j hj => hj
  unfold fenceWorker
  refine Program.wp_seq (fun _ j => I j) ?_ (fun _ j hj => ?_) fun _ j hj => ⟨hj.1, hj.2.1, fun _ => hj.2.2⟩
  · refine Program.wp_seq (fun _ j => I j) ⟨rfl, rfl, fun worker hworker => ?_⟩ (fun _ j hj => hrest j hj) fun _ _ hj => hj
    have hworker : (i.state.workers.modify id _)[id]? = some worker := hworker
    rw [Table.get_modify, if_pos rfl] at hworker
    obtain ⟨before, -, rfl⟩ := Option.map_eq_some_iff.mp hworker
    rfl
  · exact Program.wp_mono (Still.ignoring (Logged.persistWorker (I := I) id) j hj) fun _ k hk =>
      ⟨hk.1, hk.2.1, fun _ => hk.2.2⟩

/-- What a disconnect that returns has done to the compilation and to the attempt. -/
theorem Impl.AtRisk.wp_disconnectSession {i : Impl} {id : SessionId} {session : SessionRecord} {worker : WorkerRecord}
    (lost : i.LosesWorker id session worker) {key : CompilationAttemptId} {attempt : CompilationAttempt}
    {record : CompilationRecord} (h : i.AtRisk session key attempt record) (reason : Bytes) :
    Program.wp (disconnectSession id reason) (fun r j => r = .ok () →
      (∃ next, j.state.compilations[attempt.compilation]? = some next ∧
        (next.state = .eligible ↔ i.lastLoss session attempt.compilation i.state.attempts.keys = some true)) ∧
      (attempt.state.hasCandidate = false → j.state.Ended key attempt.lease) ∧
      (attempt.state.hasCandidate = true → j.state.attempts[key]? = some attempt) ∧
      ∀ worker, j.state.workers[session.worker]? = some worker → worker.activeLeases = []) i := by
  refine lost.wp_disconnectSession ?_
  have nodup : i.state.attempts.keys.Nodup := Std.ExtTreeMap.nodup_keys
  have hkey : key ∈ i.state.attempts.keys := by
    rw [Std.ExtTreeMap.mem_keys, ← Std.ExtTreeMap.contains_iff_mem, Table.contains_iff]
    exact ⟨attempt, h.found⟩
  -- the loop, as far as the compilation is concerned
  have hlosing := @wp_forEach_steps _ (loseAttempt session (txt "worker session lost: " ++ reason))
    i.state.attempts.keys (i.Losing session attempt.compilation) (fun before x rest hids k hk => hk.wp_loseAttempt (by
      rw [hids] at nodup
      exact fun hx => (List.nodup_append.mp nodup).2.2 x hx x (.head _) rfl) _)
    (i := { i with state := i.state.withSession id fun session => { session with isOpen := false } })
    ⟨rfl, ⟨rfl, fun _ => rfl, fun _ => rfl⟩, fun _ _ => rfl, fun _ hlast => by cases hlast⟩
  -- the last loss that counts is that of the attempt or a later one
  have hsome : ∃ waits, i.lastLoss session attempt.compilation i.state.attempts.keys = some waits := by
    have live : isTerminalState attempt.state = false := by
      have hholds := h.holds
      revert hholds
      cases attempt.state <;> decide
    have hloss : ∃ waits, i.lossFor session attempt.compilation key = some waits := by
      unfold Impl.lossFor
      simp [h.found, h.owned, live, h.compilation]
    obtain ⟨waits, hwaits⟩ := hloss
    have hmem : waits ∈ i.state.attempts.keys.filterMap (i.lossFor session attempt.compilation) :=
      List.mem_filterMap.mpr ⟨key, hkey, hwaits⟩
    cases hlast : i.lastLoss session attempt.compilation i.state.attempts.keys with
    | none =>
      rw [Impl.lastLoss, List.getLast?_eq_none_iff] at hlast
      rw [hlast] at hmem
      cases hmem
    | some waits => exact ⟨waits, rfl⟩
  have hended := wp_forEach_ends (i := { i with state := i.state.withSession id fun session =>
    { session with isOpen := false } }) hkey nodup h.found h.owned h.holds
  have hstays := @wp_forEach_stays { i with state := i.state.withSession id fun session =>
    { session with isOpen := false } } session key attempt i.state.attempts.keys h.found
  refine Program.wp_seq (fun r k => r = .ok () → i.Losing session attempt.compilation i.state.attempts.keys k ∧
    (attempt.state.hasCandidate = false → k.state.Ended key attempt.lease) ∧
    (attempt.state.hasCandidate = true → k.state.attempts[key]? = some attempt)) ?_ (fun _ k hk => ?_)
    fun _ _ _ => nofun
  · exact fun hr => ⟨hlosing hr, fun early => hended early _ hr, fun late => hstays late _⟩
  obtain ⟨hlosing, hended, hstays⟩ := hk rfl
  have hkeeps (early : attempt.state.hasCandidate = false) := Keeps.bind
    (Touched.fenceWorker (I := fun j => j.state.Ended key attempt.lease) session.worker
      (txt "worker session lost: " ++ reason))
    (fun _ => Still.ignoring (Noted.persistWorker session.worker)) k (hended early)
  obtain ⟨hattempts, hcompilations, hcleared⟩ :=
    wp_fenceWorker_clears (i := k) session.worker (txt "worker session lost: " ++ reason)
  intro hr
  refine ⟨?_, fun early => hkeeps early, fun late => ?_, hcleared hr⟩
  · obtain ⟨waits, hwaits⟩ := hsome
    obtain ⟨next, hnext, hstate⟩ := hlosing.last waits hwaits
    refine ⟨next, by rw [hcompilations]; exact hnext, ?_⟩
    rw [hwaits, ← hstate, Option.some.injEq]
  · rw [hattempts]
    exact hstays late

/-- A compilation that the last loss fails does not wait. -/
theorem Impl.AtRisk.not_requeued {i j : Impl} {id : SessionId} {session : SessionRecord} {worker : WorkerRecord}
    (lost : i.LosesWorker id session worker) {key : CompilationAttemptId} {attempt : CompilationAttempt}
    {record : CompilationRecord} (h : i.AtRisk session key attempt record) {reason : Bytes}
    (hrun : (disconnectSession id reason).run i = (.ok (), j))
    (last : i.lastLoss session attempt.compilation i.state.attempts.keys = some false) :
    ¬j.state.Requeued key attempt := by
  intro requeued
  have hlost := h.wp_disconnectSession lost reason
  unfold Program.wp at hlost
  rw [hrun] at hlost
  obtain ⟨⟨next, hnext, hwaits⟩, -⟩ := hlost rfl
  obtain ⟨found, hfound, heligible, -⟩ := requeued.waits
  obtain rfl := Option.some.inj (hnext.symm.trans hfound)
  rw [last] at hwaits
  cases hwaits.mp heligible

end

/-- The session is that of a worker with an assigned attempt that may be tried again, and a
disconnect that returns does not let its compilation wait. -/
def System.dropsAssigned (sys : System) (id : SessionId) : Bool :=
  match sys.impl.state.sessions[id]? with
  | none => false
  | some session =>
  match sys.impl.state.workers[session.worker]? with
  | none => false
  | some worker =>
  sys.impl.state.attempts.keys.any fun key =>
    match sys.impl.state.attempts[key]? with
    | none => false
    | some attempt =>
    match sys.impl.state.compilations[attempt.compilation]? with
    | none => false
    | some record =>
      sys.impl.opened && session.isWorker && worker.boot == session.boot && session.owns attempt &&
      attempt.state == .assigned && (sys.impl.state.authoritative[attempt.compilation]?).isNone &&
      decide (record.attemptOrdinalCounter <
        maxAttempts sys.impl.config (sys.impl.state.requests[record.requestIdentity]?)) &&
      sys.impl.lastLoss session attempt.compilation sys.impl.state.attempts.keys == some false &&
      ((disconnectSession id []).run sys.impl).1.isOk

theorem System.of_dropsAssigned {sys : System} {id : SessionId} (h : sys.dropsAssigned id = true) :
    ∃ (session : SessionRecord) (worker : WorkerRecord) (key : CompilationAttemptId) (attempt : CompilationAttempt)
      (record : CompilationRecord), sys.impl.LosesWorker id session worker ∧
      sys.impl.AtRisk session key attempt record ∧ attempt.state = .assigned ∧
      sys.impl.lastLoss session attempt.compilation sys.impl.state.attempts.keys = some false ∧
      (disconnectSession id []).run sys.impl = (.ok (), ((disconnectSession id []).run sys.impl).2) := by
  unfold System.dropsAssigned at h
  split at h
  · cases h
  next session hsession =>
  split at h
  · cases h
  next worker hworker =>
  obtain ⟨key, -, h⟩ := List.any_eq_true.mp h
  split at h
  · cases h
  next attempt hattempt =>
  split at h
  · cases h
  next record hrecord =>
  simp only [Bool.and_eq_true, beq_iff_eq, decide_eq_true_eq, Option.isNone_iff_eq_none] at h
  obtain ⟨⟨⟨⟨⟨⟨⟨⟨opened, isWorker⟩, boot⟩, owned⟩, assigned⟩, uncommitted⟩, budget⟩, last⟩, returned⟩ := h
  exact ⟨session, worker, key, attempt, record, ⟨opened, hsession, isWorker, hworker, boot⟩,
    ⟨hattempt, owned, by rw [assigned]; rfl, hrecord, uncommitted, budget⟩, assigned, last,
    Prod.ext (eq_ok_of_isOk returned) rfl⟩

def smallIssued : System := System.perform smallRun volatileFirst

theorem runs_smallIssued : ∃ steps, Runs volatileFirst steps smallIssued :=
  ⟨_, Runs.perform smallRun volatileFirst rfl⟩

set_option maxRecDepth 100000 in
theorem smallIssued_drops : smallIssued.dropsAssigned ⟨1⟩ = true := by
  rw [smallIssued, volatileFirst, smallRun, smallBundle, System.dropsAssigned, hashFunction_eq]
  decide +kernel

end DistributedCompilation
