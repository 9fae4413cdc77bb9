import DistributedCompilation.Safety.Founded
import DistributedCompilation.Safety.Once

/-!
# Distributed Compilation — the lifecycle of an attempt

Within a lifetime every write of an attempt is a legal transition of what is in
the table (`State.Writes`). The restart writes `Ambiguous` over whatever the
directory has in flight and never asks the relation; `State.Resumes` says when
that is a transition of the attempt the ended process knew.
-/

namespace DistributedCompilation

open Program (Keeps)
open Relation (ReflTransGen)

-- ---------------------------------------------------------------------------
-- Paths
-- ---------------------------------------------------------------------------

namespace AttemptState

/-- A path of legal transitions. -/
abbrev Path : AttemptState → AttemptState → Prop := ReflTransGen fun st st' => isLegalTransition st st' = true

theorem Leads.path {st st' : AttemptState} (h : st.Leads st') : st.Path st' := by
  rcases h with rfl | hlegal
  · exact .refl
  · exact .single hlegal

/-- Terminal or given up. -/
def settled (st : AttemptState) : Bool := isTerminalState st || st == .ambiguous

theorem settled_of_isLegalTransition {st st' : AttemptState} (h : isLegalTransition st st' = true)
    (hsettled : st.settled = true) : st'.settled = true := by
  revert h hsettled
  cases st <;> cases st' <;> decide

/-- No path leads back to authority. -/
theorem Path.dormant {st st' : AttemptState} (h : st.Path st') (hsettled : st.settled = true) :
    holdsCommitAuthority st' = false := by
  have hend : st'.settled = true := by
    induction h with
    | refl => exact hsettled
    | tail _ hlegal ih => exact settled_of_isLegalTransition hlegal ih
  revert hend
  cases st' <;> decide

/-- What a restart makes of a state. -/
def interrupted (st : AttemptState) : AttemptState := if holdsCommitAuthority st then .ambiguous else st

/-- States that may become `Ambiguous`. -/
def mayTurnAmbiguous (st : AttemptState) : Bool :=
  [AttemptState.assigned, .preparing, .running, .commitReady].contains st

theorem legal_of_mayTurnAmbiguous {st : AttemptState} (h : st.mayTurnAmbiguous = true) :
    isLegalTransition st .ambiguous = true := by
  revert h
  cases st <;> decide

end AttemptState

-- ---------------------------------------------------------------------------
-- Writes
-- ---------------------------------------------------------------------------

/-- One write of the table of attempts: entries move along the state machine or stay.
What is new carries the next number and has come over `Created` and `Eligible` to
`Assigned`. -/
def State.Writes (s s' : State) : Prop :=
  ∀ (key : CompilationAttemptId) (next : CompilationAttempt), s'.attempts[key]? = some next →
    match s.attempts[key]? with
    | some attempt => attempt.state.Leads next.state
    | none => key.value = s.header.nextAttemptId ∧ next.state = .assigned

/-- Attempts carry numbers that were drawn. -/
def State.Numbered (s : State) : Prop :=
  ∀ (key : CompilationAttemptId) (attempt : CompilationAttempt), s.attempts[key]? = some attempt →
    key.value < s.header.nextAttemptId

namespace State.Writes

variable {s s' : State}

theorem of_attempts (h : s'.attempts = s.attempts) : s.Writes s' := by
  intro key next hnext
  rw [h] at hnext
  rw [hnext]
  exact .inl rfl

theorem of_touch (touch : Touch s s') : s.Writes s' := by
  cases touch with
  | note note => exact of_attempts note.attempts
  | attempt id advances =>
    intro key next hnext
    obtain ⟨attempt, hattempt, rfl | ⟨rfl, rfl⟩⟩ := Table.of_get_modify hnext
    · rw [hattempt]
      exact .inl rfl
    · rw [hattempt]
      exact (advances attempt hattempt).leads
  | record | worker | lease | revoke | session => exact of_attempts rfl

variable [HashFunction]

theorem of_change (numbered : s.Numbered) (change : Change s s') : s.Writes s' := by
  intro key next hnext
  rcases change.attempt_of hnext with ⟨hsame, -⟩ | ⟨hkey, -, id, compilation, worker, speculative, createdAt, -, rfl⟩
  · rw [hsame]
    exact .inl rfl
  · cases hold : s.attempts[key]? with
    | none => exact ⟨hkey, rfl⟩
    | some attempt => exact absurd (numbered key attempt hold) (by omega)

theorem of_admission (admission : Admission s s') : s.Writes s' := of_attempts admission.attempts

end State.Writes

namespace State.Numbered

variable {s s' : State}

theorem mono (h : s.Numbered) (counter : s.header.nextAttemptId ≤ s'.header.nextAttemptId)
    (drawn : ∀ (key : CompilationAttemptId) (next : CompilationAttempt), s'.attempts[key]? = some next →
      s.attempts[key]? = none → key.value < s'.header.nextAttemptId) : s'.Numbered := by
  intro key next hnext
  cases hold : s.attempts[key]? with
  | none => exact drawn key next hnext hold
  | some attempt => exact (h key attempt hold).trans_le counter

variable [HashFunction]

theorem of_touch (h : s.Numbered) (touch : Touch s s') : s'.Numbered := by
  refine h.mono (StateHeader.Ages.of_touch touch).attempts fun key next hnext hold => ?_
  obtain ⟨attempt, hattempt, -⟩ := touch.attempt_of hnext
  rw [hold] at hattempt
  cases hattempt

theorem of_change (h : s.Numbered) (change : Change s s') : s'.Numbered := by
  refine h.mono (StateHeader.Ages.of_change change).attempts fun key next hnext hold => ?_
  rcases change.attempt_of hnext with ⟨hsame, -⟩ | ⟨-, hkey, -⟩
  · rw [hold] at hsame
    cases hsame
  · exact hkey

theorem of_admission (h : s.Numbered) (admission : Admission s s') : s'.Numbered := by
  refine h.mono (StateHeader.Ages.of_admission admission).attempts
    fun key next hnext hold => ?_
  rw [admission.attempts, hold] at hnext
  cases hnext

end State.Numbered

/-- What became of the attempts of an earlier state: each has come along a path, as
have those created since. -/
structure State.Follows (base s : State) : Prop where
  numbered : s.Numbered
  counter : base.header.nextAttemptId ≤ s.header.nextAttemptId
  entered : ∀ (key : CompilationAttemptId) (next : CompilationAttempt), s.attempts[key]? = some next →
    AttemptState.Path .created next.state
  paths : ∀ (key : CompilationAttemptId) (attempt next : CompilationAttempt), base.attempts[key]? = some attempt →
    s.attempts[key]? = some next → attempt.state.Path next.state

theorem AttemptState.path_created_assigned : AttemptState.Path .created .assigned :=
  .tail (.single (b := .eligible) rfl) rfl

namespace State.Follows

variable {base s s' : State}

theorem refl (numbered : s.Numbered) (entered : ∀ (key : CompilationAttemptId) (next : CompilationAttempt),
    s.attempts[key]? = some next → AttemptState.Path .created next.state) : s.Follows s where
  numbered := numbered
  counter := Nat.le_refl _
  entered := entered
  paths key attempt next hattempt hnext := by
    obtain rfl := Option.some.inj (hattempt.symm.trans hnext)
    exact .refl

/-- A write goes on with what is there, and what is new was not in the earlier state. -/
theorem write (h : base.Follows s) (drawn : base.Numbered) (writes : s.Writes s') (numbered : s'.Numbered)
    (counter : s.header.nextAttemptId ≤ s'.header.nextAttemptId) : base.Follows s' where
  numbered := numbered
  counter := h.counter.trans counter
  entered key next hnext := by
    have hwrite := writes key next hnext
    split at hwrite
    next attempt hattempt => exact (h.entered key attempt hattempt).trans hwrite.path
    next =>
      rw [hwrite.2]
      exact AttemptState.path_created_assigned
  paths key first next hfirst hnext := by
    have hwrite := writes key next hnext
    split at hwrite
    next attempt hattempt => exact (h.paths key first attempt hfirst hattempt).trans hwrite.path
    next =>
      have hdrawn := drawn key first hfirst
      have hcounter := h.counter
      omega

variable [HashFunction]

/-- With the writes of a lifetime. -/
instance lasting (first : State) : Lasting fun i => i.state.Numbered ∧ ReflTransGen State.Writes first i.state where
  quiet hi hstate _ := hstate ▸ hi
  touch hi h := ⟨hi.1.of_touch h, hi.2.tail (.of_touch h)⟩
  change hi h := ⟨hi.1.of_change h, hi.2.tail (.of_change hi.1 h)⟩
  admission hi h := ⟨hi.1.of_admission h, hi.2.tail (.of_admission h)⟩

instance lasting_of_numbered (base : State) : Lasting fun i => base.Numbered ∧ base.Follows i.state where
  quiet hi hstate _ := hstate ▸ hi
  touch hi h := ⟨hi.1, hi.2.write hi.1 (.of_touch h) (hi.2.numbered.of_touch h)
    (StateHeader.Ages.of_touch h).attempts⟩
  change hi h := ⟨hi.1, hi.2.write hi.1 (.of_change hi.2.numbered h) (hi.2.numbered.of_change h)
    (StateHeader.Ages.of_change h).attempts⟩
  admission hi h := ⟨hi.1, hi.2.write hi.1 (.of_admission h) (hi.2.numbered.of_admission h)
    (StateHeader.Ages.of_admission h).attempts⟩

end State.Follows

-- ---------------------------------------------------------------------------
-- The restart
-- ---------------------------------------------------------------------------

/-- What a restart leaves of the attempts it recovers. -/
def State.Interrupts (recovered s : State) : Prop :=
  ∀ (key : CompilationAttemptId) (next : CompilationAttempt), s.attempts[key]? = some next →
    ∃ stored : CompilationAttempt, recovered.attempts[key]? = some stored ∧
      next.state = stored.state.interrupted

section

variable [HashFunction]

/-- Fencing leaves the attempts alone. -/
theorem keeps_attempts_fenceAtRestart (attempts : Table CompilationAttemptId CompilationAttempt) (id : WorkerId) :
    Keeps (fun i => i.state.attempts = attempts) (fenceAtRestart id) := by
  have worker (f : WorkerRecord → WorkerRecord) :
      Keeps (fun i => i.state.attempts = attempts) (onWorker id f) := Keeps.update fun _ h => h
  have distrusted : Keeps (fun i => i.state.attempts = attempts) (markCapabilitiesUnknown id) := by
    unfold markCapabilitiesUnknown
    refine Keeps.bind Still.getState fun s => ?_
    split
    · exact Keeps.pure _
    · refine Keeps.bind (worker _) fun _ => ?_
      split
      · exact Keeps.pure _
      · exact Keeps.leave _
  unfold fenceAtRestart
  refine Keeps.bind Still.getState fun s => ?_
  split
  · exact Keeps.pure _
  · exact Keeps.ite (fun _ => Keeps.pure _) fun _ => Keeps.bind (worker _) fun _ => distrusted

theorem wp_restartState_interrupts {recovered : State} {i : Impl} (hi : i.state = recovered) :
    Program.wp restartState (fun r j => r = .ok () → recovered.Interrupts j.state) i := by
  have : Still fun j : Impl => j.state = recovered := ⟨fun hj hstate _ => hstate.trans hj⟩
  let J : Impl → Prop := fun i => ∀ (key : CompilationAttemptId) (next : CompilationAttempt),
    i.state.attempts[key]? = some next → ∃ stored : CompilationAttempt,
      recovered.attempts[key]? = some stored ∧
        (next.state = stored.state ∨ next.state = .ambiguous ∧ holdsCommitAuthority stored.state = true)
  have : Still J := ⟨fun hj hstate _ => by unfold J; rw [hstate]; exact hj⟩
  unfold restartState
  refine Program.wp_seq (fun _ j => j.state = recovered) (Still.now i hi) (fun openedAt j hj => ?_)
    fun _ _ _ => nofun
  rw [Still.wp_onState_bind, Still.wp_getState_bind, hj]
  refine Program.wp_seq (fun _ j => j.state.attempts = recovered.attempts) ?_ ?_ fun _ _ _ => nofun
  · exact Keeps.forEach _ (fun id _ => keeps_attempts_fenceAtRestart _ id) _ rfl
  · rintro ⟨⟩ k hk
    rw [Still.wp_onState_bind, Still.wp_getState_bind]
    have hJ : J { k with state := k.state.revokeAllLeases } :=
      fun key next hnext => ⟨next, hk ▸ hnext, .inl rfl⟩
    refine Program.wp_seq _ (wp_interruptAttempts hJ ?_) ?_ fun _ _ _ => nofun
    · intro id i attempt f hi found holds frozen candidate state key next hnext
      obtain ⟨before, hbefore, rfl | ⟨rfl, rfl⟩⟩ := Table.of_get_modify hnext
      · exact hi key next hbefore
      · obtain rfl := Option.some.inj (found.symm.trans hbefore)
        obtain ⟨stored, hstored, hsame | ⟨hambiguous, -⟩⟩ := hi key attempt hbefore
        · exact ⟨stored, hstored, .inr ⟨state, hsame ▸ holds⟩⟩
        · rw [hambiguous] at holds
          cases holds
    · rintro ⟨⟩ l hl _ key next hnext
      obtain ⟨hstates, hdormant⟩ := hl rfl
      obtain ⟨stored, hstored, hsame | ⟨hambiguous, hholds⟩⟩ := hstates key next hnext
      · refine ⟨stored, hstored, ?_⟩
        rw [AttemptState.interrupted, if_neg, hsame]
        rw [← hsame, hdormant key next hnext]
        exact Bool.false_ne_true
      · refine ⟨stored, hstored, ?_⟩
        rw [AttemptState.interrupted, if_pos hholds, hambiguous]

instance State.Interrupts.noted (recovered : State) : Noted fun i => recovered.Interrupts i.state where
  quiet hi hstate _ := hstate ▸ hi
  note {i s'} hi note := by
    intro key next hnext
    exact hi key next (note.attempts ▸ hnext)

/-- What an open over the directory recovers. -/
def Store.Recovers (store : Store) (config : CoordinatorConfig) (recovered : State) : Prop :=
  (config.enablePersistence = true → store.recover = .ok recovered) ∧
    (config.enablePersistence = false → recovered = {})

/-- The open behind the recovery. -/
theorem wp_reopen_interrupts (config : CoordinatorConfig) {recovered : State} (store : Store)
    (recovers : store.Recovers config recovered) {i : Impl} (hi : i.state = recovered) : Program.wp (do
      restartState
      if config.enablePersistence then
        let s ← getState
        orReturn (persist (.header s.header.epoch s.header.restarts s.header.openedAt))
        orReturn takeSnapshot : M Unit) (fun r j => r = .ok () → ∃ recovered : State,
          store.Recovers config recovered ∧ recovered.Interrupts j.state) i := by
  refine Program.wp_seq _ (wp_restartState_interrupts hi) ?_ fun _ _ _ => nofun
  rintro ⟨⟩ j hj
  split
  next =>
    rw [Still.wp_getState_bind]
    refine Program.wp_seq _ (Still.orReturn (Noted.persist (I := fun i => recovered.Interrupts i.state) _) j
      (hj rfl)) ?_ fun _ _ _ => nofun
    rintro ⟨⟩ k hk
    exact Program.wp_mono (Still.orReturn (Noted.takeSnapshot (I := fun i => recovered.Interrupts i.state)) k hk)
      fun _ _ hl _ => ⟨recovered, recovers, hl⟩
  next => exact fun _ => ⟨recovered, recovers, hj rfl⟩

theorem wp_openCoordinator_interrupts (config : CoordinatorConfig) {i : Impl} (closed : i.opened = false) :
    Program.wp (openCoordinator config) (fun r j => r = .ok () → ∃ recovered : State,
      i.store.Recovers config recovered ∧ recovered.Interrupts j.state) i := by
  unfold openCoordinator
  rw [Program.wp_read_bind, if_neg (by rw [closed]; decide), Program.wp_update_bind]
  have reopen := fun (recovered : State) => @wp_reopen_interrupts _ config recovered
  by_cases hpersists : config.enablePersistence = true
  · simp only [if_pos hpersists] at reopen ⊢
    refine Program.wp_seq _ (wp_openStore _) ?_ fun _ _ _ => nofun
    rintro - j ⟨-, hsnapshot, hjournal⟩
    rw [Program.wp_read_bind]
    have hsame : j.store.recover = i.store.recover := by
      unfold Store.recover
      rw [hsnapshot, hjournal]
    cases hrecover : j.store.recover with
    | error status => exact nofun
    | ok recovered =>
      rw [hsame] at hrecover
      exact reopen recovered i.store ⟨fun _ => hrecover,
        fun h => absurd (h.symm.trans hpersists) Bool.false_ne_true⟩ rfl
  · simp only [if_neg hpersists] at reopen ⊢
    rw [Program.wp_pure_bind, Program.wp_update_bind]
    exact reopen {} i.store ⟨fun h => absurd h hpersists, fun _ => rfl⟩ rfl

-- ---------------------------------------------------------------------------
-- Lifetimes
-- ---------------------------------------------------------------------------

/-- The coordinator is not running: it was stopped, and opens may have failed since. -/
inductive System.Down (sys : System) : System → Prop
  | stopped {closed : System} (stops : sys.Stops closed) : Down sys closed
  | failed {closed : System} (down : Down sys closed) (environment : Environment) (config : CoordinatorConfig)
      (n : Nat) : Down sys (System.crash n (System.step environment (.openWith config) closed))

/-- Steps and restarts, where the state of the process that ended and what the directory
yields stand in that relation. -/
inductive System.Later (meets : State → State → Prop) (sys : System) : System → Prop
  | refl : Later meets sys sys
  | step {last : System} (later : Later meets sys last) (environment : Environment) (op : Op)
      (within : ∀ config, op = .openWith config → last.impl.opened = true) :
      Later meets sys (System.step environment op last)
  | restart {last closed next : System} {config : CoordinatorConfig} (later : Later meets sys last)
      (down : last.Down closed) (opened : closed.Opens config next)
      (met : ∀ recovered, closed.impl.store.Recovers config recovered → meets last.impl.state recovered) :
      Later meets sys next

/-- The lifecycle is closed at this point of a history. Every attempt has come from
`Created`, an operation is a sequence of legal writes and a restart is one, and what
is settled never holds authority again. -/
structure System.KeepsLifecycle (meets : State → State → Prop) (sys : System) : Prop where
  entered : ∀ (key : CompilationAttemptId) (attempt : CompilationAttempt),
    sys.impl.state.attempts[key]? = some attempt → AttemptState.Path .created attempt.state
  steps : ∀ (environment : Environment) (op : Op), (∀ config, op = .openWith config → sys.impl.opened = true) →
    ReflTransGen State.Writes sys.impl.state (System.step environment op sys).impl.state
  restarts : ∀ (closed next : System) (config : CoordinatorConfig), sys.Down closed → closed.Opens config next →
    (∀ recovered, closed.impl.store.Recovers config recovered → meets sys.impl.state recovered) →
    sys.impl.state.Writes next.impl.state
  settled : ∀ last : System, sys.Later meets last → ∀ (key : CompilationAttemptId)
    (attempt next : CompilationAttempt), sys.impl.state.attempts[key]? = some attempt →
    last.impl.state.attempts[key]? = some next → attempt.state.settled = true →
    holdsCommitAuthority next.state = false

/-- The directory is not behind the process that ended: numbers go on above its own,
and what was in flight in the directory could become `Ambiguous` in the process. -/
structure State.Resumes (s recovered : State) : Prop where
  counter : s.header.nextAttemptId ≤ recovered.header.nextAttemptId
  attempts : ∀ (key : CompilationAttemptId) (stored : CompilationAttempt),
    recovered.attempts[key]? = some stored → ∃ attempt : CompilationAttempt, s.attempts[key]? = some attempt ∧
      (stored.state.interrupted = attempt.state ∨
        stored.state.interrupted = .ambiguous ∧ attempt.state.mayTurnAmbiguous = true)

omit [HashFunction] in
theorem State.Resumes.writes {s recovered s' : State} (h : s.Resumes recovered)
    (interrupts : recovered.Interrupts s') : s.Writes s' := by
  intro key next hnext
  obtain ⟨stored, hstored, hstate⟩ := interrupts key next hnext
  obtain ⟨attempt, hattempt, hsame | ⟨hambiguous, hmay⟩⟩ := h.attempts key stored hstored
  · rw [hattempt]
    exact .inl (hstate.trans hsame)
  · rw [hattempt]
    refine .inr ?_
    rw [hstate, hambiguous]
    exact AttemptState.legal_of_mayTurnAmbiguous hmay

theorem Store.Recovers.unique {store : Store} {config : CoordinatorConfig} {recovered recovered' : State}
    (h : store.Recovers config recovered) (h' : store.Recovers config recovered') : recovered = recovered' := by
  cases hpersists : config.enablePersistence with
  | true => exact Except.ok.inj ((h.1 hpersists).symm.trans (h'.1 hpersists))
  | false => rw [h.2 hpersists, h'.2 hpersists]

/-- What an open makes of the attempts of the directory. -/
theorem System.Opens.interrupts {config : CoordinatorConfig} {closed first : System}
    (opened : closed.Opens config first) : ∃ recovered : State, closed.impl.store.Recovers config recovered ∧
      recovered.Interrupts first.impl.state ∧
      first.impl.state.header.nextAttemptId = recovered.header.nextAttemptId := by
  obtain ⟨recovered, -, hreopens, hrecover, hfresh⟩ := opened.opening.recovered
  obtain ⟨hclosed, -, environment, rfl, hok⟩ := opened
  obtain ⟨stored, hstored, hinterrupts⟩ := wp_openCoordinator_interrupts
    (i := System.given environment closed.impl) config hclosed hok
  obtain rfl := Store.Recovers.unique hstored ⟨hrecover, hfresh⟩
  exact ⟨stored, hstored, hinterrupts, (congrArg StateHeader.nextAttemptId hreopens.durable :)⟩

/-- A restart that meets the condition is one write. -/
theorem System.Opens.writes {config : CoordinatorConfig} {s : State} {closed first : System}
    (opened : closed.Opens config first)
    (met : ∀ recovered, closed.impl.store.Recovers config recovered → s.Resumes recovered) :
    s.Writes first.impl.state := by
  obtain ⟨recovered, hrecovers, hinterrupts, -⟩ := opened.interrupts
  exact (met recovered hrecovers).writes hinterrupts

theorem State.Follows.restart {config : CoordinatorConfig} {base s : State} {closed first : System}
    (h : base.Follows s) (drawn : base.Numbered) (opened : closed.Opens config first)
    (met : ∀ recovered, closed.impl.store.Recovers config recovered → s.Resumes recovered) :
    base.Follows first.impl.state := by
  obtain ⟨recovered, hrecovers, hinterrupts, hcounter⟩ := opened.interrupts
  have hresumes := met recovered hrecovers
  have hgrown : s.header.nextAttemptId ≤ first.impl.state.header.nextAttemptId := by
    rw [hcounter]
    exact hresumes.counter
  refine h.write drawn (opened.writes met) (fun key next hnext => ?_) hgrown
  obtain ⟨stored, hstored, -⟩ := hinterrupts key next hnext
  obtain ⟨attempt, hattempt, -⟩ := hresumes.attempts key stored hstored
  exact (h.numbered key attempt hattempt).trans_le hgrown

theorem System.Later.follows {base sys last : System} (later : sys.Later State.Resumes last)
    (h : base.impl.state.Follows sys.impl.state) (drawn : base.impl.state.Numbered) :
    base.impl.state.Follows last.impl.state := by
  induction later with
  | refl => exact h
  | step _ environment op within ih =>
    exact (Lasting.step (I := fun i => base.impl.state.Numbered ∧ base.impl.state.Follows i.state)
      ⟨drawn, ih⟩ environment op within).2
  | restart _ _ opened met ih => exact ih.restart drawn opened met

/-- Before the first open there are no attempts. -/
theorem System.Opens.follows_initial {config : CoordinatorConfig} {first : System}
    (opened : System.Opens config { impl := { store := {} } } first) : first.impl.state.Follows first.impl.state := by
  obtain ⟨recovered, hrecovers, hinterrupts, -⟩ := opened.interrupts
  have hinitial : recovered = {} := by
    refine hrecovers.unique ⟨fun _ => rfl, fun _ => rfl⟩
  have none {key : CompilationAttemptId} {next : CompilationAttempt}
      (hnext : first.impl.state.attempts[key]? = some next) : False := by
    obtain ⟨stored, hstored, -⟩ := hinterrupts key next hnext
    rw [hinitial] at hstored
    rw [show ({} : State).attempts[key]? = none from Table.get_empty key] at hstored
    cases hstored
  exact .refl (fun _ _ hnext => (none hnext).elim) fun _ _ hnext => (none hnext).elim

/-- As long as every restart finds the directory up to date, and nothing in flight that
cannot become `Ambiguous`, the lifecycle of attempts is closed. -/
theorem lifecycle_closed {config : CoordinatorConfig} {first sys : System}
    (opened : System.Opens config { impl := { store := {} } } first) (later : first.Later State.Resumes sys) :
    sys.KeepsLifecycle State.Resumes := by
  have hinitial := opened.follows_initial
  have hfollows := later.follows hinitial hinitial.numbered
  have hself : sys.impl.state.Follows sys.impl.state := .refl hfollows.numbered hfollows.entered
  refine ⟨hfollows.entered, fun environment op within => ?_, fun closed next config _ opened met => ?_, ?_⟩
  · exact (Lasting.step (I := fun i => i.state.Numbered ∧ ReflTransGen State.Writes sys.impl.state i.state)
      ⟨hfollows.numbered, .refl⟩ environment op within).2
  · exact opened.writes met
  · intro last hlast key attempt next hattempt hnext hsettled
    exact ((hlast.follows hself hfollows.numbered).paths key attempt next hattempt hnext).dormant hsettled

end

-- ---------------------------------------------------------------------------
-- A crash between the phases of a report
-- ---------------------------------------------------------------------------

def System.stateOf (sys : System) (attempt : CompilationAttemptId) : Option AttemptState :=
  (sys.impl.state.attempts[attempt]?).map (·.state)

/-- A first open of an empty directory, over which a submission stops at the record of
its request and is then repeated. -/
def persistentFirst : System := System.step {} (.openWith persistent) { impl := { store := {} } }

def persistentRefused : System := System.step { io := [true, false] } (.submit smallBundle) persistentFirst

/-- The worker names its target as the wire demands. -/
def namedWorker : WorkerRegistration :=
  { smallWorker with capabilities := { smallWorker.capabilities with
      targets := smallWorker.capabilities.targets.map fun target => { target with id := deriveTargetId target } } }

def persistentRun : List Op := [.submit smallBundle, .registerWorker namedWorker, .markReady ⟨1⟩, .pump]

def persistentIssued : System := System.perform persistentRun persistentRefused

def persistentClaim : AuthorityClaim := persistentIssued.claimFor ⟨1⟩ (persistentIssued.compilationOf ⟨1⟩)

/-- The artifact has passed the first phase of its report. -/
def persistentReported : System :=
  System.perform [.beginCompile persistentClaim, reportOf persistentClaim] persistentIssued

/-- The process ends there, and the next one opens the directory. -/
def persistentReopened : System :=
  System.step {} (.openWith persistent) (System.crash 13 persistentReported)

theorem persistentFirst_opens : System.Opens persistent { impl := { store := {} } } persistentFirst :=
  ⟨rfl, rfl, {}, rfl, eq_ok_of_isOk (by decide +kernel)⟩

theorem Runs.later {first last : System} {steps : List Step} (run : Runs first steps last)
    (meets : State → State → Prop) : first.Later meets last := by
  induction run with
  | start => exact .refl
  | step run environment op within ih => exact ih.step environment op within

theorem persistentReported_later (meets : State → State → Prop) :
    persistentFirst.Later meets persistentReported := by
  have refused : Runs persistentFirst _ persistentRefused := .step .start { io := [true, false] } _ nofun
  have issued := refused.trans (Runs.perform persistentRun persistentRefused rfl)
  exact (issued.trans (Runs.perform [.beginCompile persistentClaim, reportOf persistentClaim] _ rfl)).later meets

set_option maxRecDepth 100000 in
theorem persistentReopened_checks : persistentReported.stateOf ⟨1⟩ = some .produced ∧
    ((openCoordinator persistent).run (System.given {} (System.crash 13 persistentReported).impl)).1.isOk = true ∧
    persistentReopened.stateOf ⟨1⟩ = some .ambiguous := by
  rw [persistentReopened, persistentReported, persistentClaim, persistentIssued, persistentRefused,
    persistentFirst, persistentRun, smallBundle, hashFunction_eq]
  decide +kernel

theorem persistentReopened_opens : (System.crash 13 persistentReported).Opens persistent persistentReopened := by
  refine ⟨rfl, rfl, {}, ?_, eq_ok_of_isOk persistentReopened_checks.2.1⟩
  rw [persistentReopened]

theorem not_writes_of_interrupted {sys next : System} {key : CompilationAttemptId}
    (produced : sys.stateOf key = some .produced) (ambiguous : next.stateOf key = some .ambiguous) :
    ¬sys.impl.state.Writes next.impl.state := by
  intro hwrites
  obtain ⟨before, hbefore, hproduced⟩ := Option.map_eq_some_iff.mp produced
  obtain ⟨after, hafter, hambiguous⟩ := Option.map_eq_some_iff.mp ambiguous
  have hleads := hwrites key after hafter
  rw [hbefore] at hleads
  simp only [hproduced, hambiguous] at hleads
  rcases hleads with hsame | hlegal
  · cases hsame
  · cases hlegal

/-- What a crash interrupts behind the first phase of a report becomes `Ambiguous` by no
legal transition. -/
theorem not_lifecycle_closed : ¬∀ (config : CoordinatorConfig) (first sys : System),
    System.Opens config { impl := { store := {} } } first → first.Later (fun _ _ => True) sys →
      sys.KeepsLifecycle fun _ _ => True := by
  intro h
  have hkeeps := h persistent persistentFirst persistentReported persistentFirst_opens
    (persistentReported_later _)
  have hopens := persistentReopened_opens
  have hwrites := not_writes_of_interrupted persistentReopened_checks.1 persistentReopened_checks.2.2
  generalize persistentReopened = next, persistentReported = sys at *
  exact hwrites (hkeeps.restarts _ next persistent (.stopped (.crash 13)) hopens fun _ _ => trivial)

/-- A restart behind the first open meets the condition. -/
theorem secondLife_later : firstLife.Later State.Resumes secondLife := by
  refine .restart .refl (.stopped (.crash 0)) ⟨rfl, rfl, obliging, rfl, eq_ok_of_isOk (by decide +kernel)⟩ ?_
  intro recovered hrecovers
  have hchecks : ((System.crash 0 firstLife).impl.store.recover).toOption.any
      (fun s => s.attempts.isEmpty && firstLife.impl.state.header.nextAttemptId ≤ s.header.nextAttemptId) = true := by
    decide +kernel
  rw [hrecovers.1 rfl] at hchecks
  simp only [Except.toOption, Option.any_some, Bool.and_eq_true, decide_eq_true_eq] at hchecks
  refine ⟨hchecks.2, fun key stored hstored => ?_⟩
  rw [Std.ExtTreeMap.isEmpty_iff.mp hchecks.1, Table.get_empty] at hstored
  cases hstored

theorem lifecycle_closed_twice : secondLife.KeepsLifecycle State.Resumes :=
  @lifecycle_closed _ persistent _ _ ⟨rfl, rfl, obliging, rfl, eq_ok_of_isOk (by decide +kernel)⟩
    secondLife_later

end DistributedCompilation
