import DistributedCompilation.Safety.Cancelled

/-!
# Distributed Compilation — cancellations

A cancellation ends the attempts its compilation lists, which are all that may still
commit. Along runs whose steps do not write over it, restarts and all, it is final:
the compilation stays `Cancelled`, none of its attempts may commit and it gets no
commit.
-/

namespace DistributedCompilation

open Program (Keeps)

section

variable [HashFunction]

-- ---------------------------------------------------------------------------
-- The cancellation
-- ---------------------------------------------------------------------------

/-- The compilation is being cancelled: of its attempts only these may still commit. -/
structure State.Cancelling (s : State) (id : CompilationId) (base : Table ArtifactCommitId ArtifactCommit)
    (left : List CompilationAttemptId) : Prop where
  keyed : s.Keyed
  left : ∀ (key : CompilationAttemptId) (attempt : CompilationAttempt), s.Live key attempt →
    attempt.compilation = id → key ∈ left
  commits : s.CommitsWithin id base

/-- The attempt, if there is one, may not commit. -/
def State.Idles (s : State) (key : CompilationAttemptId) : Prop :=
  ∀ attempt : CompilationAttempt, s.attempts[key]? = some attempt → holdsCommitAuthority attempt.state = false

/-- An attempt that may commit did so before a touch. -/
theorem State.Live.of_touch {s s' : State} {key : CompilationAttemptId} {next : CompilationAttempt}
    (h : s'.Live key next) (touch : Touch s s') :
    ∃ attempt, s.Live key attempt ∧ next.compilation = attempt.compilation := by
  obtain ⟨attempt, hattempt, hcontinues⟩ := touch.attempt_of h.found
  refine ⟨attempt, ⟨hattempt, ?_⟩, (congrArg CompilationAttempt.compilation hcontinues.frozen :)⟩
  by_contra hdormant
  have hlost := (hcontinues.dormant (Bool.eq_false_of_not_eq_true hdormant)).1
  rw [h.holds] at hlost
  cases hlost

instance State.Cancelling.touched (id : CompilationId) (base : Table ArtifactCommitId ArtifactCommit)
    (left : List CompilationAttemptId) : Touched fun i => i.state.Cancelling id base left where
  quiet hi hstate _ := hstate ▸ hi
  touch hi h := by
    refine ⟨hi.keyed.of_touch h, fun key next hnext hcompilation => ?_, fun key commit hcommit => ?_⟩
    · obtain ⟨attempt, hattempt, hsame⟩ := hnext.of_touch h
      exact hi.left key attempt hattempt (hsame.symm.trans hcompilation)
    · rw [(State.Steady.of_touch h).commits] at hcommit
      exact hi.commits key commit hcommit

instance State.Idles.touched (key : CompilationAttemptId) : Touched fun i => i.state.Idles key where
  quiet hi hstate _ := hstate ▸ hi
  touch hi h next hnext := by
    obtain ⟨attempt, hattempt, hcontinues⟩ := h.attempt_of hnext
    exact (hcontinues.dormant (hi attempt hattempt)).1

/-- A cancelled attempt may not commit. -/
theorem wp_cancelAttempt (record : CompilationRecord) (reason : Bytes) (key : CompilationAttemptId) (i : Impl) :
    Program.wp (cancelAttempt record reason key) (fun _ j => j.state.Idles key) i := by
  unfold cancelAttempt
  rw [Still.wp_getState_bind]
  split
  next hnone =>
    intro attempt hattempt
    cases hnone.symm.trans hattempt
  next attempt hattempt =>
  have idles (h : holdsCommitAuthority attempt.state = false) : i.state.Idles key := by
    intro other hother
    obtain rfl := Option.some.inj (hattempt.symm.trans hother)
    exact h
  split
  next hended => exact idles (not_holds_of_terminal hended)
  next hlive =>
  rw [Still.wp_onState_bind]
  by_cases hholds : holdsCommitAuthority attempt.state = true
  · have hleads : attempt.state.Leads (failedState .cancelled) := by
      unfold AttemptState.Leads
      revert hholds
      cases attempt.state <;> decide
    have hdormant : holdsCommitAuthority (failedState .cancelled) = false := by decide
    have hends := wp_failAttemptLocked_ends (i := { i with state :=
      (i.state.control [cancelMessage i.state record attempt reason] : State) }) hattempt hleads hdormant reason
    have idle {j : Impl} (hj : j.state.Ended key attempt.lease) : j.state.Idles key := by
      intro other hother
      obtain ⟨ended, hended, hdormant⟩ := hj.dormant
      obtain rfl := Option.some.inj (hended.symm.trans hother)
      exact hdormant
    exact Program.wp_seq _ hends (fun _ j hj => idle hj) fun _ _ hj => idle hj
  · exact Still.ignoring (Touched.failAttemptLocked (I := fun i => i.state.Idles key) key .cancelled reason) _
      (idles ((Bool.not_eq_true _).mp hholds))

/-- The loop over the attempts of the record leaves none that may commit. -/
theorem wp_cancelAttempts (record : CompilationRecord) (reason : Bytes) {id : CompilationId}
    {base : Table ArtifactCommitId ArtifactCommit} (keys : List CompilationAttemptId) {i : Impl}
    (hi : i.state.Cancelling id base keys) :
    Program.wp (Program.forEach keys (cancelAttempt record reason))
      (fun r j => r = .ok () → j.state.Cancelling id base []) i := by
  induction keys generalizing i with
  | nil => exact fun _ => hi
  | cons key keys ih =>
    refine Program.wp_seq _ (Program.wp_and (Touched.cancelAttempt (I := fun i => i.state.Cancelling id base (key :: keys))
      record reason key i hi) (wp_cancelAttempt record reason key i)) ?_ fun _ _ _ => nofun
    rintro - j ⟨hj, hidles⟩
    refine ih ⟨hj.keyed, fun other attempt hattempt hcompilation => ?_, hj.commits⟩
    rcases List.mem_cons.mp (hj.left other attempt hattempt hcompilation) with rfl | hmem
    · have hdormant := hidles attempt hattempt.found
      rw [hattempt.holds] at hdormant
      cases hdormant
    · exact hmem

/-- A cancellation that is answered leaves the compilation at rest. -/
theorem wp_cancel {i : Impl} (keyed : i.state.Keyed) (shared : i.state.Shared) (id : CompilationId) (reason : Bytes) :
    Program.wp (cancel id reason) (fun r j => r = .ok () → j.Rests id i.state.commits) i := by
  unfold cancel
  refine Still.wp_ensureOpen_bind (fun _ => ?_) fun _ => nofun
  rw [Still.wp_getState_bind]
  split
  · exact nofun
  next record hrecord =>
  split
  · exact nofun
  have start : i.state.Cancelling id i.state.commits record.attempts := by
    refine ⟨keyed, fun key attempt hattempt hcompilation => ?_, fun key commit hcommit _ => ⟨commit, hcommit, rfl⟩⟩
    obtain ⟨known, hknown, hlisted⟩ := shared.listed key attempt hattempt
    rw [hcompilation] at hknown
    obtain rfl := Option.some.inj (hrecord.symm.trans hknown)
    exact hlisted
  have known : i.state.compilations.contains id = true := Table.contains_iff.mpr ⟨record, hrecord⟩
  have kept : Aloof fun j => j.state.compilations.contains id = true :=
    ⟨fun hj compilations _ _ => by rw [compilations]; exact hj⟩
  refine Program.wp_seq _ (Program.wp_and (wp_cancelAttempts record reason record.attempts start)
    (Keeps.forEach (I := fun j => j.state.compilations.contains id = true) _
      (fun key _ => Aloof.cancelAttempt _ _ key) i known)) ?_ fun _ _ _ => nofun
  rintro ⟨⟩ j ⟨hj, hknown⟩
  refine Program.wp_seq _ (Program.wp_and (Keeps.forEach (I := fun j => j.state.Cancelling id i.state.commits []) _
    (fun key _ => Touched.cancelLease _ _ key) j (hj rfl)) (Keeps.forEach
      (I := fun j => j.state.compilations.contains id = true) _ (fun key _ => Aloof.cancelLease _ _ key) j hknown)) ?_
    fun _ _ _ => nofun
  rintro - k ⟨hk, hknown⟩
  rw [Still.wp_now_bind, onCompilation, Still.wp_onState_bind]
  dsimp only
  refine Program.wp_mono (Still.orReturn (Noted.persistCompilation (I := Impl.Rests id i.state.commits) id) _ ?_)
    fun _ _ h _ => h
  obtain ⟨last, hlast⟩ := Table.contains_iff.mp hknown
  refine ⟨⟨_, by simp [State.withCompilation, hlast]; rfl, rfl⟩, hk.keyed.withCompilation _ fun _ => rfl, ?_, hk.commits⟩
  intro key attempt hattempt hcompilation
  by_contra hholds
  exact List.not_mem_nil (hk.left key attempt ⟨hattempt, by simpa using hholds⟩ hcompilation)

-- ---------------------------------------------------------------------------
-- Runs
-- ---------------------------------------------------------------------------

/-- A restart finds the compilation cancelled, and no commit of it but those. -/
theorem Impl.Rests.restart {id : CompilationId} {base : Table ArtifactCommitId ArtifactCommit} {config : CoordinatorConfig}
    {closed next : System} (opened : closed.Opens config next)
    (found : ∀ recovered, closed.impl.store.Recovers config recovered →
      recovered.Cancelled id ∧ recovered.CommitsWithin id base) : next.impl.Rests id base := by
  obtain ⟨recovered, hbooted, hreopens, hrecover, hfresh⟩ := opened.opening.recovered
  obtain ⟨stored, hstored, hcompilations⟩ := opened.requeues
  obtain rfl := Store.Recovers.unique hstored ⟨hrecover, hfresh⟩
  obtain ⟨⟨record, hrecord, hstate⟩, hcommits⟩ := found stored hstored
  refine ⟨⟨record, ?_, hstate⟩, hreopens.keyed hbooted.toKeyed, ?_, fun key commit hcommit => ?_⟩
  · rw [hcompilations, State.requeue, Table.get_map, hrecord, Option.map_some, hstate]
    rfl
  · exact fun key attempt hattempt _ => opened.opening.fenced.attempts key attempt hattempt
  · rw [hreopens.commits] at hcommit
    exact hcommits key commit hcommit

/-- A run, restarts and all, in which no step writes over the cancellation and every
restart finds it. -/
inductive System.Quietly (id : CompilationId) (base : Table ArtifactCommitId ArtifactCommit) (first : System) :
    System → Prop
  | start : Quietly id base first first
  | step {last : System} (quiet : Quietly id base first last) (environment : Environment) (op : Op)
      (within : ∀ config, op = .openWith config → last.impl.opened = true) (spares : ¬last.Revives id op) :
      Quietly id base first (System.step environment op last)
  | restart {last closed next : System} {config : CoordinatorConfig} (quiet : Quietly id base first last)
      (down : last.Down closed) (opened : closed.Opens config next)
      (found : ∀ recovered, closed.impl.store.Recovers config recovered →
        recovered.Cancelled id ∧ recovered.CommitsWithin id base) : Quietly id base first next

theorem System.Quietly.rests {id : CompilationId} {base : Table ArtifactCommitId ArtifactCommit} {first last : System}
    (quiet : System.Quietly id base first last) (h : first.impl.Rests id base) : last.impl.Rests id base := by
  induction quiet with
  | start => exact h
  | step _ environment op within spares ih => exact ih.step environment op within spares
  | restart _ _ opened found ih => exact .restart opened found

/-- Wherever in a lifetime a cancellation is answered, with reports in any of their phases:
along runs that do not write over it the compilation stays cancelled, none of its
attempts may commit, and it has no commit it did not have before. -/
theorem cancel_final {config : CoordinatorConfig} {closed first sys last : System} {steps : List Step}
    (opened : closed.Opens config first) (run : Runs first steps sys) {environment : Environment} {id : CompilationId}
    {reason : Bytes} (answered : ((cancel id reason).run (System.given environment sys.impl)).1 = .ok ())
    (quiet : System.Quietly id sys.impl.state.commits (System.step environment (.cancel id reason) sys) last) :
    last.impl.state.CalledOff id sys.impl.state.commits := by
  obtain ⟨recovered, hbooted, hreopens, -⟩ := opened.opening.recovered
  obtain ⟨hkeyed, hshared⟩ := run.lasts (I := fun i => i.state.Keyed ∧ i.state.Shared)
    ⟨hreopens.keyed hbooted.toKeyed, .of_fenced opened.opening.fenced⟩
  have hcancelled := wp_cancel (i := System.given environment sys.impl) hkeyed hshared id reason answered
  have hrests := quiet.rests hcancelled
  exact ⟨hrests.1, hrests.2.unclaimed, hrests.2.commits⟩

end

-- ---------------------------------------------------------------------------
-- A report refused behind the cancellation
-- ---------------------------------------------------------------------------

def smallClaim : AuthorityClaim := smallIssued.claimFor ⟨1⟩ (smallIssued.compilationOf ⟨1⟩)

/-- The report of the small run has passed its second phase, with a failing validation. -/
def smallChecked : System := smallIssued.checked smallClaim

def smallCancelled : System := System.step {} (.cancel (smallIssued.compilationOf ⟨1⟩) []) smallChecked

def System.compilationState (sys : System) (id : CompilationId) : Option CompilationState :=
  (sys.impl.state.compilations[id]?).map (·.state)

set_option maxRecDepth 100000 in
theorem smallCancelled_checks :
    ((cancel (smallIssued.compilationOf ⟨1⟩) []).run (System.given {} smallChecked.impl)).1.isOk = true ∧
    (System.step {} (.commit 0) smallCancelled).compilationState (smallIssued.compilationOf ⟨1⟩) = some .failed := by
  rw [smallCancelled, smallChecked, smallClaim, System.checked, System.begun, smallIssued, volatileFirst,
    smallRun, smallBundle, hashFunction_eq]
  decide +kernel

theorem runs_smallChecked : ∃ steps, Runs volatileFirst steps smallChecked := by
  obtain ⟨steps, run⟩ := runs_smallIssued
  obtain ⟨later, run'⟩ := System.runs_checked smallIssued smallClaim
  exact ⟨_, run.trans run'⟩

/-- The cancellation of the small run is final as long as the report is not taken up. -/
theorem cancel_final_small : (System.step {} .pump smallCancelled).impl.state.CalledOff (smallIssued.compilationOf ⟨1⟩)
    smallChecked.impl.state.commits := by
  obtain ⟨steps, run⟩ := runs_smallChecked
  exact cancel_final volatileFirst_opens_closed run (eq_ok_of_isOk smallCancelled_checks.1)
    (.step .start {} .pump (fun _ => nofun) id)

/-- The third phase of a report that was validated before the cancellation fails the
compilation after it. -/
theorem not_cancel_final : ¬∀ (config : CoordinatorConfig) (closed first sys last : System) (steps later : List Step)
    (environment : Environment) (id : CompilationId) (reason : Bytes), closed.Opens config first →
    Runs first steps sys → ((cancel id reason).run (System.given environment sys.impl)).1 = .ok () →
    Runs (System.step environment (.cancel id reason) sys) later last →
    (∀ step ∈ later, ∀ bundle, step.op = .submit bundle → ¬bundle.Names id) →
    last.impl.state.CalledOff id sys.impl.state.commits := by
  intro h
  obtain ⟨steps, run⟩ := runs_smallChecked
  have later : Runs smallCancelled [⟨{}, .commit 0, smallCancelled⟩] (System.step {} (.commit 0) smallCancelled) :=
    .step .start {} (.commit 0) fun _ => nofun
  have hcalled := h _ _ _ _ _ _ _ _ _ _ volatileFirst_opens_closed run (eq_ok_of_isOk smallCancelled_checks.1) later
    fun step hstep bundle hbundle => by
      obtain rfl := List.mem_singleton.mp hstep
      cases hbundle
  obtain ⟨record, hrecord, hstate⟩ := hcalled.cancelled
  have hfailed := smallCancelled_checks.2
  unfold System.compilationState at hfailed
  rw [hrecord, Option.map_some, hstate] at hfailed
  cases hfailed

end DistributedCompilation
