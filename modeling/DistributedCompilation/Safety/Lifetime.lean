import DistributedCompilation.Safety.Opening

/-!
# Distributed Compilation — lifetimes

A lifetime begins with a fresh coordinator object whose open succeeds and runs
until the object is closed or its process ends. Claims handed out in a lifetime
stay exact in it, and no later lifetime accepts them.

A crash inside an operation is a step whose environment refuses every write from
some point on, followed by the end of the process.
-/

namespace DistributedCompilation

open Program (Keeps)

section

variable [HashFunction]

-- ---------------------------------------------------------------------------
-- Runs
-- ---------------------------------------------------------------------------

/-- A step of a run, with the system it starts from. -/
structure Step where
  environment : Environment
  op : Op
  before : System

/-- The assignments a step hands out. -/
def Step.assignments (step : Step) : List Assignment :=
  match step.op with
  | .pump =>
    match (pump.run (System.given step.environment step.before.impl)).1 with
    | .ok assignments => assignments
    | .error _ => []
  | _ => []

/-- The runs of one coordinator object, which is not opened again once closed. -/
inductive Runs (first : System) : List Step → System → Prop
  | start : Runs first [] first
  | step {steps : List Step} {sys : System} (run : Runs first steps sys)
      (environment : Environment) (op : Op)
      (within : ∀ config, op = .openWith config → sys.impl.opened = true) :
      Runs first (steps ++ [⟨environment, op, sys⟩]) (System.step environment op sys)

theorem Runs.trans {first sys last : System} {steps later : List Step} (h : Runs first steps sys)
    (h' : Runs sys later last) : Runs first (steps ++ later) last := by
  induction h' with
  | start =>
    rw [List.append_nil]
    exact h
  | step run environment op within ih =>
    rw [← List.append_assoc]
    exact .step ih environment op within

/-- Operations in a row, with every answer of the environment left to its default. -/
def System.perform : List Op → System → System
  | [], sys => sys
  | op :: ops, sys => System.perform ops (System.step {} op sys)

def System.stepsOf : List Op → System → List Step
  | [], _ => []
  | op :: ops, sys => ⟨{}, op, sys⟩ :: System.stepsOf ops (System.step {} op sys)

def Op.opens : Op → Bool
  | .openWith _ => true
  | _ => false

theorem Runs.perform (ops : List Op) (sys : System) (h : ops.all (!·.opens) = true) :
    Runs sys (System.stepsOf ops sys) (System.perform ops sys) := by
  induction ops generalizing sys with
  | nil => exact .start
  | cons op ops ih =>
    rw [List.all_cons, Bool.and_eq_true] at h
    refine Runs.trans (.step .start {} op ?_) (ih _ h.2)
    rintro config rfl
    cases h.1

/-- What lasts holds at the end of a run. -/
theorem Runs.lasts {I : Impl → Prop} [Lasting I] {first last : System} {steps : List Step}
    (run : Runs first steps last) (h : I first.impl) : I last.impl := by
  induction run with
  | start => exact h
  | step run environment op within ih => exact Lasting.step ih environment op within

/-- A fresh object over a state directory, after an open that succeeded. -/
def Store.Opens (store : Store) (config : CoordinatorConfig) (first : System) : Prop :=
  ∃ environment : Environment,
    first = System.step environment (.openWith config) { impl := { store } } ∧
      ((openCoordinator config).run (System.given environment { store })).1 = .ok ()

theorem Store.Opens.opening {store : Store} {config : CoordinatorConfig} {first : System}
    (h : store.Opens config first) : first.impl.Opening config store := by
  obtain ⟨environment, rfl, hok⟩ := h
  exact wp_openCoordinator (i := System.given environment { store }) config rfl hok

theorem Store.Opens.inFlight {store : Store} {config : CoordinatorConfig} {first : System}
    (h : store.Opens config first) : first.reserved = [] ∧ first.validated = [] := by
  obtain ⟨environment, rfl, -⟩ := h
  exact ⟨rfl, rfl⟩

-- ---------------------------------------------------------------------------
-- Keys
-- ---------------------------------------------------------------------------

namespace State.Keyed

variable {s s' : State}

omit [HashFunction] in
/-- Entries that keep their ids. -/
theorem mono (h : s.Keyed)
    (workers : ∀ (id : WorkerId) (next : WorkerRecord), s'.workers[id]? = some next →
      next.id = id ∨ ∃ worker : WorkerRecord, s.workers[id]? = some worker ∧ next.id = worker.id)
    (compilations : ∀ (id : CompilationId) (next : CompilationRecord), s'.compilations[id]? = some next →
      next.id = id ∨ ∃ record : CompilationRecord, s.compilations[id]? = some record ∧ next.id = record.id) :
    s'.Keyed where
  worker id next hnext := by
    rcases workers id next hnext with hid | ⟨worker, hworker, hid⟩
    · exact hid
    · exact hid.trans (h.worker id worker hworker)
  compilation id next hnext := by
    rcases compilations id next hnext with hid | ⟨record, hrecord, hid⟩
    · exact hid
    · exact hid.trans (h.compilation id record hrecord)

omit [HashFunction] in
theorem withCompilation (h : s.Keyed) (id : CompilationId) {f : CompilationRecord → CompilationRecord}
    (hid : ∀ record, (f record).id = record.id) : (s.withCompilation id f).Keyed := by
  refine h.mono (fun _ worker hworker => .inr ⟨worker, hworker, rfl⟩) fun key next hnext => .inr ?_
  obtain ⟨record, hrecord, rfl | ⟨-, rfl⟩⟩ := Table.of_get_modify hnext
  · exact ⟨next, hrecord, rfl⟩
  · exact ⟨record, hrecord, hid record⟩

omit [HashFunction] in
theorem withWorker (h : s.Keyed) (id : WorkerId) {f : WorkerRecord → WorkerRecord}
    (hid : ∀ worker, s.workers[id]? = some worker → (f worker).id = worker.id) :
    (s.withWorker id f).Keyed := by
  refine h.mono (fun key next hnext => .inr ?_) fun _ record hrecord => .inr ⟨record, hrecord, rfl⟩
  obtain ⟨worker, hworker, rfl | ⟨rfl, rfl⟩⟩ := Table.of_get_modify hnext
  · exact ⟨next, hworker, rfl⟩
  · exact ⟨worker, hworker, hid worker hworker⟩

omit [HashFunction] in
/-- The tables are the same. -/
theorem of_tables (h : s.Keyed) (workers : s'.workers = s.workers)
    (compilations : s'.compilations = s.compilations) : s'.Keyed :=
  ⟨workers ▸ h.worker, compilations ▸ h.compilation⟩

theorem of_touch (h : s.Keyed) (touch : Touch s s') : s'.Keyed := by
  cases touch with
  | note note => exact h.of_tables note.workers note.compilations
  | record id frozen =>
    exact h.withCompilation id fun record => (congrArg CompilationRecord.id (frozen record) :)
  | worker id yields => exact h.withWorker id fun worker hworker => (yields worker hworker).id
  | attempt | lease | revoke | session => exact h.of_tables rfl rfl

theorem of_change (h : s.Keyed) (change : Change s s') : s'.Keyed := by
  cases change with
  | resolve aside => exact h.of_tables aside.workers aside.compilations
  | @create request unit createdAt fresh =>
    refine h.mono (fun _ worker hworker => .inr ⟨worker, hworker, rfl⟩) fun key next hnext => ?_
    change ((s.compilations.insert _ (newCompilation request unit createdAt))[key]?) = some next at hnext
    rw [Table.get_insert] at hnext
    split at hnext
    next hkey =>
      obtain rfl := Option.some.inj hnext
      exact .inl hkey
    next => exact .inr ⟨next, hnext, rfl⟩
  | @supersede id record found committed =>
    have hgeneration : (s.withCompilation id fun record =>
        { record with generation := record.generation.next }).Keyed := h.withCompilation id fun _ => rfl
    unfold State.supersede
    simp only
    split
    · exact hgeneration
    · exact hgeneration.of_tables rfl rfl
  | withdraw => exact h.of_tables rfl rfl
  | lower id index => exact h.withCompilation id fun _ => rfl
  | @assign id compilation worker speculative createdAt issuedAt updatedAt found able =>
    have hassigned : (s.withCompilation id (·.assigned
        (s.attemptFor worker compilation speculative createdAt).id updatedAt)).Keyed :=
      h.withCompilation id fun _ => rfl
    have hleased := hassigned.withWorker (s.attemptFor worker compilation speculative createdAt).worker
      (f := (·.leased ((s.attemptFor worker compilation speculative createdAt).leaseOf issuedAt).id))
      fun _ _ => rfl
    exact hleased.of_tables rfl rfl
  | publish => exact h.of_tables rfl rfl

theorem of_admission (h : s.Keyed) (admission : Admission s s') : s'.Keyed := by
  cases admission with
  | ready => exact h.withWorker _ fun _ _ => rfl
  | @enroll worker session =>
    refine h.mono (fun key next hnext => ?_) fun _ record hrecord => .inr ⟨record, hrecord, rfl⟩
    change ((s.workers.insert worker.id worker)[key]?) = some next at hnext
    rw [Table.get_insert] at hnext
    split at hnext
    next hkey =>
      obtain rfl := Option.some.inj hnext
      exact .inl hkey
    next => exact .inr ⟨next, hnext, rfl⟩

instance lasting : Lasting fun i => i.state.Keyed where
  quiet hi hstate _ := hstate ▸ hi
  touch hi h := State.Keyed.of_touch hi h
  change hi h := State.Keyed.of_change hi h
  admission hi h := State.Keyed.of_admission hi h

end State.Keyed

omit [HashFunction] in
/-- A restart keeps workers and compilations under their ids. -/
theorem State.Reopens.keyed {recovered s : State} (h : recovered.Reopens s) (keyed : recovered.Keyed) :
    s.Keyed := by
  refine keyed.mono (fun id next hnext => .inr ?_) fun id next hnext => .inr ?_
  · have hsame := h.workers id
    rw [hnext, Option.map_some] at hsame
    obtain ⟨worker, hworker, hfields⟩ := Option.map_eq_some_iff.mp hsame.symm
    exact ⟨worker, hworker, (congrArg Prod.fst hfields).symm⟩
  · have hsame := h.compilations id
    rw [hnext, Option.map_some] at hsame
    obtain ⟨record, hrecord, hfields⟩ := Option.map_eq_some_iff.mp hsame.symm
    exact ⟨record, hrecord, (congrArg CompilationRecord.id hfields.symm :)⟩

-- ---------------------------------------------------------------------------
-- The header
-- ---------------------------------------------------------------------------

instance Lasting.and {I J : Impl → Prop} [Lasting I] [Lasting J] : Lasting fun i => I i ∧ J i where
  quiet hi hstate hwrote := ⟨Still.quiet hi.1 hstate hwrote, Still.quiet hi.2 hstate hwrote⟩
  touch hi h := ⟨Touched.touch hi.1 h, Touched.touch hi.2 h⟩
  change hi h := ⟨Tracked.change hi.1 h, Tracked.change hi.2 h⟩
  admission hi h := ⟨Lasting.admission hi.1 h, Lasting.admission hi.2 h⟩

/-- What does not depend on the coordinator. -/
instance Lasting.const (P : Prop) : Lasting fun _ => P where
  quiet hi _ _ := hi
  touch hi _ := hi
  change hi _ := hi
  admission hi _ := hi

/-- The header within a lifetime: the epoch and the generation of the cache stay,
numbers are drawn upwards. -/
structure StateHeader.Ages (header next : StateHeader) : Prop where
  epoch : next.epoch = header.epoch
  cacheGeneration : next.cacheGeneration = header.cacheGeneration
  attempts : header.nextAttemptId ≤ next.nextAttemptId

namespace StateHeader.Ages

variable {s s' : State}

omit [HashFunction] in
theorem of_stable (h : s'.header.stable = s.header.stable) : s.header.Ages s'.header where
  epoch := (congrArg StateHeader.epoch h :)
  cacheGeneration := (congrArg StateHeader.cacheGeneration h :)
  attempts := Nat.le_of_eq (congrArg StateHeader.nextAttemptId h.symm :)

theorem of_touch (h : Touch s s') : s.header.Ages s'.header := .of_stable (State.Steady.of_touch h).stable

omit [HashFunction] in
theorem supersede (s : State) (id : CompilationId) : (s.supersede id).header = s.header := by
  unfold State.supersede
  simp only
  split <;> rfl

theorem of_change (h : Change s s') : s.header.Ages s'.header := by
  cases h with
  | resolve aside => exact .of_stable aside.stable
  | @supersede id =>
    rw [supersede]
    exact ⟨rfl, rfl, Nat.le_refl _⟩
  | assign => exact ⟨rfl, rfl, Nat.le_succ _⟩
  | create | withdraw | lower | publish => exact ⟨rfl, rfl, Nat.le_refl _⟩

theorem of_admission (h : Admission s s') : s.header.Ages s'.header := by
  cases h with
  | ready | enroll => exact ⟨rfl, rfl, Nat.le_refl _⟩

end StateHeader.Ages

-- ---------------------------------------------------------------------------
-- Attempts
-- ---------------------------------------------------------------------------

section Attempts

variable {s s' : State} {id : CompilationAttemptId}

/-- Where an attempt comes from in a touch. -/
theorem Touch.attempt_of {next : CompilationAttempt} (h : Touch s s') (found : s'.attempts[id]? = some next) :
    ∃ attempt : CompilationAttempt, s.attempts[id]? = some attempt ∧ attempt.Continues next := by
  cases h with
  | note note => exact ⟨next, note.attempts ▸ found, .refl next⟩
  | attempt key advances =>
    obtain ⟨attempt, hattempt, rfl | ⟨rfl, rfl⟩⟩ := Table.of_get_modify found
    · exact ⟨next, hattempt, .refl next⟩
    · exact ⟨attempt, hattempt, .of_advances (advances attempt hattempt)⟩
  | record | worker | lease | revoke | session => exact ⟨next, found, .refl next⟩

/-- Where an attempt comes from in a change: it was there, or it has drawn the next
number. -/
theorem Change.attempt_of {next : CompilationAttempt} (h : Change s s') (found : s'.attempts[id]? = some next) :
    s.attempts[id]? = some next ∧ (id.value < s'.header.nextAttemptId → id.value < s.header.nextAttemptId) ∨
    id.value = s.header.nextAttemptId ∧ id.value < s'.header.nextAttemptId ∧
      ∃ (key : CompilationId) (compilation : CompilationRecord) (worker : WorkerRecord) (speculative : Bool)
        (createdAt : UnixMillis), s.compilations[key]? = some compilation ∧
        next = s.attemptFor worker compilation speculative createdAt := by
  cases h with
  | resolve aside =>
    refine .inl ⟨aside.attempts ▸ found, fun h => ?_⟩
    have hcounter : s'.header.nextAttemptId = s.header.nextAttemptId :=
      (congrArg StateHeader.nextAttemptId aside.stable :)
    rw [← hcounter]
    exact h
  | @supersede key =>
    refine .inl ⟨?_, fun h => ?_⟩
    · unfold State.supersede at found
      simp only at found
      split at found
      · exact found
      · exact found
    · rw [StateHeader.Ages.supersede] at h
      exact h
  | @assign key compilation worker speculative createdAt issuedAt updatedAt hcompilation able =>
    change ((s.attempts.insert (⟨s.header.nextAttemptId⟩ : CompilationAttemptId) _)[id]?) = some next at found
    rw [Table.get_insert] at found
    split at found
    next hid =>
      subst hid
      obtain rfl := Option.some.inj found
      exact .inr ⟨rfl, Nat.lt_succ_self _, key, compilation, worker, speculative, createdAt, hcompilation, rfl⟩
    next hid =>
      refine .inl ⟨found, fun h => ?_⟩
      change id.value < s.header.nextAttemptId + 1 at h
      have hne : id.value ≠ s.header.nextAttemptId := fun hvalue => hid (congrArg Id.mk hvalue.symm)
      omega
  | create | withdraw | lower | publish => exact .inl ⟨found, fun h => h⟩

/-- A change leaves the attempts whose numbers have been drawn alone. -/
theorem Change.keeps_attempt {attempt : CompilationAttempt} (h : Change s s')
    (numbered : id.value < s.header.nextAttemptId) (found : s.attempts[id]? = some attempt) :
    s'.attempts[id]? = some attempt := by
  cases h with
  | resolve aside =>
    rw [aside.attempts]
    exact found
  | @supersede key =>
    unfold State.supersede
    simp only
    split
    · exact found
    · exact found
  | assign =>
    show (s.attempts.insert _ _)[id]? = some attempt
    rw [Table.get_insert, if_neg]
    · exact found
    · rintro rfl
      exact Nat.lt_irrefl _ numbered
  | create | withdraw | lower | publish => exact found

theorem Admission.attempts (h : Admission s s') : s'.attempts = s.attempts := by
  cases h with
  | ready | enroll => rfl

end Attempts

/-- The coordinator is in that epoch, and so is the snapshot on disk. -/
structure Impl.InEpoch (epoch : CoordinatorEpoch) (i : Impl) : Prop where
  state : i.state.header.epoch = epoch
  saved : ∃ saved : State, saved.header.epoch = epoch ∧ (encodeState saved).fits = true ∧
    i.store.snapshot = (encodeState saved).bytes

instance Impl.InEpoch.lasting (epoch : CoordinatorEpoch) : Lasting (Impl.InEpoch epoch) where
  quiet hi hstate hwrote := by
    refine ⟨hstate ▸ hi.state, ?_⟩
    rcases hwrote with hsame | ⟨hfits, hpayload⟩
    · rw [hsame]
      exact hi.saved
    · exact ⟨_, hi.state, hfits, hpayload⟩
  touch hi h := ⟨(StateHeader.Ages.of_touch h).epoch.trans hi.state, hi.saved⟩
  change hi h := ⟨(StateHeader.Ages.of_change h).epoch.trans hi.state, hi.saved⟩
  admission hi h := ⟨(StateHeader.Ages.of_admission h).epoch.trans hi.state, hi.saved⟩

omit [HashFunction] in
/-- The epoch a restart goes on to is the next one. -/
theorem value_following (epoch : CoordinatorEpoch) :
    (CoordinatorEpoch.following epoch).value = epoch.value + 1 := by
  unfold CoordinatorEpoch.following
  split
  next hzero =>
    simp only [Gen.isZero, beq_iff_eq] at hzero
    rw [hzero]
  next => rfl

-- ---------------------------------------------------------------------------
-- Epochs
-- ---------------------------------------------------------------------------

omit [HashFunction] in
/-- An assignment carries the epoch it is issued in. -/
theorem Tracked.Issued.epoch {s last : State} {assignment : Assignment} (h : Tracked.Issued s assignment last) :
    assignment.claim.epoch = last.header.epoch := by
  obtain ⟨id, compilation, worker, speculative, createdAt, issuedAt, updatedAt, -, -, -, hclaim, hnotes⟩ := h
  rw [hclaim, (StateHeader.Ages.of_stable hnotes.stable).epoch]
  rfl

/-- What holds of an assignment where it is issued, and lasts, holds of everything a
run hands out. -/
theorem Runs.assignments {I : Impl → Prop} [Lasting I] {P : Assignment → Impl → Prop}
    [∀ assignment, Lasting (P assignment)]
    (issue : ∀ {i j : Impl} {assignment : Assignment}, I i → I j →
      Tracked.Issued i.state assignment j.state → P assignment j)
    {first last : System} {steps : List Step} (run : Runs first steps last) (h : I first.impl) :
    ∀ assignment ∈ steps.flatMap Step.assignments, P assignment last.impl := by
  induction run with
  | start => exact fun _ h => absurd h List.not_mem_nil
  | @step steps sys run environment op within ih =>
    intro assignment hassignment
    rw [List.flatMap_append, List.mem_append, List.flatMap_cons, List.flatMap_nil, List.append_nil] at hassignment
    rcases hassignment with hbefore | hnow
    · exact Lasting.step (ih assignment hbefore) environment op within
    · unfold Step.assignments at hnow
      cases op with
      | pump =>
        have hgiven : I (System.given environment sys.impl) := Still.quiet (run.lasts h) rfl (.inl rfl)
        have hpumped := Tracked.wp_pump issue hgiven
        obtain ⟨-, hcollected⟩ := hpumped
        show P assignment (pump.run (System.given environment sys.impl)).2
        simp only at hnow
        split at hnow
        next assignments heq =>
          rw [heq] at hcollected
          exact hcollected assignment hnow
        next => cases hnow
      | _ => cases hnow

/-- Successive lifetimes over one state directory, each with its epoch and what it
handed out. A close is a step of the run; the object is gone either way. -/
inductive History : Store → List (CoordinatorEpoch × List Assignment) → Prop
  | start (store : Store) : History store []
  | lifetime {store : Store} {past : List (CoordinatorEpoch × List Assignment)}
      {config : CoordinatorConfig} {first last : System} {steps : List Step} (history : History store past)
      (persistent : config.enablePersistence = true) (opened : store.Opens config first)
      (run : Runs first steps last) (survived : Nat) :
      History (System.crash survived last).impl.store
        (past ++ [(first.impl.state.header.epoch, steps.flatMap Step.assignments)])

/-- The snapshot on disk is of that epoch or a later one. -/
def Store.Since (epoch : CoordinatorEpoch) (store : Store) : Prop :=
  ∃ saved : State, epoch.value ≤ saved.header.epoch.value ∧ (encodeState saved).fits = true ∧
    store.snapshot = (encodeState saved).bytes

/-- An open goes on to a later epoch than that of the snapshot. -/
theorem Store.Since.lt {epoch : CoordinatorEpoch} {store : Store} (h : store.Since epoch)
    {config : CoordinatorConfig} (persistent : config.enablePersistence = true) {first : System}
    (opened : store.Opens config first) : epoch.value < first.impl.state.header.epoch.value := by
  obtain ⟨saved, hle, hfits, hpayload⟩ := h
  obtain ⟨recovered, -, hreopens, hrecover, -⟩ := opened.opening.recovered
  have hheader := Store.header_of_recover hfits hpayload (hrecover persistent)
  rw [hreopens.epoch, value_following, hheader]
  exact Nat.lt_succ_of_le hle

/-- A lifetime keeps its epoch and leaves it on disk. -/
theorem Store.Opens.inEpoch {store : Store} {config : CoordinatorConfig} {first last : System}
    {steps : List Step} (opened : store.Opens config first)
    (persistent : config.enablePersistence = true) (run : Runs first steps last) :
    last.impl.InEpoch first.impl.state.header.epoch :=
  run.lasts ⟨rfl, opened.opening.saved persistent⟩

/-- Every past lifetime left its epoch on disk, and its claims are of its epoch. -/
theorem History.since {store : Store} {past : List (CoordinatorEpoch × List Assignment)}
    (history : History store past) : ∀ life ∈ past, store.Since life.1 ∧
      ∀ assignment ∈ life.2, assignment.claim.epoch = life.1 := by
  induction history with
  | start => exact fun _ h => absurd h List.not_mem_nil
  | @lifetime store past config first last steps history persistent opened run survived ih =>
    have hepoch := opened.inEpoch persistent run
    obtain ⟨saved, hsaved, hfits, hpayload⟩ := hepoch.saved
    intro life hlife
    rcases List.mem_append.mp hlife with hbefore | hnow
    · obtain ⟨hsince, hclaims⟩ := ih life hbefore
      have hlt := hsince.lt persistent opened
      exact ⟨⟨saved, by rw [hsaved]; omega, hfits, hpayload⟩, hclaims⟩
    · obtain rfl := List.mem_singleton.mp hnow
      refine ⟨⟨saved, by rw [hsaved], hfits, hpayload⟩, fun assignment hassignment => ?_⟩
      refine run.assignments (I := Impl.InEpoch first.impl.state.header.epoch)
        (P := fun assignment _ => assignment.claim.epoch = first.impl.state.header.epoch) ?_
        ⟨rfl, opened.opening.saved persistent⟩ assignment hassignment
      exact fun _ hj hissued => hissued.epoch.trans hj.state

/-- Epochs strictly increase from lifetime to lifetime and are the same all through
one, so a claim of an earlier lifetime is no claim of a later one. -/
theorem epochs_increase {store : Store} {past : List (CoordinatorEpoch × List Assignment)}
    {config : CoordinatorConfig} {first last : System} {steps : List Step} (history : History store past)
    (persistent : config.enablePersistence = true) (opened : store.Opens config first)
    (run : Runs first steps last) :
    last.impl.state.header.epoch = first.impl.state.header.epoch ∧
      ∀ life ∈ past, life.1.value < first.impl.state.header.epoch.value ∧
        ∀ assignment ∈ life.2, ∀ (compilation : CompilationRecord) (attempt : CompilationAttempt),
          validateAuthority assignment.claim (last.impl.state.expectationFor compilation attempt) ≠ .ok () := by
  have hepoch := (opened.inEpoch persistent run).state
  refine ⟨hepoch, fun life hlife => ?_⟩
  obtain ⟨hsince, hclaims⟩ := history.since life hlife
  have hlt := hsince.lt persistent opened
  refine ⟨hlt, fun assignment hassignment compilation attempt haccepted => ?_⟩
  have hclaim := congrArg AuthorityClaim.epoch (validateAuthority_eq_ok.mp haccepted)
  have hexpected : (last.impl.state.expectationFor compilation attempt).epoch =
      last.impl.state.header.epoch := rfl
  rw [hclaims assignment hassignment, hexpected, hepoch] at hclaim
  rw [hclaim] at hlt
  exact Nat.lt_irrefl _ hlt

end

/-- An environment that answers every write. -/
def obliging : Environment := { io := List.replicate 8 true, readings := [] }

def persistent : CoordinatorConfig := { enablePersistence := true }

/-- The first open of an empty directory, and one over what it left. -/
def firstLife : System := System.step obliging (.openWith persistent) { impl := { store := {} } }

def secondLife : System :=
  System.step obliging (.openWith persistent) { impl := { store := (System.crash 0 firstLife).impl.store } }

theorem eq_ok_of_isOk {ε : Type} {r : Except ε Unit} (h : r.isOk = true) : r = .ok () := by
  cases r with
  | ok => rfl
  | error => cases h

theorem firstLife_opens : Store.Opens {} persistent firstLife :=
  ⟨obliging, rfl, eq_ok_of_isOk (by decide +kernel)⟩

theorem secondLife_opens : Store.Opens (System.crash 0 firstLife).impl.store persistent secondLife :=
  ⟨obliging, rfl, eq_ok_of_isOk (by decide +kernel)⟩

theorem epochs_increase_twice :
    firstLife.impl.state.header.epoch.value < secondLife.impl.state.header.epoch.value := by
  have past := History.lifetime (.start {}) rfl firstLife_opens .start 0
  have lives := epochs_increase past rfl secondLife_opens .start
  obtain ⟨-, later⟩ := lives
  generalize firstLife.impl.state.header.epoch = before at *
  generalize secondLife.impl.state.header.epoch = after at *
  exact (later (before, _) (List.mem_append_right _ (List.mem_singleton_self _))).1

end DistributedCompilation
