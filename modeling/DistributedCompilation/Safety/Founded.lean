import DistributedCompilation.Safety.Restart

/-!
# Distributed Compilation — what a commit rests on

The digest, the validation and the provenance of a commit are those of the bytes
one report brought, however the phases of other reports fall in between. Its
provenance is that of the attempt and of the compilation when every report that
is accepted names the compilation and the generation its attempt was issued for.
-/

namespace DistributedCompilation

open Program (Keeps)

section

variable [HashFunction]

-- ---------------------------------------------------------------------------
-- Attempts of this lifetime
-- ---------------------------------------------------------------------------

/-- An attempt numbered in this lifetime is of its epoch and of the unit of its
compilation. -/
def State.Native (base : Nat) (s : State) : Prop :=
  ∀ (id : CompilationAttemptId) (attempt : CompilationAttempt), s.attempts[id]? = some attempt →
    s.Drew base id → attempt.epoch = s.header.epoch ∧ ∃ record : CompilationRecord,
      s.compilations[attempt.compilation]? = some record ∧ attempt.unit = record.unit

namespace State.Native

variable {base : Nat} {s s' : State}

omit [HashFunction] in
/-- The record of a compilation keeps its unit. -/
theorem advanced {attempt : CompilationAttempt} (advances : s.Advances s')
    (h : ∃ record : CompilationRecord, s.compilations[attempt.compilation]? = some record ∧
      attempt.unit = record.unit) :
    ∃ record : CompilationRecord, s'.compilations[attempt.compilation]? = some record ∧
      attempt.unit = record.unit := by
  obtain ⟨record, hrecord, hunit⟩ := h
  obtain ⟨next, hnext, hbound, -⟩ := advances _ record hrecord
  exact ⟨next, hnext, hunit.trans (congrArg CompilationRecord.unit hbound.symm :)⟩

theorem of_touch (h : s.Native base) (touch : Touch s s') : s'.Native base := by
  have ages := StateHeader.Ages.of_touch touch
  have hcounter : s'.header.nextAttemptId = s.header.nextAttemptId :=
    (congrArg StateHeader.nextAttemptId (State.Steady.of_touch touch).stable :)
  intro id next hnext hdrew
  obtain ⟨attempt, hattempt, hcontinues⟩ := touch.attempt_of hnext
  obtain ⟨hepoch, hrecord⟩ := h id attempt hattempt ⟨hdrew.1, hcounter ▸ hdrew.2⟩
  have hown : next.epoch = attempt.epoch ∧ next.compilation = attempt.compilation ∧
      next.unit = attempt.unit :=
    ⟨(congrArg CompilationAttempt.epoch hcontinues.frozen :),
      (congrArg CompilationAttempt.compilation hcontinues.frozen :),
      (congrArg CompilationAttempt.unit hcontinues.frozen :)⟩
  rw [hown.1, hown.2.1, hown.2.2, ages.epoch]
  exact ⟨hepoch, advanced (.of_touch touch) hrecord⟩

theorem of_change (h : s.Native base) (keyed : s.Keyed) (change : Change s s') : s'.Native base := by
  have ages := StateHeader.Ages.of_change change
  intro id next hnext hdrew
  rw [ages.epoch]
  rcases change.attempt_of hnext with ⟨hbefore, hnumbered⟩ |
    ⟨-, -, key, compilation, worker, speculative, createdAt, hfound, rfl⟩
  · obtain ⟨hepoch, hrecord⟩ := h id next hbefore ⟨hdrew.1, hnumbered hdrew.2⟩
    exact ⟨hepoch, advanced (.of_change change) hrecord⟩
  · refine ⟨rfl, advanced (.of_change change) ⟨compilation, ?_, rfl⟩⟩
    show s.compilations[compilation.id]? = some compilation
    rw [keyed.compilation key compilation hfound, hfound]

theorem of_admission (h : s.Native base) (admission : Admission s s') : s'.Native base := by
  have ages := StateHeader.Ages.of_admission admission
  have hcounter : s'.header.nextAttemptId = s.header.nextAttemptId := by
    cases admission with
    | ready | enroll => rfl
  intro id next hnext hdrew
  rw [admission.attempts] at hnext
  obtain ⟨hepoch, hrecord⟩ := h id next hnext ⟨hdrew.1, hcounter ▸ hdrew.2⟩
  rw [ages.epoch]
  exact ⟨hepoch, advanced (.of_admission admission) hrecord⟩

instance lasting (base : Nat) : Lasting fun i => i.state.Keyed ∧ i.state.Native base where
  quiet hi hstate _ := hstate ▸ hi
  touch hi h := ⟨hi.1.of_touch h, State.Native.of_touch hi.2 h⟩
  change hi h := ⟨hi.1.of_change h, State.Native.of_change hi.2 hi.1 h⟩
  admission hi h := ⟨hi.1.of_admission h, State.Native.of_admission hi.2 h⟩

end State.Native

-- ---------------------------------------------------------------------------
-- Reports in flight
-- ---------------------------------------------------------------------------

/-- The attempt of the report is of this lifetime, carries the reported bytes and was
issued for what the report claims. -/
structure Reservation.Backed (base : Nat) (r : Reservation) (s : State) : Prop where
  drew : s.Drew base r.output.claim.attempt
  attempt : ∃ attempt : CompilationAttempt, s.attempts[r.output.claim.attempt]? = some attempt ∧
    attempt.Carries r.output.bytes ∧ attempt.compilation = r.output.claim.compilation ∧
    attempt.compilationGeneration = r.output.claim.compilationGeneration

namespace Reservation.Backed

variable {base : Nat} {r : Reservation} {s s' : State}

theorem mono (h : r.Backed base s) (ages : s.header.Ages s'.header)
    (attempts : ∀ attempt : CompilationAttempt, s.attempts[r.output.claim.attempt]? = some attempt →
      ∃ next : CompilationAttempt, s'.attempts[r.output.claim.attempt]? = some next ∧ attempt.Continues next) :
    r.Backed base s' where
  drew := h.drew.mono ages
  attempt := by
    obtain ⟨attempt, hattempt, hcarries, hcompilation, hgeneration⟩ := h.attempt
    obtain ⟨next, hnext, hcontinues⟩ := attempts attempt hattempt
    refine ⟨next, hnext, hcontinues.carries hcarries, ?_, ?_⟩
    · rw [← hcompilation]
      exact (congrArg CompilationAttempt.compilation hcontinues.frozen :)
    · rw [← hgeneration]
      exact (congrArg CompilationAttempt.compilationGeneration hcontinues.frozen :)

instance lasting (base : Nat) (r : Reservation) : Lasting fun i => r.Backed base i.state where
  quiet hi hstate _ := hstate ▸ hi
  touch hi h := Reservation.Backed.mono hi (.of_touch h) ((State.Steady.of_touch h).attempts _)
  change hi h := Reservation.Backed.mono hi (.of_change h) fun attempt hattempt =>
    ⟨attempt, h.keeps_attempt hi.drew.2 hattempt, .refl attempt⟩
  admission hi h := Reservation.Backed.mono hi (.of_admission h) fun attempt hattempt =>
    ⟨attempt, h.attempts ▸ hattempt, .refl attempt⟩

end Reservation.Backed

/-- A report that is accepted names the compilation and the generation its attempt was
issued for. -/
def Step.Own (step : Step) : Prop :=
  ∀ (session : SessionId) (output : ReportOutput), step.op = .reserve session output →
    ∀ (attempt : CompilationAttempt) (compilation : CompilationRecord),
      step.before.impl.state.attempts[output.claim.attempt]? = some attempt →
      step.before.impl.state.compilations[output.claim.compilation]? = some compilation →
      validateAuthority output.claim (step.before.impl.state.expectationFor compilation attempt) = .ok () →
      output.claim.compilation = attempt.compilation ∧
        output.claim.compilationGeneration = attempt.compilationGeneration

/-- The second phase of the report: its bytes are validated and stored. -/
def Step.validates (step : Step) (r : Reservation) (report : ValidationReport) : Prop :=
  ∃ (n : Nat) (smoke : SmokeTest), step.op = .validate n smoke ∧ step.before.reserved[n]? = some r ∧
    report = r.validate smoke ∧
    ((storeOutput r).run (System.given step.environment step.before.impl)).1 = .ok ()

/-- Whatever waits for phase three has been through phase two. -/
theorem Runs.validated {first last : System} {steps : List Step} (run : Runs first steps last)
    (quiet : first.inFlight = []) : ∀ entry ∈ last.validated, ∃ step ∈ steps, step.validates entry.1 entry.2 := by
  induction run with
  | start =>
    intro entry hentry
    obtain ⟨-, hnone⟩ := List.append_eq_nil_iff.mp quiet
    rw [List.map_eq_nil_iff.mp hnone] at hentry
    cases hentry
  | @step steps sys run environment op within ih =>
    have before : ∀ entry ∈ sys.validated,
        ∃ step ∈ steps ++ [⟨environment, op, sys⟩], step.validates entry.1 entry.2 := by
      intro entry hentry
      obtain ⟨step, hstep, hvalidates⟩ := ih entry hentry
      exact ⟨step, List.mem_append_left _ hstep, hvalidates⟩
    intro entry hentry
    cases op with
    | reserve session output =>
      simp only [System.step, System.reserveStep] at hentry
      split at hentry
      next => exact before entry hentry
      next => exact before entry hentry
    | validate n smoke =>
      simp only [System.step, System.validateStep] at hentry
      split at hentry
      next => exact before entry hentry
      next reservation hreservation =>
        split at hentry
        next impl heq =>
          rcases List.mem_append.mp hentry with hold | hnew
          · exact before entry hold
          · obtain rfl := List.mem_singleton.mp hnew
            exact ⟨_, List.mem_append_right _ (List.mem_singleton_self _), n, smoke, rfl, hreservation, rfl,
              congrArg Prod.fst heq⟩
        next => exact before entry hentry
    | commit n =>
      simp only [System.step, System.commitStep] at hentry
      split at hentry
      next => exact before entry hentry
      next => exact before entry (List.mem_of_mem_eraseIdx hentry)
    | _ => exact before entry hentry

-- ---------------------------------------------------------------------------
-- Phase three
-- ---------------------------------------------------------------------------

/-- Phase three leaves the commits alone, or publishes one of an attempt whose claim is
the expected one and whose bytes passed. -/
theorem wp_commitOutput (session : SessionId) (output : ReportOutput) (validation : ValidationReport)
    (i : Impl) : Program.wp (commitOutput session output validation) (fun _ j =>
      j.state.commits = i.state.commits ∨
      ∃ (attempt : CompilationAttempt) (compilation : CompilationRecord) (commit : ArtifactCommit),
        i.state.attempts[output.claim.attempt]? = some attempt ∧
        i.state.compilations[output.claim.compilation]? = some compilation ∧
        output.claim = i.state.expectationFor compilation attempt ∧ validation.aggregate = .pass ∧
        Published i.state output.claim compilation validation commit j.state) i := by
  have still : Impl.After (fun _ => True) i.state i := ⟨trivial, .refl _⟩
  have touched {α : Type} {m : M α} {Q : Impl → Prop} (h : Keeps (Impl.After (fun _ => True) i.state) m) :
      Program.wp m (fun _ j => j.state.commits = i.state.commits ∨ Q j) i :=
    Program.wp_mono (h i still) fun _ _ hj => .inl hj.steady.commits
  unfold commitOutput
  rw [Still.wp_getState_bind]
  split
  next => exact .inl rfl
  next attempt hattempt =>
  split
  next => exact .inl rfl
  next compilation hcompilation =>
  split
  next hauthority =>
    unfold commitLocked
    rw [Still.wp_getState_bind, hattempt, hcompilation]
    simp only
    split
    next => exact .inl rfl
    next =>
    split
    next => exact touched (Touched.refuseCandidate _ _)
    next hpassed =>
    split
    next prior hprior =>
      split
      · exact touched (Touched.deduplicate _ _ _ _)
      · exact touched (Touched.refuseDivergent _ _ _)
    next hfree =>
      refine Program.wp_mono (Tracked.wp_commitFirst (I := fun _ => True) session _ output.claim validation
        trivial hattempt hcompilation hfree (not_not.mp hpassed)) ?_
      rintro r j ⟨-, ⟨-, commit, hpublished, -⟩ | ⟨-, hsame, -⟩⟩
      · exact .inr ⟨attempt, compilation, commit, rfl, rfl, validateAuthority_eq_ok.mp hauthority,
          not_not.mp hpassed, hpublished⟩
      · exact .inl (congrArg State.commits hsame)
  next =>
    refine touched ?_
    refine Keeps.bind (Noted.recordViolation _ _ _ _ _) fun _ => ?_
    refine Keeps.bind (Touched.transitionAttempt _ (by decide)) fun moved => ?_
    split
    · refine Keeps.bind (Touched.finishAttemptBookkeeping _) fun _ => ?_
      exact Keeps.bind (Still.ignoring (Noted.persistAttempt _)) fun _ => Keeps.pure _
    · exact Keeps.pure _

/-- The provenance is that of the attempt and of the compilation. -/
structure Provenance.Describes (provenance : Provenance) (attempt : CompilationAttempt)
    (record : CompilationRecord) : Prop where
  compilation : provenance.compilation = record.id ∧ provenance.compilation = attempt.compilation
  generation : provenance.compilationGeneration = record.generation ∧
    provenance.compilationGeneration = attempt.compilationGeneration
  unit : provenance.unit = record.unit ∧ provenance.unit = attempt.unit
  source : provenance.attempt = attempt.id ∧ provenance.attemptGeneration = attempt.generation
  worker : provenance.worker = attempt.worker ∧ provenance.workerBoot = attempt.workerBoot ∧
    provenance.workerGeneration = attempt.workerGeneration
  lease : provenance.lease = attempt.lease ∧ provenance.leaseGeneration = attempt.leaseGeneration
  epoch : provenance.epoch = attempt.epoch
  request : provenance.requestId = record.requestId ∧ provenance.requestIdentity = record.requestIdentity
  identities : provenance.unitIdentity = record.unitIdentity ∧
    provenance.sourceIdentity = record.sourceIdentity ∧
    provenance.dependencyIdentity = record.dependencyIdentity ∧
    provenance.toolchainIdentity = record.toolchainIdentity ∧
    provenance.targetIdentity = record.targetIdentity ∧
    provenance.specializationIdentity = record.specializationIdentity ∧
    provenance.policyIdentity = record.policyIdentity

/-- The commit rests on the bytes, the validation of them, the attempt that brought
them and its compilation. -/
def State.Founds (s : State) (commit : ArtifactCommit) (bytes : Bytes) (report : ValidationReport) : Prop :=
  ∃ (attempt : CompilationAttempt) (record : CompilationRecord) (provenance : Provenance)
    (validation : ValidationReport),
    s.attempts[commit.attempt]? = some attempt ∧ s.compilations[commit.compilation]? = some record ∧
    s.provenances[commit.provenance]? = some provenance ∧
    s.validations[commit.validation]? = some validation ∧
    commit.artifactDigest = sha256 bytes ∧ attempt.candidate.digest = commit.artifactDigest ∧
    provenance.artifact.digest = commit.artifactDigest ∧
    validation.aggregate = .pass ∧ validation = { report with id := commit.validation } ∧
    provenance.Describes attempt record

/-- A commit that is published rests on what the claim of the report says. -/
theorem Published.founds {base : Nat} {s last : State} {r : Reservation} {attempt : CompilationAttempt}
    {compilation : CompilationRecord} {report : ValidationReport} {commit : ArtifactCommit}
    (published : Published s r.output.claim compilation report commit last)
    (foundAttempt : s.attempts[r.output.claim.attempt]? = some attempt)
    (found : s.compilations[r.output.claim.compilation]? = some compilation)
    (claimed : r.output.claim = s.expectationFor compilation attempt) (passed : report.aggregate = .pass)
    (native : s.Native base) (backed : r.Backed base s) :
    last.Founds commit r.output.bytes report ∧ commit.attempt = r.output.claim.attempt ∧
      ∀ (key : ArtifactCommitId) (other : ArtifactCommit), last.commits[key]? = some other →
        s.commits[key]? = some other ∨ other = commit := by
  obtain ⟨before, own, reported, producedAt, committedAt, hsteady, hreported, hown, hcandidate, rfl, hnotes⟩ :=
    published
  obtain ⟨attempt', hattempt', hcarries, hcompilation, hgeneration⟩ := backed.attempt
  obtain rfl : attempt' = attempt := Option.some.inj (hattempt'.symm.trans foundAttempt)
  obtain ⟨hepoch, record', hrecord', hunit⟩ := native _ attempt' foundAttempt backed.drew
  obtain ⟨record, hrecord, hfrozen⟩ := hsteady.record found
  obtain ⟨next, hnext, hcontinues⟩ := hsteady.attempts _ attempt' foundAttempt
  obtain rfl : next = reported := Option.some.inj (hnext.symm.trans hreported)
  -- the claim names the compilation and the attempt it was checked against
  have hid : r.output.claim.compilation = compilation.id := congrArg AuthorityClaim.compilation claimed
  have hkey : r.output.claim.attempt = attempt'.id := congrArg AuthorityClaim.attempt claimed
  have hcurrent : r.output.claim.compilationGeneration = compilation.generation :=
    congrArg AuthorityClaim.compilationGeneration claimed
  rw [hcompilation, found] at hrecord'
  obtain rfl := Option.some.inj hrecord'
  have hbound : own.frozen = attempt'.frozen := hown.trans hcontinues.frozen
  have hdigest := (hcontinues.carries hcarries).2
  have hattempts : last.attempts = before.attempts := hnotes.attempts
  have hcompilations : last.compilations = before.compilations := hnotes.compilations
  have hownid : own.id = r.output.claim.attempt := by
    rw [hkey]
    exact (congrArg CompilationAttempt.id hbound :)
  refine ⟨⟨next, record, before.provenanceFor compilation own producedAt,
    { report with id := ⟨before.header.nextValidationId⟩ }, ?_, ?_, ?_, ?_, ?_, ?_, rfl, passed, rfl, ?_⟩, hownid, ?_⟩
  · show last.attempts[own.id]? = some next
    rw [hattempts, hownid, hreported]
  · show last.compilations[compilation.id]? = some record
    rw [hcompilations, ← hid, hrecord]
  · rw [hnotes.provenances]
    exact (Table.get_insert _ _ _ _).trans (if_pos rfl)
  · rw [hnotes.validations]
    exact (Table.get_insert _ _ _ _).trans (if_pos rfl)
  · show own.candidate.digest = sha256 r.output.bytes
    rw [hcandidate, hdigest]
  · show next.candidate.digest = own.candidate.digest
    rw [hcandidate]
  · have hsource : next.compilation = compilation.id := by
      rw [← hid, ← hcompilation]
      exact (congrArg CompilationAttempt.compilation hcontinues.frozen :)
    have hissued : next.compilationGeneration = compilation.generation := by
      rw [← hcurrent, ← hgeneration]
      exact (congrArg CompilationAttempt.compilationGeneration hcontinues.frozen :)
    have hnative : next.unit = compilation.unit := by
      rw [← hunit]
      exact (congrArg CompilationAttempt.unit hcontinues.frozen :)
    have hcommon : before.header.epoch = next.epoch := by
      rw [(StateHeader.Ages.of_stable hsteady.stable).epoch, ← hepoch]
      exact (congrArg CompilationAttempt.epoch hcontinues.frozen.symm :)
    simp only [CompilationAttempt.frozen, CompilationAttempt.mk.injEq] at hown
    simp only [CompilationRecord.frozen, CompilationRecord.mk.injEq] at hfrozen
    constructor <;> simp only [State.provenanceFor, hown, hfrozen, hsource, hissued, hnative, hcommon, and_self]
  · intro key other hother
    rw [hnotes.commits] at hother
    change ((before.commits.insert _ (before.commitFor compilation own committedAt))[key]?) = some other at hother
    rw [Table.get_insert] at hother
    split at hother
    next => exact .inr (Option.some.inj hother).symm
    next => exact .inl (hsteady.commits ▸ hother)

-- ---------------------------------------------------------------------------
-- Runs
-- ---------------------------------------------------------------------------

/-- What an accepted report establishes when it names what its attempt was issued for. -/
theorem Reserved.backed {base : Nat} {recovered : Table CompilationAttemptId CompilationAttempt} {step : Step}
    {session : SessionId} {output : ReportOutput} {r : Reservation} {last : State} (own : step.Own)
    (op : step.op = .reserve session output) (retains : step.before.impl.state.Retains base recovered)
    (idle : ∀ (id : CompilationAttemptId) (attempt : CompilationAttempt),
      recovered[id]? = some attempt → holdsCommitAuthority attempt.state = false)
    (steady : step.before.impl.state.Steady last)
    (h : Reserved step.before.impl.state session output r last) : r.Backed base last := by
  refine ⟨(retains.drew idle h).mono (.of_stable steady.stable), ?_⟩
  obtain ⟨attempt, compilation, hattempt, hcompilation, hclaim, -, -⟩ := h.granted
  obtain ⟨next, hnext, hcarries⟩ := h.carried
  obtain ⟨next', hnext', hcontinues⟩ := steady.attempts _ attempt hattempt
  obtain rfl : next = next' := Option.some.inj (hnext.symm.trans hnext')
  obtain ⟨hown, hissued⟩ := own session output op attempt compilation hattempt hcompilation
    (validateAuthority_eq_ok.mpr hclaim)
  rw [h.output.1]
  refine ⟨next, hnext, hcarries, ?_, ?_⟩
  · rw [hown]
    exact (congrArg CompilationAttempt.compilation hcontinues.frozen :)
  · rw [hissued]
    exact (congrArg CompilationAttempt.compilationGeneration hcontinues.frozen :)

/-- Whatever commit the step creates rests on the bytes of one report, which phase two
validated and stored. -/
def Step.Founded (steps : List Step) (step : Step) : Prop :=
  ∀ (n : Nat) (r : Reservation) (report : ValidationReport), step.op = .commit n →
    step.before.validated[n]? = some (r, report) →
    (∃ earlier ∈ steps, earlier.validates r report) ∧
    ∀ (key : ArtifactCommitId) (commit : ArtifactCommit),
      step.after.impl.state.commits[key]? = some commit → step.before.impl.state.commits[key]? ≠ some commit →
      step.after.impl.state.Founds commit r.output.bytes report ∧ commit.attempt = r.output.claim.attempt

/-- As long as accepted reports name the compilation and the generation their attempts
were issued for, every commit of a lifetime rests on the bytes of its report. -/
theorem commits_founded {config : CoordinatorConfig} {closed first last : System} {steps : List Step}
    (opened : closed.Opens config first) (run : Runs first steps last) (own : ∀ step ∈ steps, step.Own) :
    ∀ step ∈ steps, step.Founded steps := by
  intro step hstep n r report hop hvalidated
  obtain ⟨earlier, hsub, hrun⟩ := run.before step hstep
  have hidle := opened.opening.idle
  obtain ⟨hkeyed, -⟩ := opened.opening.fences
  have hmem := List.mem_of_getElem? hvalidated
  have hwaits : r ∈ step.before.inFlight := List.mem_append_right _ (List.mem_map_of_mem hmem)
  have hbacked : r.Backed first.impl.state.header.nextAttemptId step.before.impl.state := by
    refine hrun.inFlight (C := Step.Own) (I := fun i =>
      first.impl.state.header.nextAttemptId ≤ i.state.header.nextAttemptId ∧
        i.state.Retains first.impl.state.header.nextAttemptId first.impl.state.attempts)
      (P := fun r i => r.Backed first.impl.state.header.nextAttemptId i.state)
      (fun hown hop hi _ steady reserved => reserved.backed hown hop hi.2 hidle.attempts steady)
      (fun other hother => own other (hsub other hother))
      ⟨Nat.le_refl _, fun id attempt hattempt => .inr ⟨attempt, hattempt, .refl attempt⟩⟩ opened.quiet r hwaits
  have hnative := (hrun.lasts (I := fun i => i.state.Keyed ∧
    i.state.Native first.impl.state.header.nextAttemptId)
    ⟨hkeyed, fun _ _ _ hdrew => absurd hdrew.2 (Nat.not_lt.mpr hdrew.1)⟩).2
  refine ⟨?_, fun key commit hafter hbefore => ?_⟩
  · obtain ⟨other, hother, hvalidates⟩ := hrun.validated opened.quiet _ hmem
    exact ⟨other, hsub other hother, hvalidates⟩
  · have hcommit := wp_commitOutput r.session r.output report (System.given step.environment step.before.impl)
    have hstate : step.after.impl = ((commitOutput r.session r.output report).run
        (System.given step.environment step.before.impl)).2 := by
      unfold Step.after
      rw [hop]
      simp only [System.step, System.commitStep, hvalidated]
      rfl
    unfold Program.wp at hcommit
    rw [← hstate] at hcommit
    rcases hcommit with hsame | ⟨attempt, compilation, published, hattempt, hcompilation, hclaim, hpassed, hpublished⟩
    · rw [hsame] at hafter
      exact absurd hafter hbefore
    · obtain ⟨hfounds, hof, honly⟩ := hpublished.founds hattempt hcompilation hclaim hpassed hnative hbacked
      rcases honly key commit hafter with hold | rfl
      · exact absurd hold hbefore
      · exact ⟨hfounds, hof⟩

end

/-- Two compile units over one source, without demands on the artifacts. -/
def pairBundle : SubmissionBundle where
  request := {
    requestId := ⟨1⟩
    toolchain := { family := .gnu, versionString := txt "13" }
    target := { os := .linux, arch := .x86_64 }
    policy := { requireProvableToolchain := false }
    validation := { requireFormatCheck := false, requireTargetMetadata := false }
    units := [
      { logicalName := txt "a", sources := [
        { logicalName := txt "a.cpp", content := { digest := sha256 (txt "x"), size := 1 } }] },
      { index := 1, logicalName := txt "b", sources := [
        { logicalName := txt "a.cpp", content := { digest := sha256 (txt "x"), size := 1 } }] }] }
  blobs := [{ bytes := txt "x" }]

def pairRun : List Op := [.submit pairBundle, .registerWorker smallWorker, .markReady ⟨1⟩, .pump]

/-- Both units are assigned to the worker. -/
def pairIssued : System := System.perform pairRun volatileFirst

def System.compilationOf (sys : System) (attempt : CompilationAttemptId) : CompilationId :=
  ((sys.impl.state.attempts[attempt]?).getD {}).compilation

/-- What the coordinator expects of a report that names the attempt and the compilation. -/
def System.claimFor (sys : System) (attempt : CompilationAttemptId) (compilation : CompilationId) :
    AuthorityClaim :=
  sys.impl.state.expectationFor ((sys.impl.state.compilations[compilation]?).getD {})
    ((sys.impl.state.attempts[attempt]?).getD {})

/-- The first attempt is begun, and a report about it is made under that claim. -/
def System.begun (sys : System) : System :=
  System.step {} (.beginCompile (sys.claimFor ⟨1⟩ (sys.compilationOf ⟨1⟩))) sys

abbrev reportOf (claim : AuthorityClaim) : Op := .reserve ⟨1⟩ { claim, bytes := txt "o" }

def System.checked (sys : System) (claim : AuthorityClaim) : System :=
  System.perform [reportOf claim, .validate 0 none] sys.begun

def System.reportSteps (sys : System) (claim : AuthorityClaim) : List Step :=
  [⟨{}, .beginCompile (sys.claimFor ⟨1⟩ (sys.compilationOf ⟨1⟩)), sys⟩, ⟨{}, reportOf claim, sys.begun⟩,
    ⟨{}, .validate 0 none, System.step {} (reportOf claim) sys.begun⟩, ⟨{}, .commit 0, sys.checked claim⟩]

theorem System.runs_reportSteps (sys : System) (claim : AuthorityClaim) :
    Runs sys (sys.reportSteps claim) (System.step {} (.commit 0) (sys.checked claim)) :=
  (Runs.perform [.beginCompile (sys.claimFor ⟨1⟩ (sys.compilationOf ⟨1⟩)), reportOf claim, .validate 0 none]
    sys rfl).trans (Runs.perform [.commit 0] _ rfl)

theorem System.runs_checked (sys : System) (claim : AuthorityClaim) :
    ∃ steps, Runs sys steps (sys.checked claim) :=
  ⟨_, Runs.perform [.beginCompile (sys.claimFor ⟨1⟩ (sys.compilationOf ⟨1⟩)), reportOf claim, .validate 0 none]
    sys rfl⟩

def pairSteps (claim : AuthorityClaim) : List Step :=
  System.stepsOf pairRun volatileFirst ++ pairIssued.reportSteps claim

theorem runs_pairSteps (claim : AuthorityClaim) : Runs volatileFirst (pairSteps claim)
    (System.step {} (.commit 0) (pairIssued.checked claim)) :=
  (Runs.perform pairRun volatileFirst rfl).trans (pairIssued.runs_reportSteps claim)

def pairCommit (claim : AuthorityClaim) : Step := ⟨{}, .commit 0, pairIssued.checked claim⟩

theorem pairCommit_mem (claim : AuthorityClaim) : pairCommit claim ∈ pairSteps claim :=
  List.mem_append_right _ (.tail _ (.tail _ (.tail _ (.head _))))

/-- The claim of the first attempt. -/
def ownClaim : AuthorityClaim := pairIssued.claimFor ⟨1⟩ (pairIssued.compilationOf ⟨1⟩)

/-- The first attempt under the compilation of the second. -/
def mixedClaim : AuthorityClaim := pairIssued.claimFor ⟨1⟩ (pairIssued.compilationOf ⟨2⟩)

/-- The claim names the compilation and the generation the attempt was issued for. -/
def System.owns (sys : System) (claim : AuthorityClaim) : Bool :=
  (sys.impl.state.attempts[claim.attempt]?).all fun attempt =>
    claim.compilation == attempt.compilation && claim.compilationGeneration == attempt.compilationGeneration

theorem Step.own_of_owns {sys : System} {claim : AuthorityClaim} (h : sys.owns claim = true) :
    Step.Own ⟨{}, reportOf claim, sys⟩ := by
  intro session output hop attempt compilation hattempt _ _
  obtain ⟨-, rfl⟩ := Op.reserve.inj hop
  unfold System.owns at h
  rw [hattempt, Option.all_some, Bool.and_eq_true, beq_iff_eq, beq_iff_eq] at h
  exact h

/-- The first commit, new in the step, is of a compilation that is not its attempt's. -/
def Step.misplaces (step : Step) : Bool :=
  match step.before.validated[0]?, step.before.impl.state.commits[(⟨1⟩ : ArtifactCommitId)]?,
    step.after.impl.state.commits[(⟨1⟩ : ArtifactCommitId)]? with
  | some _, none, some commit =>
    match step.after.impl.state.attempts[commit.attempt]?,
      step.after.impl.state.provenances[commit.provenance]? with
    | some attempt, some provenance => provenance.compilation != attempt.compilation
    | _, _ => false
  | _, _, _ => false

theorem not_founded_of_misplaces {steps : List Step} {step : Step} (op : step.op = .commit 0)
    (h : step.misplaces = true) : ¬step.Founded steps := by
  intro founded
  unfold Step.misplaces at h
  split at h
  next entry commit hvalidated hnone hcommit =>
    obtain ⟨-, hfounds⟩ := founded 0 entry.1 entry.2 op hvalidated
    obtain ⟨⟨attempt, record, provenance, validation, hattempt, -, hprovenance, -, -, -, -, -, -, hdescribes⟩, -⟩ :=
      hfounds ⟨1⟩ commit hcommit (by rw [hnone]; exact nofun)
    rw [hattempt, hprovenance] at h
    simp only [bne_iff_ne, ne_eq] at h
    exact h hdescribes.compilation.2
  next => cases h

set_option maxRecDepth 100000 in
theorem pairSteps_checks : pairIssued.begun.owns ownClaim = true ∧ (pairCommit mixedClaim).misplaces = true := by
  rw [mixedClaim, pairCommit, System.checked, Step.misplaces, ownClaim, pairIssued, volatileFirst, pairRun,
    pairBundle, System.begun, hashFunction_eq]
  decide +kernel

theorem commits_founded_pair : (pairCommit ownClaim).Founded (pairSteps ownClaim) := by
  refine commits_founded volatileFirst_opens_closed (runs_pairSteps ownClaim) ?_ _ (pairCommit_mem ownClaim)
  intro step hstep
  simp only [pairSteps, pairRun, System.stepsOf, System.reportSteps, List.cons_append, List.nil_append,
    List.mem_cons, List.not_mem_nil, or_false] at hstep
  rcases hstep with rfl | rfl | rfl | rfl | rfl | rfl | rfl | rfl
  case inr.inr.inr.inr.inr.inl => exact Step.own_of_owns pairSteps_checks.1
  all_goals exact nofun

/-- A report may name the compilation of another attempt of its worker. -/
theorem not_commits_founded : ¬∀ (config : CoordinatorConfig) (closed first last : System) (steps : List Step),
    closed.Opens config first → Runs first steps last → ∀ step ∈ steps, step.Founded steps := by
  intro h
  exact not_founded_of_misplaces rfl pairSteps_checks.2
    (h _ _ _ _ _ volatileFirst_opens_closed (runs_pairSteps mixedClaim) _ (pairCommit_mem mixedClaim))

end DistributedCompilation
