import DistributedCompilation.Runtime.SmokeTest
import DistributedCompilation.Safety.Blobs

/-!
# Distributed Compilation — smoke tests and commits

What a smoke test adds to a report decides its commit. A committed artifact that
had to be run was run exactly when its file could be prepared
(`smoke_test_closed_iff`).
-/

namespace DistributedCompilation

section

variable [HashFunction]

/-- The retained request of the compilation demands a smoke test of the output. -/
def State.demandsSmokeTest (s : State) (record : CompilationRecord) (output : ReportOutput) : Bool :=
  (s.requests[record.requestIdentity]?).any fun request =>
    request.validation.requireSmokeTest &&
      ((request.findUnit record.unitIndex).map (·.outputKind)).getD output.kind == .executable

/-- The second phase with a smoke test that got this far. -/
def Reservation.validateWith (r : Reservation) (scratch : Scratch) : ValidationReport :=
  r.validate (scratch.smokeTest r.requirements.smokeExpectedStdout)

def Reservation.demandsSmokeTest (r : Reservation) : Bool :=
  r.requirements.requireSmokeTest && r.outputKind == .executable

omit [HashFunction] in
theorem State.reservationFor_demands (s : State) (session : SessionId) (output : ReportOutput)
    (digest : Digest256) (record : CompilationRecord) :
    (s.reservationFor session output digest record).demandsSmokeTest = s.demandsSmokeTest record output := by
  unfold State.reservationFor State.demandsSmokeTest Reservation.demandsSmokeTest
  cases s.requests[record.requestIdentity]? with
  | none => rfl
  | some request => rfl

omit [HashFunction] in
theorem smokeAggregate_eq_pass {checks : List ValidationCheck} (h : smokeAggregate checks = .pass) :
    ∀ check ∈ checks, check.outcome ≠ .fail := by
  intro check hcheck hfail
  unfold smokeAggregate at h
  rw [if_pos (List.any_eq_true.mpr ⟨check, hcheck, by rw [hfail]; rfl⟩)] at h
  cases h

/-- The three shapes of a validated report. -/
theorem Reservation.validateWith_cases (r : Reservation) (scratch : Scratch) :
    (r.validateWith scratch = validateArtifactBytes r.output.bytes r.outputKind r.target r.requirements
        r.candidateDigest ∧
      (r.demandsSmokeTest = true → scratch.filled = true → (r.validateWith scratch).aggregate ≠ .pass) ∧
      (r.demandsSmokeTest = true → scratch = .uncreated → (r.validateWith scratch).aggregate ≠ .pass)) ∨
    ∃ check : ValidationCheck, r.demandsSmokeTest = true ∧
      scratch.smokeTest r.requirements.smokeExpectedStdout = some check ∧
      (r.validateWith scratch).checks = (validateArtifactBytes r.output.bytes r.outputKind r.target
        r.requirements r.candidateDigest).checks ++ [check] ∧
      (validateArtifactBytes r.output.bytes r.outputKind r.target r.requirements
        r.candidateDigest).aggregate = .pass ∧
      (r.validateWith scratch).aggregate = smokeAggregate (r.validateWith scratch).checks := by
  have wants (report : ValidationReport) : r.wantsSmokeTest report = true ↔
      r.demandsSmokeTest = true ∧ report.aggregate = .pass := by
    unfold Reservation.wantsSmokeTest Reservation.demandsSmokeTest
    rw [Bool.and_eq_true, beq_iff_eq]
  unfold Reservation.validateWith Reservation.validate
  dsimp only
  cases hsmoke : scratch.smokeTest r.requirements.smokeExpectedStdout with
  | none =>
    refine .inl ⟨rfl, fun _ hfilled => ?_, fun _ huncreated => ?_⟩
    · cases scratch with
      | ran result => cases hsmoke
      | _ => cases hfilled
    · subst huncreated
      cases hsmoke
  | some check =>
    dsimp only
    split
    · next hwants =>
      obtain ⟨hdemands, hpass⟩ := (wants _).mp hwants
      exact .inr ⟨check, hdemands, rfl, rfl, hpass, rfl⟩
    · next hno =>
      have hfails (hdemands : r.demandsSmokeTest = true) :
          (validateArtifactBytes r.output.bytes r.outputKind r.target r.requirements
            r.candidateDigest).aggregate ≠ .pass := fun hpass => hno ((wants _).mpr ⟨hdemands, hpass⟩)
      exact .inl ⟨rfl, fun hdemands _ => hfails hdemands, fun hdemands _ => hfails hdemands⟩

/-- A report that passes holds a passed smoke test exactly when one was demanded and
its file was there. -/
theorem Reservation.smoked_iff {r : Reservation} {scratch : Scratch}
    (passed : (r.validateWith scratch).aggregate = .pass) :
    (∃ check ∈ (r.validateWith scratch).checks, check.check = txt "smoke_test" ∧ check.outcome = .pass) ↔
      r.demandsSmokeTest = true ∧ scratch.filled = true := by
  rcases r.validateWith_cases scratch with ⟨hsame, hfilled, -⟩ | ⟨check, hdemands, hsmoke, hchecks, -, haggregate⟩
  · constructor
    · rintro ⟨check, hcheck, hname, -⟩
      rw [hsame] at hcheck
      exact absurd hname (validateArtifactBytes_check hcheck)
    · rintro ⟨hdemands, hran⟩
      exact absurd passed (hfilled hdemands hran)
  · have hmem : check ∈ (r.validateWith scratch).checks := by
      rw [hchecks]
      exact List.mem_append_right _ (List.mem_singleton_self _)
    have hnotfail : check.outcome ≠ .fail := smokeAggregate_eq_pass (haggregate ▸ passed) check hmem
    cases scratch with
    | ran result =>
      obtain rfl := Option.some.inj hsmoke
      refine ⟨fun _ => ⟨hdemands, rfl⟩, fun _ => ⟨_, hmem, runSmokeTest_check _ _, ?_⟩⟩
      cases houtcome : (runSmokeTest result r.requirements.smokeExpectedStdout).outcome with
      | pass => rfl
      | fail => exact absurd houtcome hnotfail
      | unknown => exact absurd houtcome (runSmokeTest_outcome _ _)
    | uncreated =>
      obtain rfl := Option.some.inj hsmoke
      exact absurd rfl hnotfail
    | unwritten => cases hsmoke
    | unresolved => cases hsmoke

/-- An unknown check keeps every report from passing. -/
theorem Reservation.unknown_not_pass (r : Reservation) (scratch : Scratch)
    (unknown : ∃ check ∈ (r.validateWith scratch).checks, check.outcome = .unknown) :
    (r.validateWith scratch).aggregate ≠ .pass := by
  intro hpass
  obtain ⟨check, hcheck, hunknown⟩ := unknown
  have hbytes (hcheck : check ∈ (validateArtifactBytes r.output.bytes r.outputKind r.target r.requirements
      r.candidateDigest).checks)
      (hpass : (validateArtifactBytes r.output.bytes r.outputKind r.target r.requirements
        r.candidateDigest).aggregate = .pass) : False := by
    have hall := (aggregate_eq_pass_iff _).mp hpass check hcheck
    rw [hunknown] at hall
    cases hall
  rcases r.validateWith_cases scratch with ⟨hsame, -, -⟩ | ⟨added, -, hsmoke, hchecks, hbefore, -⟩
  · rw [hsame] at hcheck hpass
    exact hbytes hcheck hpass
  · rw [hchecks, List.mem_append, List.mem_singleton] at hcheck
    rcases hcheck with hcheck | rfl
    · exact hbytes hcheck hbefore
    · cases scratch with
      | ran result =>
        obtain rfl := Option.some.inj hsmoke
        exact runSmokeTest_outcome _ _ hunknown
      | uncreated =>
        obtain rfl := Option.some.inj hsmoke
        cases hunknown
      | unwritten => cases hsmoke
      | unresolved => cases hsmoke

/-- The validation stored with a commit, whatever happens between the phases of its
report. -/
theorem stored_smoked_iff {i j : Impl} {session : SessionId} {output : ReportOutput} {r : Reservation}
    (hreserve : (reserveOutput session output).run i = (.ok r, j)) {record : CompilationRecord}
    (hrecord : i.state.compilations[output.claim.compilation]? = some record) (scratch : Scratch) (k : Impl)
    {key : ArtifactCommitId} {commit : ArtifactCommit}
    (hcommit : ((commitOutput r.session r.output (r.validateWith scratch)).run k).2.state.commits[key]? =
      some commit)
    (hnew : k.state.commits[key]? ≠ some commit) :
    ∃ stored : ValidationReport,
      ((commitOutput r.session r.output (r.validateWith scratch)).run k).2.state.validations[commit.validation]? =
        some stored ∧
      ((∃ check ∈ stored.checks, check.check = txt "smoke_test" ∧ check.outcome = .pass) ↔
        i.state.demandsSmokeTest record output = true ∧ scratch.filled = true) := by
  have hreserved : Reserved i.state session output r j.state := by
    have h := wp_reserveOutput session output i
    unfold Program.wp at h
    rw [hreserve] at h
    exact h
  have hdemands : r.demandsSmokeTest = i.state.demandsSmokeTest record output := by
    obtain ⟨attempt, compilation, -, hcompilation, -, -, rfl⟩ := hreserved.granted
    obtain rfl : record = compilation := Option.some.inj (hrecord.symm.trans hcompilation)
    exact i.state.reservationFor_demands session output _ record
  rcases wp_commitOutput r.session r.output (r.validateWith scratch) k with hsame | hpublished
  · exact absurd (hsame ▸ hcommit) hnew
  · obtain ⟨attempt, compilation, published, -, -, -, hpassed, before, own, reported, producedAt, committedAt,
      hsteady, -, -, -, hcommitted, hnotes⟩ := hpublished
    have hcommits := hnotes.commits
    have hvalidations := hnotes.validations
    rw [hcommits] at hcommit
    have hpublish : (before.commits.insert published.id published)[key]? = some commit := hcommit
    rw [Table.get_insert] at hpublish
    split at hpublish
    · obtain rfl := Option.some.inj hpublish
      refine ⟨{ r.validateWith scratch with id := ⟨before.header.nextValidationId⟩ }, ?_, ?_⟩
      · rw [hvalidations, hcommitted]
        exact (Table.get_insert _ _ _ _).trans (if_pos rfl)
      · rw [← hdemands]
        exact Reservation.smoked_iff hpassed
    · exact absurd (hsteady.commits ▸ hpublish) hnew

/-- Whatever happens between the phases of a report: the validation stored with a
commit holds a passed smoke test exactly when the retained request demanded one of
an executable and the file to run could be prepared. No smoke test makes a report
with an unknown check pass. -/
theorem smoke_test_closed_iff :
    (∀ (i j : Impl) (session : SessionId) (output : ReportOutput) (r : Reservation),
      (reserveOutput session output).run i = (.ok r, j) →
      ∀ (record : CompilationRecord), i.state.compilations[output.claim.compilation]? = some record →
      ∀ (scratch : Scratch) (k : Impl) (key : ArtifactCommitId) (commit : ArtifactCommit),
      ((commitOutput r.session r.output (r.validateWith scratch)).run k).2.state.commits[key]? = some commit →
      k.state.commits[key]? ≠ some commit →
      ∃ stored : ValidationReport,
        ((commitOutput r.session r.output (r.validateWith scratch)).run k).2.state.validations[commit.validation]? =
          some stored ∧
        ((∃ check ∈ stored.checks, check.check = txt "smoke_test" ∧ check.outcome = .pass) ↔
          i.state.demandsSmokeTest record output = true ∧ scratch.filled = true)) ∧
    ∀ (r : Reservation) (scratch : Scratch),
      (∃ check ∈ (r.validateWith scratch).checks, check.outcome = .unknown) →
      (r.validateWith scratch).aggregate ≠ .pass := by
  exact ⟨fun i j session output r hreserve record hrecord scratch k key commit hcommit hnew =>
    stored_smoked_iff hreserve hrecord scratch k hcommit hnew, Reservation.unknown_not_pass⟩

end

/-- What the evaluated run says about its report. -/
theorem executable_commits : ∃ (r : Reservation) (record : CompilationRecord) (commit : ArtifactCommit),
    (reserveOutput ⟨1⟩ executableOutput).run (System.given lastWrite executableBegun.impl) =
      (.ok r, executableReserved.2) ∧
    (System.given lastWrite executableBegun.impl).state.compilations[executableOutput.claim.compilation]? =
      some record ∧
    (System.given lastWrite executableBegun.impl).state.demandsSmokeTest record executableOutput = true ∧
    ((commitOutput r.session r.output (r.validateWith .unwritten)).run
      (System.given lastWrite executableChecked.impl)).2.state.commits[(⟨1⟩ : ArtifactCommitId)]? = some commit ∧
    (System.given lastWrite executableChecked.impl).state.commits[(⟨1⟩ : ArtifactCommitId)]? ≠ some commit := by
  have hcheck := executable_checks.1
  have hrun : executableReserved = (reserveOutput ⟨1⟩ executableOutput).run
    (System.given lastWrite executableBegun.impl) := rfl
  generalize System.given lastWrite executableChecked.impl = k at *
  generalize System.given lastWrite executableBegun.impl = i at *
  cases hreserved : executableReserved with
  | mk result j =>
  rw [hreserved] at hcheck hrun
  cases result with
  | error fault => cases hcheck
  | ok r =>
    simp only [Impl.commitsUnchecked, Bool.and_eq_true, beq_iff_eq] at hcheck
    obtain ⟨⟨⟨hdemands, hkind⟩, hempty⟩, hcommitted⟩ := hcheck
    obtain ⟨commit, hcommit⟩ := Table.contains_iff.mp hcommitted
    have hgranted : Reserved i.state ⟨1⟩ executableOutput r j.state := by
      have h := wp_reserveOutput ⟨1⟩ executableOutput i
      unfold Program.wp at h
      rw [← hrun] at h
      exact h
    obtain ⟨attempt, record, -, hrecord, -, -, hr⟩ := hgranted.granted
    refine ⟨r, record, commit, hrun.symm, hrecord, ?_, hcommit, ?_⟩
    · rw [← State.reservationFor_demands i.state ⟨1⟩ executableOutput (sha256 executableOutput.bytes), ← hr]
      unfold Reservation.demandsSmokeTest
      rw [hdemands, hkind]
      rfl
    · rw [Std.ExtTreeMap.isEmpty_iff.mp hempty, Table.get_empty]
      nofun

theorem smoke_test_closed_iff_executable : ∃ (r : Reservation) (record : CompilationRecord)
    (commit : ArtifactCommit) (stored : ValidationReport),
    ((commitOutput r.session r.output (r.validateWith .unwritten)).run
      (System.given lastWrite executableChecked.impl)).2.state.validations[commit.validation]? = some stored ∧
    ((∃ check ∈ stored.checks, check.check = txt "smoke_test" ∧ check.outcome = .pass) ↔
      (System.given lastWrite executableBegun.impl).state.demandsSmokeTest record executableOutput = true ∧
        Scratch.unwritten.filled = true) := by
  obtain ⟨r, record, commit, hreserve, hrecord, -, hcommit, hnew⟩ := executable_commits
  obtain ⟨stored, hstored, hiff⟩ := smoke_test_closed_iff.1 _ _ ⟨1⟩ executableOutput r hreserve record hrecord
    .unwritten _ ⟨1⟩ commit hcommit hnew
  exact ⟨r, record, commit, stored, hstored, hiff⟩

/-- Where the file to run cannot be written, an executable that has to be run is
committed without having been run. -/
theorem not_smoke_test_closed : ¬∀ (i j : Impl) (session : SessionId) (output : ReportOutput) (r : Reservation),
    (reserveOutput session output).run i = (.ok r, j) →
    ∀ (record : CompilationRecord), i.state.compilations[output.claim.compilation]? = some record →
    i.state.demandsSmokeTest record output = true →
    ∀ (scratch : Scratch) (k : Impl) (key : ArtifactCommitId) (commit : ArtifactCommit),
    ((commitOutput r.session r.output (r.validateWith scratch)).run k).2.state.commits[key]? = some commit →
    k.state.commits[key]? ≠ some commit →
    ∃ stored : ValidationReport,
      ((commitOutput r.session r.output (r.validateWith scratch)).run k).2.state.validations[commit.validation]? =
        some stored ∧
      ∃ check ∈ stored.checks, check.check = txt "smoke_test" ∧ check.outcome = .pass := by
  intro h
  obtain ⟨r, record, commit, hreserve, hrecord, hdemands, hcommit, hnew⟩ := executable_commits
  obtain ⟨stored, hstored, hsmoked⟩ := h _ _ _ _ r hreserve record hrecord hdemands .unwritten _ _ commit hcommit hnew
  obtain ⟨stored', hstored', hiff⟩ := stored_smoked_iff hreserve hrecord .unwritten _ hcommit hnew
  obtain rfl := Option.some.inj (hstored.symm.trans hstored')
  exact Bool.false_ne_true (hiff.mp hsmoked).2

end DistributedCompilation
