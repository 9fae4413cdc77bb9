import DistributedCompilation.Safety.FanIn
import DistributedCompilation.Safety.Propagation

/-!
# Distributed Compilation — mandatory children

The gate of a link unit looks at every child, whatever its flag; a failure that spreads
looks at the flag of the parent; a cancellation and a failed validation do not
spread. When that agrees with the flags of the children is
`mandatory_flags_iff`.
-/

namespace DistributedCompilation

open Program (Keeps)

-- ---------------------------------------------------------------------------
-- Sections about attempts
-- ---------------------------------------------------------------------------

/-- Properties of the compilations, the jobs and the requests. -/
class Aloof (I : Impl → Prop) : Prop where
  aloof : ∀ {i j : Impl}, I i → j.state.compilations = i.state.compilations → j.state.jobs = i.state.jobs →
    j.state.requests = i.state.requests → I j

instance (id : CompilationId) (record : Option CompilationRecord) :
    Aloof fun i => i.state.compilations[id]? = record := ⟨fun hi compilations _ _ => by rw [compilations]; exact hi⟩

namespace Aloof

variable {I : Impl → Prop} [Aloof I]

theorem onState {f : State → State} (h : ∀ s : State, (f s).compilations = s.compilations)
    (jobs : ∀ s : State, (f s).jobs = s.jobs) (requests : ∀ s : State, (f s).requests = s.requests) :
    Keeps I (onState f) := Keeps.update fun i hi => aloof hi (h i.state) (jobs i.state) (requests i.state)

@[grind ←] theorem onAttempt (id : CompilationAttemptId) (f : CompilationAttempt → CompilationAttempt) :
    Keeps I (onAttempt id f) := onState (fun _ => rfl) (fun _ => rfl) fun _ => rfl

@[grind ←] theorem onWorker (id : WorkerId) (f : WorkerRecord → WorkerRecord) :
    Keeps I (onWorker id f) := onState (fun _ => rfl) (fun _ => rfl) fun _ => rfl

instance : Logged I where
  logged hi hstate _ := by
    rcases hstate with hstate | hstate
    · exact aloof hi (by rw [hstate]) (by rw [hstate]) (by rw [hstate])
    · exact aloof hi (by rw [hstate]; rfl) (by rw [hstate]; rfl) (by rw [hstate]; rfl)

@[grind ←] theorem transitionAttempt (id : CompilationAttemptId) (next : AttemptState) :
    Keeps I (transitionAttempt id next) := by
  unfold DistributedCompilation.transitionAttempt
  grind

@[grind ←] theorem finishAttemptBookkeeping (id : CompilationAttemptId) :
    Keeps I (finishAttemptBookkeeping id) := by
  unfold DistributedCompilation.finishAttemptBookkeeping
  refine Keeps.bind Logged.now fun _ => Keeps.bind (onAttempt _ _) fun _ => Keeps.bind Still.getState fun s => ?_
  split
  · exact Keeps.pure _
  next attempt _ =>
    have revoked : Keeps I (DistributedCompilation.onState (·.withLease attempt.lease fun lease =>
        lease.revoke (txt "attempt reached " ++ attempt.state.text))) :=
      onState (fun _ => rfl) (fun _ => rfl) fun _ => rfl
    split
    · exact Keeps.bind Logged.now fun _ => Keeps.bind (onWorker _ _) fun _ => revoked
    · exact revoked

@[grind ←] theorem failAttemptLocked (id : CompilationAttemptId) (code : ErrorCode) (detail : Bytes) :
    Keeps I (failAttemptLocked id code detail) := by
  unfold DistributedCompilation.failAttemptLocked
  grind

@[grind ←] theorem cancelAttempt (compilation : CompilationRecord) (reason : Bytes) (id : CompilationAttemptId) :
    Keeps I (cancelAttempt compilation reason id) := by
  unfold DistributedCompilation.cancelAttempt
  refine Keeps.bind Still.getState fun s => ?_
  split
  · exact Keeps.pure _
  · split
    · exact Keeps.pure _
    · refine Keeps.bind (onState (fun _ => rfl) (fun _ => rfl) fun _ => rfl) fun _ => ?_
      exact Still.ignoring (failAttemptLocked _ _ _)

@[grind ←] theorem cancelLease (compilation : CompilationId) (reason : Bytes) (id : LeaseId) :
    Keeps I (cancelLease compilation reason id) := by
  unfold DistributedCompilation.cancelLease
  refine Keeps.bind Still.getState fun s => ?_
  split
  · exact Keeps.pure _
  · split
    · exact Keeps.pure _
    · refine Keeps.bind (onState (fun _ => rfl) (fun _ => rfl) fun _ => rfl) fun _ => ?_
      exact Logged.persistVoid _

end Aloof

/-- An update of another compilation. -/
theorem onCompilation_other {id other : CompilationId} (hne : id ≠ other) (record : Option CompilationRecord)
    (f : CompilationRecord → CompilationRecord) :
    Keeps (fun i => i.state.compilations[id]? = record) (onCompilation other f) := by
  refine Keeps.update fun i hi => ?_
  unfold State.withCompilation
  simp only [Table.get_modify, if_neg (Ne.symm hne)]
  exact hi

/-- A cancellation leaves the other compilations as they are. -/
theorem cancel_other {id other : CompilationId} (hne : id ≠ other) (reason : Bytes)
    (record : Option CompilationRecord) :
    Keeps (fun i => i.state.compilations[id]? = record) (cancel other reason) := by
  unfold cancel
  refine Keeps.bind Still.ensureOpen fun _ => Keeps.bind Still.getState fun s => ?_
  split
  · exact Still.refused _ _
  · split
    · exact Still.refused _ _
    · refine Keeps.bind (Keeps.forEach _ fun _ _ => Aloof.cancelAttempt _ _ _) fun _ => ?_
      refine Keeps.bind (Keeps.forEach _ fun _ _ => Aloof.cancelLease _ _ _) fun _ => ?_
      refine Keeps.bind Logged.now fun updatedAt => Keeps.bind (onCompilation_other hne _ _) fun _ => ?_
      exact Still.orReturn (Logged.persistCompilation _)

/-- So does a candidate that fails its validation. -/
theorem refuseCandidate_other {id : CompilationId} {claim : AuthorityClaim} (hne : id ≠ claim.compilation)
    (validation : ValidationReport) (record : Option CompilationRecord) :
    Keeps (fun i => i.state.compilations[id]? = record) (refuseCandidate claim validation) := by
  unfold refuseCandidate
  refine Keeps.bind (Still.ignoring (Aloof.failAttemptLocked _ _ _)) fun _ => Keeps.bind Logged.now fun updatedAt => ?_
  refine Keeps.bind (onCompilation_other hne _ _) fun _ => ?_
  exact Keeps.bind (Still.ignoring (Logged.persistCompilation _)) fun _ => Keeps.pure _

/-- And a candidate that differs from the committed one. -/
theorem refuseDivergent_other {id : CompilationId} {claim : AuthorityClaim} (hne : id ≠ claim.compilation)
    (candidate : ContentRef) (reproducibility : ReproducibilityRequirement) (record : Option CompilationRecord) :
    Keeps (fun i => i.state.compilations[id]? = record) (refuseDivergent claim candidate reproducibility) := by
  unfold refuseDivergent
  refine Keeps.bind (onCompilation_other hne _ _) fun _ => ?_
  split
  · refine Keeps.bind (onCompilation_other hne _ _) fun _ => ?_
    refine Keeps.bind (Still.ignoring (Aloof.failAttemptLocked _ _ _)) fun _ => ?_
    exact Keeps.bind (Still.ignoring (Logged.persistCompilation _)) fun _ => Keeps.pure _
  · refine Keeps.bind (Still.ignoring (Aloof.failAttemptLocked _ _ _)) fun _ => ?_
    exact Keeps.bind (Still.ignoring (Logged.persistCompilation _)) fun _ => Keeps.pure _

-- ---------------------------------------------------------------------------
-- The flags
-- ---------------------------------------------------------------------------

/-- The unit at that index is mandatory. -/
def CompilationRequest.Mandatory (c : CompilationRequest) (q : UInt32) : Prop :=
  ∃ unit, c.findUnit q = some unit ∧ unit.mandatory = true

/-- In some job the compilation waits in a link unit that lists the lost child at an
index, and the flag in question is set. -/
def State.ListsLost (s : State) (failed id : CompilationId)
    (flag : CompilationRequest → CompilationUnitSpec → UInt32 → Prop) : Prop :=
  ∃ (identity : Digest256) (job : JobRecord) (request : CompilationRequest) (parent lost : CompilationRecord)
    (unit : CompilationUnitSpec) (q : UInt32), s.jobs[identity]? = some job ∧
    s.requests[job.requestIdentity]? = some request ∧ id ∈ job.units ∧ id.isZero = false ∧ id ≠ failed ∧
    s.compilations[id]? = some parent ∧ parent.state.settled = false ∧
    request.findUnit parent.unitIndex = some unit ∧ unit.kind = .link ∧ q ∈ unit.childUnits ∧
    job.units[q.toNat]? = some failed ∧ s.compilations[failed]? = some lost ∧ lost.state.lost = true ∧
    flag request unit q

/-- The flag of the parent. -/
def parentFlag (_ : CompilationRequest) (unit : CompilationUnitSpec) (_ : UInt32) : Prop := unit.mandatory = true

/-- The flag of the child. -/
def childFlag (request : CompilationRequest) (_ : CompilationUnitSpec) (q : UInt32) : Prop := request.Mandatory q

/-- Failures spread by the flag of the parent. -/
theorem State.breaks_iff {s : State} {failed id : CompilationId} :
    s.Breaks failed id ↔ s.ListsLost failed id parentFlag := by
  constructor
  · rintro ⟨identity, job, request, hjob, hrequest, hunit, hbroken⟩
    unfold State.brokenParent at hbroken
    by_cases hzero : id.isZero = true ∨ id = failed
    · simp [hzero] at hbroken
    cases hparent : s.compilations[id]? with
    | none => simp [hparent] at hbroken
    | some parent =>
    by_cases hsettled : parent.state.settled = true
    · simp [hzero, hparent, hsettled] at hbroken
    cases hfind : request.findUnit parent.unitIndex with
    | none => simp [hzero, hparent, hsettled, hfind] at hbroken
    | some unit =>
    cases hchild : s.compilations[failed]? with
    | none => simp [hzero, hparent, hchild] at hbroken
    | some lost =>
    by_cases hlost : lost.state.lost = true
    · have hlinks : linksTo job unit failed = true := by
        by_contra hno
        rw [Bool.not_eq_true] at hno
        simp [hzero, hparent, hsettled, hfind, hno] at hbroken
      unfold linksTo at hlinks
      simp only [Bool.and_eq_true, beq_iff_eq, List.any_eq_true] at hlinks
      obtain ⟨⟨hlink, hmandatory⟩, q, hq, hstands⟩ := hlinks
      obtain ⟨hzero, hne⟩ := not_or.mp hzero
      exact ⟨identity, job, request, parent, lost, unit, q, hjob, hrequest, hunit, by simpa using hzero, hne, hparent,
        by simpa using hsettled, hfind, hlink, hq, hstands, hchild, hlost, hmandatory⟩
    · simp [hzero, hparent, hchild, hlost] at hbroken
  · rintro ⟨identity, job, request, parent, lost, unit, q, hjob, hrequest, hunit, hzero, hne, hparent, hsettled,
      hfind, hlink, hq, hstands, hlost, hislost, hflag⟩
    refine ⟨identity, job, request, hjob, hrequest, hunit, ?_⟩
    have hlinks : linksTo job unit failed = true := by
      unfold linksTo
      simp only [Bool.and_eq_true, beq_iff_eq, List.any_eq_true]
      exact ⟨⟨hlink, hflag⟩, q, hq, hstands⟩
    unfold State.brokenParent
    simp [hzero, hne, hparent, hsettled, hfind, hlinks, hlost, hislost]

/-- A failed optional child of a mandatory link. -/
def optionalChild : Impl where
  config := { enablePersistence := false }
  opened := true
  state := {
    requests := (∅ : Table Digest256 CompilationRequest).insert default {
      units := [{ mandatory := false }, { index := 1, kind := .link, childUnits := [0] }] }
    jobs := (∅ : Table Digest256 JobRecord).insert default { units := [⟨1⟩, ⟨2⟩] }
    compilations := ((∅ : Table CompilationId CompilationRecord).insert ⟨1⟩ { id := ⟨1⟩, state := .failed }).insert ⟨2⟩
      { id := ⟨2⟩, unitIndex := 1 } }

/-- A link unit over one compile unit that is not mandatory. -/
def optionalBundle : SubmissionBundle where
  request := {
    requestId := ⟨1⟩
    toolchain := { family := .gnu, versionString := txt "13" }
    target := { os := .linux, arch := .x86_64 }
    policy := { requireProvableToolchain := false }
    units := [
      { logicalName := txt "a", mandatory := false, sources := [
        { logicalName := txt "a.cpp", content := { digest := sha256 (txt "x"), size := 1 } }] },
      { index := 1, logicalName := txt "app", kind := .link, childUnits := [0] }] }
  blobs := [{ bytes := txt "x" }]

def optionalSubmitted : System := System.perform [.submit optionalBundle] volatileFirst

/-- Some compilation is a link unit without mandatory children whose gate is shut. -/
def System.waitsForOptional (sys : System) : Bool :=
  sys.impl.state.compilations.keys.any fun id =>
    match sys.impl.state.compilations[id]? with
    | none => false
    | some record =>
      match sys.impl.state.resolve record with
      | none => false
      | some (request, unit) => unit.kind == .link &&
          unit.childUnits.all (fun q => (request.findUnit q).all (!·.mandatory)) &&
          !sys.impl.state.unitReady record

set_option maxRecDepth 100000 in
theorem optionalSubmitted_waits : optionalSubmitted.waitsForOptional = true := by
  rw [optionalSubmitted, volatileFirst, optionalBundle, hashFunction_eq]
  decide +kernel

end DistributedCompilation
