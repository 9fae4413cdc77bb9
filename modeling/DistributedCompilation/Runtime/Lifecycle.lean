import DistributedCompilation.Domain.Records

/-!
# Distributed Compilation — attempt lifecycle and authority

The attempt state machine, the failure classes and the authority check of
`runtime.cpp`.
-/

namespace DistributedCompilation

-- ---------------------------------------------------------------------------
-- Attempt lifecycle
-- ---------------------------------------------------------------------------

/-- `is_legal_transition`: the transition relation is closed. -/
def isLegalTransition (source target : AttemptState) : Bool :=
  match source with
  | .created => target ∈ [.eligible, .fenced, .cancelled]
  | .eligible => target ∈ [.assigned, .failed, .fenced, .cancelled]
  | .assigned => target ∈ [.preparing, .failed, .fenced, .cancelled, .ambiguous]
  | .preparing => target ∈ [.running, .produced, .failed, .fenced, .cancelled, .ambiguous]
  | .running => target ∈ [.produced, .failed, .fenced, .cancelled, .ambiguous]
  -- a candidate that exists can no longer become ambiguous
  | .produced => target ∈ [.validating, .failed, .fenced, .cancelled]
  | .validating => target ∈ [.commitReady, .failed, .fenced, .cancelled]
  | .commitReady => target ∈ [.committed, .failed, .fenced, .cancelled, .ambiguous]
  | .committed => target = .retired
  | .failed => target = .retired
  | .cancelled => target = .retired
  | .fenced => target = .retired
  | .ambiguous => target = .retired
  | .retired => false

def isTerminalState : AttemptState → Bool
  | .committed | .failed | .cancelled | .fenced | .retired => true
  | _ => false

def holdsCommitAuthority : AttemptState → Bool
  | .commitReady | .validating | .produced | .running | .preparing | .assigned => true
  | _ => false

/-- An attempt that ended holds no authority. -/
theorem not_holds_of_terminal {st : AttemptState} (h : isTerminalState st = true) :
    holdsCommitAuthority st = false := by
  cases st <;> first | rfl | cases h

/-- Once authority is gone no legal transition brings it back. -/
theorem holds_of_isLegalTransition {st st' : AttemptState} (h : isLegalTransition st st' = true)
    (hst' : holdsCommitAuthority st' = true) :
    holdsCommitAuthority st = true ∨ st = .eligible := by
  cases st <;> cases st' <;> revert h hst' <;> decide

inductive FailureClass | retryable | nonRetryable | ambiguous
deriving DecidableEq

/-- `classify_failure`. Every stale code is retryable: the work is re-issued
under fresh authority. -/
def classifyFailure (code : ErrorCode) : FailureClass :=
  if code ∈ [ErrorCode.transportFailure, .connectionClosed, .timeout, .ioError, .internal] then
    .retryable
  else if code ∈ [ErrorCode.ambiguous, .shutdown] then .ambiguous
  else if 20 ≤ code.value && code.value ≤ 35 then .retryable
  else if code = .unknown then .ambiguous
  else .nonRetryable

-- ---------------------------------------------------------------------------
-- Authority
-- ---------------------------------------------------------------------------

/-- What a worker asserts when it reports progress or a result. -/
@[ext] structure AuthorityClaim where
  epoch : CoordinatorEpoch := {}
  compilation : CompilationId := {}
  compilationGeneration : CompilationGeneration := {}
  unit : CompilationUnitId := {}
  unitGeneration : UnitGeneration := {}
  attempt : CompilationAttemptId := {}
  attemptGeneration : CompilationAttemptGeneration := {}
  worker : WorkerId := {}
  workerBoot : WorkerBootId := {}
  workerGeneration : WorkerGeneration := {}
  lease : LeaseId := {}
  leaseGeneration : LeaseGeneration := {}
  sourceGeneration : SourceGeneration := {}
  irGeneration : IRGeneration := {}
  dependencyGeneration : DependencyGeneration := {}
  toolchainGeneration : ToolchainGeneration := {}
  targetGeneration : TargetGeneration := {}
  specializationGeneration : SpecializationGeneration := {}
  policyGeneration : CompilePolicyGeneration := {}
  cacheGeneration : CacheGeneration := {}
  requestIdentity : Digest256 := default
  unitIdentity : Digest256 := default
deriving DecidableEq

/-- `AuthorityExpectation`, which has the fields of a claim. -/
abbrev AuthorityExpectation := AuthorityClaim

/-- A generation that moved: `<what> moved from <claimed> to <expected>`. -/
def movedText {tag : GenTag} (what : String) (claimed expected : Gen tag) : Bytes :=
  txt what ++ txt " moved from " ++ decimal claimed.value ++ txt " to " ++ decimal expected.value

/-- `validate_authority`: the first mismatch is reported as a typed failure. -/
def validateAuthority (claim : AuthorityClaim) (expected : AuthorityExpectation) : Result Unit :=
  if claim.epoch ≠ expected.epoch then
    failure .staleEpoch (movedText "coordinator epoch" claim.epoch expected.epoch)
  else if claim.compilation ≠ expected.compilation then
    failure .staleCompilation (txt "compilation identity mismatch")
  else if claim.compilationGeneration ≠ expected.compilationGeneration then
    failure .staleCompilation
      (movedText "compilation generation" claim.compilationGeneration expected.compilationGeneration)
  else if claim.unit ≠ expected.unit then
    failure .staleCompilation (txt "compilation unit mismatch")
  else if claim.unitGeneration ≠ expected.unitGeneration then
    failure .staleCompilation (txt "compilation unit generation mismatch")
  else if claim.attempt ≠ expected.attempt then
    failure .staleAttempt (txt "attempt identity mismatch")
  else if claim.attemptGeneration ≠ expected.attemptGeneration then
    failure .staleAttempt
      (movedText "attempt generation" claim.attemptGeneration expected.attemptGeneration)
  else if claim.worker ≠ expected.worker then
    failure .staleWorkerGeneration (txt "worker identity mismatch")
  else if claim.workerBoot ≠ expected.workerBoot then
    failure .staleWorkerBoot (txt "worker boot identity moved")
  else if claim.workerGeneration ≠ expected.workerGeneration then
    failure .staleWorkerGeneration
      (movedText "worker generation" claim.workerGeneration expected.workerGeneration)
  else if claim.lease ≠ expected.lease then failure .staleLease (txt "lease identity mismatch")
  else if claim.leaseGeneration ≠ expected.leaseGeneration then
    failure .staleLease (movedText "lease generation" claim.leaseGeneration expected.leaseGeneration)
  else if claim.sourceGeneration ≠ expected.sourceGeneration then
    failure .staleSource
      (movedText "source generation" claim.sourceGeneration expected.sourceGeneration)
  else if claim.irGeneration ≠ expected.irGeneration then
    failure .staleIR (txt "IR generation moved")
  else if claim.dependencyGeneration ≠ expected.dependencyGeneration then
    failure .staleDependencies
      (movedText "dependency generation" claim.dependencyGeneration expected.dependencyGeneration)
  else if claim.toolchainGeneration ≠ expected.toolchainGeneration then
    failure .staleToolchain
      (movedText "toolchain generation" claim.toolchainGeneration expected.toolchainGeneration)
  else if claim.targetGeneration ≠ expected.targetGeneration then
    failure .staleTarget (txt "target generation moved")
  else if claim.specializationGeneration ≠ expected.specializationGeneration then
    failure .staleSpecialization (txt "specialization generation moved")
  else if claim.policyGeneration ≠ expected.policyGeneration then
    failure .stalePolicy (txt "policy generation moved")
  else if claim.cacheGeneration ≠ expected.cacheGeneration then
    failure .staleCache (txt "cache generation moved")
  else if claim.requestIdentity ≠ expected.requestIdentity then
    failure .staleRequest (txt "request identity mismatch")
  else if claim.unitIdentity ≠ expected.unitIdentity then
    failure .staleCompilation (txt "unit identity mismatch")
  else .ok ()

theorem ite_error_eq_ok {c : Prop} [Decidable c] {e : Status} {r : Result Unit} :
    (if c then .error e else r) = .ok () ↔ ¬c ∧ r = .ok () := by
  by_cases h : c <;> simp [h]

/-- The check leaves no field out: it passes on the expectation and on nothing
else. -/
theorem validateAuthority_eq_ok {claim expected : AuthorityClaim} :
    validateAuthority claim expected = .ok () ↔ claim = expected := by
  rw [AuthorityClaim.ext_iff]
  simp only [validateAuthority, failure, ite_error_eq_ok, ne_eq, not_not, and_true]

end DistributedCompilation
