import DistributedCompilation.Runtime.MachineMetadata

/-!
# Distributed Compilation — smoke tests

`run_smoke_test` and the part of `report_output` that prepares it: a scratch
workspace, the file with the artifact in it, and its path. Each of the three may
fail; what the artifact does when it is run is arbitrary.
-/

namespace DistributedCompilation

/-- What is left of a process, as far as a smoke test looks at it; `described` is
its `describe()`. -/
structure ProcessResult where
  started : Bool := false
  timedOut : Bool := false
  exitCode : Int := -1
  wallMillis : UInt64 := 0
  stdoutText : Bytes := []
  described : Bytes := []
deriving DecidableEq, Inhabited

/-- A text without the line ends behind it. -/
def trimLineEnds (text : Bytes) : Bytes := (text.reverse.dropWhile fun c => c == 10 || c == 13).reverse

def smokeCheck (outcome : ValidationOutcome) (detail : Bytes) : ValidationCheck :=
  { check := txt "smoke_test", outcome, detail }

/-- `run_smoke_test`. -/
def runSmokeTest (result : ProcessResult) (expectedStdout : Bytes) : ValidationCheck :=
  if !result.started then smokeCheck .fail (txt "smoke test process did not start: " ++ result.described)
  else if result.timedOut then smokeCheck .fail (txt "smoke test timed out")
  else if result.exitCode ≠ 0 then
    smokeCheck .fail (txt "smoke test exited with " ++ txt (toString result.exitCode) ++ txt ": " ++
      result.described)
  else if !expectedStdout.isEmpty && trimLineEnds result.stdoutText ≠ trimLineEnds expectedStdout then
    smokeCheck .fail (txt "smoke test stdout mismatch")
  else smokeCheck .pass (txt "executed successfully in " ++ decimal result.wallMillis.toNat ++ txt " ms")

/-- How far the preparation of a smoke test gets. -/
inductive Scratch where
  /-- `Workspace::create` fails. -/
  | uncreated
  /-- `write_file` fails. -/
  | unwritten
  /-- `resolve` fails. -/
  | unresolved
  | ran (result : ProcessResult)

/-- The check that comes of it. Where the file is not there, none does. -/
def Scratch.smokeTest (expectedStdout : Bytes) : Scratch → Option ValidationCheck
  | .uncreated =>
    some (smokeCheck .fail (txt "could not create a scratch workspace for the smoke test"))
  | .unwritten | .unresolved => none
  | .ran result => some (runSmokeTest result expectedStdout)

/-- The artifact is in its file and the file has a path. -/
def Scratch.filled : Scratch → Bool
  | .ran _ => true
  | _ => false

theorem runSmokeTest_check (result : ProcessResult) (expectedStdout : Bytes) :
    (runSmokeTest result expectedStdout).check = txt "smoke_test" := by
  unfold runSmokeTest smokeCheck
  repeat' split
  all_goals rfl

theorem runSmokeTest_outcome (result : ProcessResult) (expectedStdout : Bytes) :
    (runSmokeTest result expectedStdout).outcome ≠ .unknown := by
  unfold runSmokeTest smokeCheck
  repeat' split
  all_goals nofun

theorem existenceCheck_check (bytes : Bytes) : (existenceCheck bytes).check = txt "existence" :=
  passOrFail_check ..

theorem dependencyMetadataCheck_check (bytes : Bytes) :
    (dependencyMetadataCheck bytes).check = txt "dependency_metadata" := passOrFail_check ..

/-- No check of the bytes goes by the name of a smoke test. -/
theorem validateArtifactBytes_check [HashFunction] {bytes : Bytes} {kind : OutputKind}
    {target : TargetIdentity} {requirements : ValidationRequirements} {expected : Digest256}
    {check : ValidationCheck}
    (h : check ∈ (validateArtifactBytes bytes kind target requirements expected).checks) :
    check.check ≠ txt "smoke_test" := by
  have named (c : ValidationCheck) (name : String) (hname : c.check = txt name)
      (hne : txt name ≠ txt "smoke_test") (h : check = c) : check.check ≠ txt "smoke_test" := by
    rw [h, hname]
    exact hne
  have optional {b : Bool} {c : ValidationCheck} (h : check ∈ if b then [c] else []) : check = c := by
    cases b with
    | true => exact List.mem_singleton.mp h
    | false => cases h
  simp only [validateArtifactBytes, List.flatten_cons, List.flatten_nil, List.append_nil, List.mem_append] at h
  rcases h with h | h | h | h | h
  · exact named _ _ (existenceCheck_check _) (by decide) (List.mem_singleton.mp h)
  · exact named _ _ (digestCheck_check _ _) (by decide) (optional h)
  · exact named _ _ (formatCheck_check _ _ _ _) (by decide) (optional h)
  · exact named _ _ (targetMetadataCheck_check _ _ _) (by decide) (optional h)
  · exact named _ _ (dependencyMetadataCheck_check _) (by decide) (optional h)

end DistributedCompilation
