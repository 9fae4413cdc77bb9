import DistributedCompilation.Coordinator.Bookkeeping

/-!
# Distributed Compilation — the auditor

`Coordinator::audit`: ten groups of checks over the whole state, each a loop that
adds a finding for what it objects to. A state with no finding is clean.
-/

namespace DistributedCompilation

structure AuditFinding where
  invariant : Bytes
  detail : Bytes
  compilation : CompilationId
deriving DecidableEq

structure AuditReport where
  compilations : Nat := 0
  committed : Nat := 0
  attempts : Nat := 0
  workers : Nat := 0
  leases : Nat := 0
  cacheEntries : Nat := 0
  provenances : Nat := 0
  violations : Nat := 0
  findings : List AuditFinding := []
  clean : Bool := false

/-- `if (objection) add(invariant, detail, compilation)`. -/
def objectIf (objection : Bool) (invariant : String) (detail : Bytes) (compilation : CompilationId) :
    List AuditFinding :=
  if objection then [{ invariant := txt invariant, detail, compilation }] else []

namespace State

variable (s : State)

/-- 1. Every compilation is kept under its identity and has one. -/
def auditCompilations : List AuditFinding :=
  s.compilations.toList.flatMap fun (key, record) =>
    objectIf (record.id != key) "compilation_id_unique" (txt "record key does not match its identity") key ++
    objectIf record.unitIdentity.isZero "compilation_has_unit_identity"
      (txt "compilation has no unit identity") key

/-- The commits of a compilation that are not superseded. -/
def authoritativeFor (id : CompilationId) : Nat :=
  s.commits.toList.countP fun (_, commit) => commit.compilation == id && !commit.superseded

/-- Authority that is bound to another epoch, boot or worker generation, or to a
fenced worker. -/
def staleAuthority (attempt : CompilationAttempt) : Bool :=
  let owner := s.workers[attempt.worker]?
  attempt.epoch != s.header.epoch || !owner.any (·.boot == attempt.workerBoot) ||
    !owner.any (·.generation == attempt.workerGeneration) || !owner.any (!·.fenced)

/-- 4. No stale worker holds live commit authority for a committed compilation. -/
def auditAuthority (key : CompilationId) (record : CompilationRecord) (commit : ArtifactCommit) :
    List AuditFinding :=
  record.attempts.flatMap fun id =>
    match s.attempts[id]? with
    | none => []
    | some attempt =>
      objectIf (holdsCommitAuthority attempt.state && attempt.id != commit.attempt && s.staleAuthority attempt)
        "no_stale_authority_after_commit"
        (txt "attempt " ++ decimal id.value ++
          txt " holds commit authority from a superseded epoch, boot or worker generation") key ++
      objectIf (attempt.state == .cancelled && (s.workers[attempt.worker]?).any (·.session.isZero) &&
          holdsCommitAuthority attempt.state)
        "cancelled_attempt_has_no_authority" (txt "cancelled attempt retains authority") key

/-- 3. What is committed has its records, and they agree. -/
def auditCommit (key : CompilationId) (record : CompilationRecord) (commit : ArtifactCommit) :
    List AuditFinding :=
  objectIf commit.artifactDigest.isZero "commit_has_digest"
    (txt "authoritative commit has an empty artifact digest") key ++
  objectIf (s.provenances[commit.provenance]?).isNone "commit_has_provenance"
    (txt "authoritative commit has no provenance record") key ++
  (match s.validations[commit.validation]? with
    | none => objectIf true "commit_has_validation" (txt "authoritative commit has no validation record") key
    | some validation => objectIf (validation.aggregate != .pass) "commit_validation_passed"
        (txt "authoritative commit references a failed validation") key) ++
  objectIf (record.state != .committed) "committed_state_consistent"
    (txt "authoritative commit but compilation is not Committed") key ++
  objectIf ((s.provenances[commit.provenance]?).any fun provenance =>
      provenance.toolchainIdentity != record.toolchainIdentity ||
      provenance.targetIdentity != record.targetIdentity ||
      provenance.dependencyIdentity != record.dependencyIdentity ||
      provenance.specializationIdentity != record.specializationIdentity ||
      provenance.policyIdentity != record.policyIdentity)
    "provenance_generation_consistency"
    (txt "provenance identities differ from the committed compilation") key

/-- 2. At most one authoritative commit per compilation, with 3 and 4 for each. -/
def auditAuthoritative : List AuditFinding :=
  s.authoritative.toList.flatMap fun (key, commitId) =>
    match s.commits[commitId]? with
    | none => objectIf true "authoritative_commit_exists" (txt "authoritative commit record is missing") key
    | some commit =>
      objectIf (s.authoritativeFor key != 1) "single_authoritative_commit"
        (txt "compilation has " ++ decimal (s.authoritativeFor key) ++ txt " non-superseded commits") key ++
      match s.compilations[key]? with
      | none => objectIf true "commit_references_compilation"
          (txt "authoritative commit has no compilation record") key
      | some record => s.auditCommit key record commit ++ s.auditAuthority key record commit

/-- 5. A lease of a fenced worker or an old epoch is revoked. -/
def auditLeases : List AuditFinding :=
  s.leases.toList.flatMap fun (_, lease) =>
    objectIf (lease.epoch != s.header.epoch && !lease.revoked) "no_stale_lease"
      (txt "lease from a previous epoch is not revoked") lease.compilation ++
    objectIf ((s.workers[lease.worker]?).any (·.fenced) && !lease.revoked) "no_lease_for_fenced_worker"
      (txt "fenced worker holds a live lease") lease.compilation

/-- The objections to a child of a committed root. -/
def auditChild (job : JobRecord) (root : CompilationId) (mandatory : Bool) (child : UInt32) :
    List AuditFinding :=
  match job.units[child.toNat]? with
  | none => objectIf true "fan_in_child_in_range" (txt "link unit references an out-of-range child") root
  | some unit =>
    match s.compilations[unit]? with
    | none => objectIf true "fan_in_child_exists" (txt "mandatory child compilation is missing") root
    | some record => objectIf (record.state != .committed && mandatory) "fan_in_incomplete_blocks_commit"
        (txt "committed link unit has an uncommitted mandatory child") root

/-- 7. Fan-in completeness of the root of every job. -/
def auditFanIn : List AuditFinding :=
  s.jobs.toList.flatMap fun (key, job) =>
    match s.requests[key]? with
    | none => []
    | some request =>
      match s.compilations[job.units.getD job.rootIndex.toNat {}]? with
      | none => []
      | some root =>
        if root.state ≠ .committed then []
        else match request.findUnit job.rootIndex with
          | none => []
          | some unit => unit.childUnits.flatMap (s.auditChild job root.id unit.mandatory)

/-- 8. Divergent artifacts are flagged, and only where the policy asks. -/
def auditDivergence : List AuditFinding :=
  s.compilations.toList.flatMap fun (_, record) =>
    objectIf (record.reproducibilityViolation && record.reproducibility == .notRequired)
      "reproducibility_violation_requires_policy"
      (txt "reproducibility violation recorded under a policy that does not require it") record.id ++
    match record.divergentCandidates with
    | first :: _ :: _ => record.divergentCandidates.flatMap fun candidate =>
        objectIf (candidate.digest != first.digest && record.reproducibility == .required &&
            !record.reproducibilityViolation)
          "divergent_artifacts_flagged" (txt "divergent candidates without a recorded violation") record.id
    | _ => []

/-- 9. Attempts are kept under their identities, with generations. -/
def auditAttempts : List AuditFinding :=
  s.attempts.toList.flatMap fun (key, attempt) =>
    objectIf (attempt.id != key) "attempt_id_unique" (txt "attempt record key does not match its identity")
      attempt.compilation ++
    objectIf attempt.generation.isZero "attempt_generation_nonzero" (txt "attempt has a zero generation")
      attempt.compilation

/-- Compilations have generations, and their attempts are there. -/
def auditReferences : List AuditFinding :=
  s.compilations.toList.flatMap fun (key, record) =>
    objectIf record.generation.isZero "compilation_generation_nonzero"
      (txt "compilation has a zero generation") key ++
    (record.attempts.flatMap fun id => objectIf (s.attempts[id]?).isNone "attempt_reference_valid"
      (txt "compilation references a missing attempt") key) ++
    objectIf (record.attempts.countP (fun id => (s.attempts[id]?).isSome) != record.attempts.length)
      "attempt_reference_count" (txt "attempt reference count mismatch") key

/-- 10. A committed compilation has an authoritative commit. -/
def auditClosure : List AuditFinding :=
  s.compilations.toList.flatMap fun (key, record) =>
    objectIf (record.state == .committed && !s.authoritative.contains key)
      "committed_has_authoritative_commit" (txt "committed compilation has no authoritative commit") key

end State

/-- 6. A live cache entry matches its compilation and has its artifact. -/
def Impl.auditCache (i : Impl) : List AuditFinding :=
  i.state.cacheEntries.toList.flatMap fun (_, entry) =>
    if entry.invalidated then []
    else match i.state.compilations[entry.compilation]? with
      | none => []
      | some record =>
        let decision := evaluateCacheMetadata record entry
        objectIf (!decision.reusable) "cache_entry_matches_compilation"
          (txt "live cache entry does not match its compilation: " ++ decision.reason) entry.compilation ++
        objectIf (!i.hasBlob entry.artifact.digest) "cache_entry_blob_present"
          (txt "cache entry artifact is missing from the store") entry.compilation

/-- `Coordinator::audit`. -/
def Impl.audit (i : Impl) : AuditReport :=
  let s := i.state
  let findings := List.flatten [
    s.auditCompilations, s.auditAuthoritative, s.auditLeases, i.auditCache, s.auditFanIn,
    s.auditDivergence, s.auditAttempts, s.auditReferences, s.auditClosure]
  { compilations := s.compilations.size
    committed := s.authoritative.size
    attempts := s.attempts.size
    workers := s.workers.size
    leases := s.leases.size
    cacheEntries := s.cacheEntries.size
    provenances := s.provenances.size
    violations := s.violations.length
    findings
    clean := findings.isEmpty }

end DistributedCompilation
