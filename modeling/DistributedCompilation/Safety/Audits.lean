import DistributedCompilation.Coordinator.Audit

/-!
# Distributed Compilation — what a clean audit vouches for

A clean audit vouches for the children of a link unit that is the root of its job
and itself mandatory. Whether the fan-in of a clean state is complete depends on
the link units it overlooks (`clean_fan_in_iff`).
-/

namespace DistributedCompilation

/-- A link unit of a job whose request is retained, at some index, and committed. -/
structure State.CommittedLink (s : State) (key : Digest256) (job : JobRecord) (request : CompilationRequest)
    (index : UInt32) (unit : CompilationUnitSpec) : Prop where
  kept : s.jobs[key]? = some job
  retained : s.requests[key]? = some request
  found : request.findUnit index = some unit
  link : unit.kind = .link
  committed : ∃ (id : CompilationId) (record : CompilationRecord), job.units[index.toNat]? = some id ∧
    s.compilations[id]? = some record ∧ record.state = .committed

/-- The child has a compilation, which is committed. -/
def State.ChildCommitted (s : State) (job : JobRecord) (child : UInt32) : Prop :=
  ∃ (id : CompilationId) (record : CompilationRecord), job.units[child.toNat]? = some id ∧
    s.compilations[id]? = some record ∧ record.state = .committed

/-- Its compilation is committed and has an authoritative commit. -/
def State.ChildAuthoritative (s : State) (job : JobRecord) (child : UInt32) : Prop :=
  ∃ (id : CompilationId) (record : CompilationRecord) (commitId : ArtifactCommitId) (commit : ArtifactCommit),
    job.units[child.toNat]? = some id ∧ s.compilations[id]? = some record ∧ record.state = .committed ∧
    s.authoritative[id]? = some commitId ∧ s.commits[commitId]? = some commit

/-- A child of the unit that is mandatory in the request. -/
def CompilationRequest.MandatoryChild (request : CompilationRequest) (unit : CompilationUnitSpec)
    (child : UInt32) : Prop :=
  child ∈ unit.childUnits ∧ ∃ spec, request.findUnit child = some spec ∧ spec.mandatory = true

/-- Every mandatory child of every committed link unit is authoritative. -/
def State.FanInComplete (s : State) : Prop :=
  ∀ key job request index unit, s.CommittedLink key job request index unit →
    ∀ child, request.MandatoryChild unit child → s.ChildAuthoritative job child

/-- A link unit the audit does not look at: not the root of its job, or not itself
mandatory. -/
def JobRecord.Overlooks (job : JobRecord) (index : UInt32) (unit : CompilationUnitSpec) : Prop :=
  index ≠ job.rootIndex ∨ unit.mandatory = false

theorem objectIf_eq_nil {objection : Bool} {invariant : String} {detail : Bytes} {id : CompilationId} :
    objectIf objection invariant detail id = [] ↔ objection = false := by
  unfold objectIf
  cases objection with
  | true => exact ⟨fun h => (nomatch h), fun h => (nomatch h)⟩
  | false => exact ⟨fun _ => rfl, fun _ => rfl⟩

theorem Impl.clean_parts {i : Impl} (clean : i.audit.clean = true) :
    i.state.auditAuthoritative = [] ∧ i.state.auditFanIn = [] ∧ i.state.auditClosure = [] := by
  have hall := List.isEmpty_iff.mp clean
  rw [List.flatten_eq_nil_iff] at hall
  exact ⟨hall _ (by simp), hall _ (by simp), hall _ (by simp)⟩

/-- What is committed has an authoritative commit, by the tenth and the second group
of checks. -/
theorem State.authoritative_of_clean {s : State} (authoritative : s.auditAuthoritative = [])
    (closure : s.auditClosure = []) {id : CompilationId} {record : CompilationRecord}
    (found : s.compilations[id]? = some record) (committed : record.state = .committed) :
    ∃ (commitId : ArtifactCommitId) (commit : ArtifactCommit), s.authoritative[id]? = some commitId ∧
      s.commits[commitId]? = some commit := by
  have hclosed := List.flatMap_eq_nil_iff.mp closure (id, record)
    (Std.ExtTreeMap.mem_toList_iff_getElem?_eq_some.mpr found)
  rw [objectIf_eq_nil, committed] at hclosed
  have hhas : s.authoritative.contains id = true := by simpa using hclosed
  obtain ⟨commitId, hcommitId⟩ := Table.contains_iff.mp hhas
  have hchecked := List.flatMap_eq_nil_iff.mp authoritative (id, commitId)
    (Std.ExtTreeMap.mem_toList_iff_getElem?_eq_some.mpr hcommitId)
  cases hcommit : s.commits[commitId]? with
  | some commit => exact ⟨commitId, commit, hcommitId, hcommit⟩
  | none =>
    dsimp only at hchecked
    rw [hcommit] at hchecked
    exact absurd (objectIf_eq_nil.mp hchecked) (by decide)

/-- The seventh group of checks covers the children of a mandatory root. -/
theorem State.child_of_clean {s : State} (fanIn : s.auditFanIn = []) {key : Digest256} {job : JobRecord}
    {request : CompilationRequest} {unit : CompilationUnitSpec}
    (link : s.CommittedLink key job request job.rootIndex unit) (mandatory : unit.mandatory = true)
    {child : UInt32} (member : child ∈ unit.childUnits) : s.ChildCommitted job child := by
  obtain ⟨id, root, hid, hroot, hcommitted⟩ := link.committed
  have hgetD : job.units.getD job.rootIndex.toNat {} = id := by
    rw [List.getD_eq_getElem?_getD, hid]
    rfl
  have hchecked := List.flatMap_eq_nil_iff.mp fanIn (key, job)
    (Std.ExtTreeMap.mem_toList_iff_getElem?_eq_some.mpr link.kept)
  dsimp only at hchecked
  rw [link.retained] at hchecked
  dsimp only at hchecked
  rw [hgetD, hroot] at hchecked
  dsimp only at hchecked
  rw [if_neg (not_not.mpr hcommitted), link.found] at hchecked
  have hchild := List.flatMap_eq_nil_iff.mp hchecked child member
  unfold State.auditChild at hchild
  split at hchild
  · exact absurd (objectIf_eq_nil.mp hchild) (by decide)
  next childId hchildId =>
  split at hchild
  · exact absurd (objectIf_eq_nil.mp hchild) (by decide)
  next record hrecord =>
  rw [objectIf_eq_nil, mandatory, Bool.and_true, bne_eq_false_iff_eq] at hchild
  exact ⟨childId, record, hchildId, hrecord, hchild⟩

/-- **A clean audit vouches for the fan-in** exactly as far as the link units that it
overlooks have their mandatory children committed. -/
theorem clean_fan_in_iff {i : Impl} (clean : i.audit.clean = true) :
    i.state.FanInComplete ↔
      ∀ key job request index unit, i.state.CommittedLink key job request index unit →
        job.Overlooks index unit → ∀ child, request.MandatoryChild unit child →
          i.state.ChildCommitted job child := by
  obtain ⟨hauthoritative, hfanIn, hclosure⟩ := Impl.clean_parts clean
  constructor
  · intro h key job request index unit hlink _ child hchild
    obtain ⟨id, record, -, -, hid, hrecord, hcommitted, -, -⟩ := h key job request index unit hlink child hchild
    exact ⟨id, record, hid, hrecord, hcommitted⟩
  · intro h key job request index unit hlink child hchild
    have hcommitted : i.state.ChildCommitted job child := by
      by_cases hoverlooked : job.Overlooks index unit
      · exact h key job request index unit hlink hoverlooked child hchild
      · unfold JobRecord.Overlooks at hoverlooked
        rw [not_or, not_not, Bool.not_eq_false] at hoverlooked
        obtain ⟨rfl, hmandatory⟩ := hoverlooked
        exact State.child_of_clean hfanIn hlink hmandatory hchild.1
    obtain ⟨id, record, hid, hrecord, hstate⟩ := hcommitted
    obtain ⟨commitId, commit, hcommitId, hcommit⟩ :=
      State.authoritative_of_clean hauthoritative hclosure hrecord hstate
    exact ⟨id, record, commitId, commit, hid, hrecord, hstate, hcommitId, hcommit⟩

-- ---------------------------------------------------------------------------
-- A job of two units
-- ---------------------------------------------------------------------------

/-- A job of a link unit at this index and its child at the other, both as given. -/
def linkedState (index : UInt32) (link child : CompilationState) : State :=
  let unitOf (i : UInt32) : CompilationUnitSpec :=
    if i = index then { index := i, kind := .link, childUnits := [1 - index] } else { index := i }
  let recordOf (i : UInt32) : CompilationRecord :=
    { id := ⟨i.toNat + 1⟩, generation := ⟨1⟩, unitIdentity := sha256 [1]
      state := if i = index then link else child }
  let commitOf (i : UInt32) : ArtifactCommit :=
    { id := ⟨i.toNat + 1⟩, compilation := ⟨i.toNat + 1⟩, artifactDigest := sha256 [1] }
  let committed := [0, 1].filter fun i => (recordOf i).state == .committed
  { jobs := (∅ : Table Digest256 JobRecord).insert default { units := [⟨1⟩, ⟨2⟩] }
    requests := (∅ : Table Digest256 CompilationRequest).insert default { units := [unitOf 0, unitOf 1] }
    compilations := [0, 1].foldl (fun t i => t.insert ⟨i.toNat + 1⟩ (recordOf i)) ∅
    commits := committed.foldl (fun t i => t.insert ⟨i.toNat + 1⟩ (commitOf i)) ∅
    authoritative := committed.foldl (fun t i => t.insert ⟨i.toNat + 1⟩ ⟨i.toNat + 1⟩) ∅
    provenances := (∅ : Table ProvenanceId Provenance).insert {} default
    validations := (∅ : Table ValidationId ValidationReport).insert {} { aggregate := .pass } }

theorem linkedState_checks :
    (Impl.audit { state := linkedState 0 .committed .committed }).clean = true ∧
      (Impl.audit { state := linkedState 1 .committed .pending }).clean = true := by decide +kernel

theorem clean_fan_in_iff_root : (linkedState 0 .committed .committed).FanInComplete ↔
    ∀ key job request index unit,
      (linkedState 0 .committed .committed).CommittedLink key job request index unit →
        job.Overlooks index unit → ∀ child, request.MandatoryChild unit child →
          (linkedState 0 .committed .committed).ChildCommitted job child :=
  clean_fan_in_iff (i := { state := linkedState 0 .committed .committed }) linkedState_checks.1

/-- A committed link unit behind its child, which is pending: the audit is clean. -/
theorem not_clean_fan_in : ¬∀ i : Impl, i.audit.clean = true → i.state.FanInComplete := by
  intro h
  have hcomplete := h { state := linkedState 1 .committed .pending } linkedState_checks.2
  have hlink : (linkedState 1 .committed .pending).CommittedLink default { units := [⟨1⟩, ⟨2⟩] }
      { units := [{ index := 0 }, { index := 1, kind := .link, childUnits := [0] }] } 1
      { index := 1, kind := .link, childUnits := [0] } :=
    ⟨by decide +kernel, by decide +kernel, by decide +kernel, rfl, ⟨2⟩,
      { id := ⟨2⟩, generation := ⟨1⟩, unitIdentity := sha256 [1], state := .committed }, rfl,
      by decide +kernel, rfl⟩
  obtain ⟨id, record, -, -, hid, hrecord, hcommitted, -⟩ := hcomplete _ _ _ _ _ hlink 0
    ⟨List.mem_cons_self .., { index := 0 }, by decide +kernel, rfl⟩
  obtain rfl : (⟨1⟩ : CompilationId) = id := Option.some.inj hid
  have hpending : ((linkedState 1 .committed .pending).compilations[(⟨1⟩ : CompilationId)]?).map (·.state) =
      some .pending := by decide +kernel
  rw [hrecord] at hpending
  rw [Option.map_some, hcommitted] at hpending
  cases hpending

end DistributedCompilation
