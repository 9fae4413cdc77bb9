import DistributedCompilation.Codec.RecordCodec
import DistributedCompilation.Codec.RequestRoundTrip

/-!
# Distributed Compilation — round trips of stored records

For every record kind, `Acceptable` is what the decoder demands beyond the
shape the encoder writes, and `parse_decode…` says that reading back a written
record gives the record exactly when it is acceptable. Neither half depends on
what follows the record, so the statements compose to the whole snapshot.
-/

namespace DistributedCompilation

open Reader Decoder

/-- A written list of handles. -/
theorem parse_readIds {tag : IdTag} {β : Type} (ids : List (Id tag)) (f : List (Id tag) → Reader β)
    (rest : Bytes) (h : (writeList ids fun i => [.id i]).eachFits = true) :
    (readItems readId >>= f).parse ((writeList ids fun i => [.id i]).bytes ++ rest) =
      if ∀ i ∈ ids, i.isZero = false then (f ids).parse rest else none := by
  simp only [writeList, Record.eachFits_cons, Record.eachFits_flatMap, Record.eachFits_nil,
    Bool.and_true, Bool.and_eq_true, List.all_eq_true] at h
  refine parse_readItems (fun i => i.isZero = false) ids f h.1 fun i hi rest => ?_
  rw [Record.bytes_singleton, parse_readId_self i (h.2 i hi)]

-- ---------------------------------------------------------------------------
-- Workers
-- ---------------------------------------------------------------------------

def rereadWorker [HashFunction] (v : WorkerRecord) : Option WorkerRecord :=
  if v.id.isZero = false ∧ v.boot.isZero = false then do
    let capabilities ← rereadCapabilities v.capabilities
    if ∀ i ∈ v.activeLeases, i.isZero = false then some { v with capabilities } else none
  else none

theorem parse_decodeWorker [HashFunction] (v : WorkerRecord) (rest : Bytes)
    (h : (encodeWorker v).eachFits = true) :
    decodeWorker.parse ((encodeWorker v).bytes ++ rest) = (rereadWorker v).map (·, rest) := by
  simp only [encodeWorker, Record.join_cons, Record.join_nil, Record.eachFits_append,
    Record.eachFits_cons, Bool.and_eq_true] at h
  obtain ⟨hhead, hcaps, -, hleases, -⟩ := h
  simp only [encodeWorker, decodeWorker, Record.join_cons, Record.join_nil, Record.bytes_append,
    Record.bytes_cons, Record.bytes_nil, List.append_assoc, List.nil_append, parse_readId,
    parse_readGen, parse_readOptionalId, parse_readStr, parse_readEnum, parse_readBool,
    parse_readU32, parse_readU64, parse_readI64, parse_readIds _ _ _ hleases,
    parse_bind_of_map (parse_decodeCapabilities _ _ hcaps), hhead, parse_pure, rereadWorker,
    ite_and, map_ite, map_bind, Option.map_some, Option.map_none, Option.bind_eq_bind]

-- ---------------------------------------------------------------------------
-- Leases
-- ---------------------------------------------------------------------------

/-- What `decode_lease` demands of a stored lease. -/
abbrev CompileLease.Acceptable (v : CompileLease) : Prop :=
  v.id.isZero = false ∧ v.compilation.isZero = false ∧ v.unit.isZero = false ∧
    v.attempt.isZero = false ∧ v.worker.isZero = false ∧ v.workerBoot.isZero = false

theorem parse_decodeLease (v : CompileLease) (rest : Bytes)
    (h : (encodeLease v).eachFits = true) :
    decodeLease.parse ((encodeLease v).bytes ++ rest) =
      if v.Acceptable then some (v, rest) else none := by
  simp only [encodeLease, Record.eachFits_cons, Bool.and_eq_true] at h
  simp only [encodeLease, decodeLease, Record.bytes_cons, Record.bytes_nil, List.append_assoc,
    List.nil_append, parse_readId, parse_readGen, parse_readI64, parse_readBool, parse_readStr, h,
    parse_pure, CompileLease.Acceptable, ite_and]

-- ---------------------------------------------------------------------------
-- Validation reports
-- ---------------------------------------------------------------------------

/-- What `decode_validation_report` demands of a stored report. -/
abbrev ValidationReport.Acceptable (v : ValidationReport) : Prop := v.checks.length ≤ 4096

theorem parse_decodeValidationReport (v : ValidationReport) (rest : Bytes)
    (h : (encodeValidationReport v).eachFits = true) :
    decodeValidationReport.parse ((encodeValidationReport v).bytes ++ rest) =
      if v.Acceptable then some (v, rest) else none := by
  simp only [encodeValidationReport, writeList, Record.join_cons, Record.join_nil,
    Record.eachFits_append, Record.eachFits_cons, Record.eachFits_flatMap, Record.eachFits_nil,
    Bool.and_eq_true, List.all_eq_true] at h
  obtain ⟨⟨hid, -⟩, ⟨hcount, hchecks⟩, ⟨-, hsummary, -⟩, -⟩ := h
  have checks : ∀ x ∈ v.checks, ∀ rest, decodeValidationCheck.parse
      (Record.bytes [.str x.check, .enum x.outcome, .str x.detail] ++ rest) =
        if True then some (x, rest) else none := by
    intro x hx rest
    have hx := hchecks x hx
    simp only [decodeValidationCheck, Record.bytes_cons, Record.bytes_nil, List.append_assoc,
      List.nil_append, parse_readStr, parse_readEnum, hx, parse_pure, if_true]
  simp only [encodeValidationReport, decodeValidationReport, writeList, Record.join_cons,
    Record.join_nil, Record.bytes_append, Record.bytes_cons, Record.bytes_nil, List.append_assoc,
    List.nil_append, parse_readOptionalId, hid, parse_readList, hcount, parse_ite,
    parse_items v.checks _ checks, parse_readEnum, parse_readStr, hsummary, parse_pure,
    ValidationReport.Acceptable]
  by_cases hle : 4096 < v.checks.length
  · rw [if_pos hle, if_neg (by omega), parse_refused]
  · rw [if_neg hle, if_pos fun _ _ => trivial, if_pos (by omega)]

-- ---------------------------------------------------------------------------
-- Attempts
-- ---------------------------------------------------------------------------

/-- What `decode_attempt` demands of a stored attempt. -/
abbrev CompilationAttempt.Acceptable (v : CompilationAttempt) : Prop :=
  v.id.isZero = false ∧ v.compilation.isZero = false ∧ v.unit.isZero = false ∧
    v.worker.isZero = false ∧ v.workerBoot.isZero = false ∧ v.lease.isZero = false ∧
    v.validation.Acceptable

theorem parse_decodeAttempt (v : CompilationAttempt) (rest : Bytes)
    (h : (encodeAttempt v).eachFits = true) :
    decodeAttempt.parse ((encodeAttempt v).bytes ++ rest) =
      if v.Acceptable then some (v, rest) else none := by
  simp only [encodeAttempt, Record.join_cons, Record.join_nil, Record.eachFits_append,
    Record.eachFits_cons, Bool.and_eq_true] at h
  obtain ⟨hhead, hreport, -, htail, -⟩ := h
  simp only [encodeAttempt, decodeAttempt, Record.join_cons, Record.join_nil, Record.bytes_append,
    Record.bytes_cons, Record.bytes_nil, List.append_assoc, List.nil_append, parse_readId,
    parse_readGen, parse_readEnum, parse_readU32, parse_readU64, parse_readBool, parse_readI64,
    parse_readCode, parse_readStr, parse_readDigest, parse_readOptionalId,
    parse_bind_of_guard (parse_decodeValidationReport v.validation _ hreport),
    parse_contentRef_bind, hhead, htail, parse_pure, CompilationAttempt.Acceptable, ite_and]

-- ---------------------------------------------------------------------------
-- Provenance and commits
-- ---------------------------------------------------------------------------

/-- What `decode_provenance` demands of a stored provenance. -/
abbrev Provenance.Acceptable (v : Provenance) : Prop :=
  v.id.isZero = false ∧ v.compilation.isZero = false ∧ v.unit.isZero = false ∧
    v.attempt.isZero = false ∧ v.worker.isZero = false ∧ v.workerBoot.isZero = false ∧
    v.lease.isZero = false ∧ v.requestId.isZero = false ∧ v.validation.isZero = false

theorem parse_decodeProvenance (v : Provenance) (rest : Bytes)
    (h : (encodeProvenance v).eachFits = true) :
    decodeProvenance.parse ((encodeProvenance v).bytes ++ rest) =
      if v.Acceptable then some (v, rest) else none := by
  simp only [encodeProvenance, Record.join_cons, Record.join_nil, Record.eachFits_append,
    Record.eachFits_cons, Bool.and_eq_true] at h
  simp only [encodeProvenance, decodeProvenance, Record.join_cons, Record.join_nil,
    Record.bytes_append, Record.bytes_cons, Record.bytes_nil, List.append_assoc, List.nil_append,
    parse_readId, parse_readGen, parse_readEnum, parse_readU64, parse_readI64, parse_readStr,
    parse_readDigest, parse_contentRef_bind, h, parse_pure, Provenance.Acceptable, ite_and]

/-- What `decode_commit` demands of a stored commit. -/
abbrev ArtifactCommit.Acceptable (v : ArtifactCommit) : Prop :=
  v.id.isZero = false ∧ v.compilation.isZero = false ∧ v.unit.isZero = false ∧
    v.artifact.isZero = false ∧ v.provenance.isZero = false ∧ v.validation.isZero = false ∧
    v.worker.isZero = false ∧ v.workerBoot.isZero = false ∧ v.attempt.isZero = false

theorem parse_decodeCommit (v : ArtifactCommit) (rest : Bytes)
    (h : (encodeCommit v).eachFits = true) :
    decodeCommit.parse ((encodeCommit v).bytes ++ rest) =
      if v.Acceptable then some (v, rest) else none := by
  simp only [encodeCommit, Record.eachFits_cons, Bool.and_eq_true] at h
  simp only [encodeCommit, decodeCommit, Record.bytes_cons, Record.bytes_nil, List.append_assoc,
    List.nil_append, parse_readId, parse_readGen, parse_readI64, parse_readBool, parse_readDigest, h,
    parse_pure, ArtifactCommit.Acceptable, ite_and]

-- ---------------------------------------------------------------------------
-- Caches and intermediates
-- ---------------------------------------------------------------------------

/-- What `decode_cache_entry` demands of a stored entry. -/
abbrev CacheEntry.Acceptable (v : CacheEntry) : Prop :=
  v.id.isZero = false ∧ v.compilation.isZero = false ∧ v.artifactId.isZero = false ∧
    v.provenance.isZero = false ∧ v.validation.isZero = false ∧ v.commit.isZero = false

theorem parse_decodeCacheEntry (v : CacheEntry) (rest : Bytes)
    (h : (encodeCacheEntry v).eachFits = true) :
    decodeCacheEntry.parse ((encodeCacheEntry v).bytes ++ rest) =
      if v.Acceptable then some (v, rest) else none := by
  simp only [encodeCacheEntry, Record.join_cons, Record.join_nil, Record.eachFits_append,
    Record.eachFits_cons, Bool.and_eq_true] at h
  simp only [encodeCacheEntry, decodeCacheEntry, Record.join_cons, Record.join_nil,
    Record.bytes_append, Record.bytes_cons, Record.bytes_nil, List.append_assoc, List.nil_append,
    parse_readId, parse_readGen, parse_readBool, parse_readU32, parse_readI64, parse_readStr,
    parse_readDigest, parse_contentRef_bind, h, parse_pure, CacheEntry.Acceptable, ite_and]

/-- What `decode_negative_cache` demands of a stored entry. -/
abbrev NegativeCacheEntry.Acceptable (v : NegativeCacheEntry) : Prop := v.id.isZero = false

theorem parse_decodeNegativeCache (v : NegativeCacheEntry) (rest : Bytes)
    (h : (encodeNegativeCache v).eachFits = true) :
    decodeNegativeCache.parse ((encodeNegativeCache v).bytes ++ rest) =
      if v.Acceptable then some (v, rest) else none := by
  simp only [encodeNegativeCache, Record.eachFits_cons, Bool.and_eq_true] at h
  simp only [encodeNegativeCache, decodeNegativeCache, Record.bytes_cons, Record.bytes_nil,
    List.append_assoc, List.nil_append, parse_readId, parse_readGen, parse_readEnum, parse_readI64,
    parse_readStr, parse_readDigest, parse_readCode, h, parse_pure, NegativeCacheEntry.Acceptable]

/-- What `decode_intermediate` demands of a stored intermediate. -/
abbrev IntermediateArtifact.Acceptable (v : IntermediateArtifact) : Prop :=
  v.id.isZero = false ∧ v.compilation.isZero = false

theorem parse_decodeIntermediate (v : IntermediateArtifact) (rest : Bytes)
    (h : (encodeIntermediate v).eachFits = true) :
    decodeIntermediate.parse ((encodeIntermediate v).bytes ++ rest) =
      if v.Acceptable then some (v, rest) else none := by
  simp only [encodeIntermediate, Record.join_cons, Record.join_nil, Record.eachFits_append,
    Record.eachFits_cons, Bool.and_eq_true] at h
  simp only [encodeIntermediate, decodeIntermediate, Record.join_cons, Record.join_nil,
    Record.bytes_append, Record.bytes_cons, Record.bytes_nil, List.append_assoc, List.nil_append,
    parse_readId, parse_readGen, parse_readEnum, parse_readBool, parse_readDigest,
    parse_contentRef_bind, h, parse_pure, IntermediateArtifact.Acceptable, ite_and]

-- ---------------------------------------------------------------------------
-- Compilations
-- ---------------------------------------------------------------------------

theorem parse_optionalCommit_bind {β : Type} (v : Option ArtifactCommit)
    (f : Option ArtifactCommit → Reader β) (rest : Bytes)
    (h : (encodeOptionalCommit v).eachFits = true) :
    (decodeOptionalCommit >>= f).parse ((encodeOptionalCommit v).bytes ++ rest) =
      if ∀ k ∈ v, k.Acceptable then (f v).parse rest else none := by
  cases v with
  | none =>
    rw [if_pos (by simp)]
    refine parse_bind_of_parse ?_
    simp [decodeOptionalCommit, encodeOptionalCommit]
  | some commit =>
    simp only [Option.mem_def, Option.some.injEq, forall_eq']
    refine parse_bind_of_guard ?_
    have hcommit : (encodeCommit commit).eachFits = true := by
      simp only [encodeOptionalCommit, Record.eachFits_cons, Bool.and_eq_true] at h
      exact h.2
    rw [encodeOptionalCommit, Record.bytes_cons, List.append_assoc, decodeOptionalCommit,
      parse_readBool, if_pos rfl, parse_bind_of_guard (parse_decodeCommit commit rest hcommit),
      parse_pure]

/-- What `decode_compilation` demands of a stored compilation record. -/
abbrev CompilationRecord.Acceptable (v : CompilationRecord) : Prop :=
  v.id.isZero = false ∧ v.unit.isZero = false ∧ v.requestId.isZero = false ∧
    (∀ a ∈ v.attempts, a.isZero = false) ∧ (∀ k ∈ v.commit, k.Acceptable)

theorem parse_decodeCompilation (v : CompilationRecord) (rest : Bytes)
    (h : (encodeCompilation v).eachFits = true) :
    decodeCompilation.parse ((encodeCompilation v).bytes ++ rest) =
      if v.Acceptable then some (v, rest) else none := by
  simp only [encodeCompilation, Record.join_cons, Record.join_nil, Record.eachFits_append,
    Record.eachFits_cons, Bool.and_eq_true] at h
  obtain ⟨hhead, hattempts, hmid, hcommit, hdivergent, htail, -⟩ := h
  simp only [encodeCompilation, decodeCompilation, Record.join_cons, Record.join_nil,
    Record.bytes_append, Record.bytes_cons, Record.bytes_nil, List.append_assoc, List.nil_append,
    parse_readId, parse_readGen, parse_readEnum, parse_readU32, parse_readBool, parse_readI64,
    parse_readCode, parse_readStr, parse_readDigest, parse_readOptionalId,
    parse_readIds _ _ _ hattempts, parse_optionalCommit_bind _ _ _ hcommit,
    parse_plainItems _ _ _ hdivergent fun x _ => parse_decodeContentRef x, hhead, hmid, htail, parse_pure,
    CompilationRecord.Acceptable, ite_and]

-- ---------------------------------------------------------------------------
-- Jobs
-- ---------------------------------------------------------------------------

/-- What `decode_job` demands of a stored job. -/
abbrev JobRecord.Acceptable (v : JobRecord) : Prop :=
  v.requestId.isZero = false ∧ (∀ c ∈ v.units, c.isZero = false)

theorem parse_decodeJob (v : JobRecord) (rest : Bytes) (h : (encodeJob v).eachFits = true) :
    decodeJob.parse ((encodeJob v).bytes ++ rest) =
      if v.Acceptable then some (v, rest) else none := by
  simp only [encodeJob, Record.join_cons, Record.join_nil, Record.eachFits_append,
    Record.eachFits_cons, Bool.and_eq_true] at h
  obtain ⟨hhead, hunits, -, hmandatory, htail, -⟩ := h
  simp only [encodeJob, decodeJob, Record.join_cons, Record.join_nil, Record.bytes_append,
    Record.bytes_cons, Record.bytes_nil, List.append_assoc, List.nil_append, parse_readId,
    parse_readGen, parse_readU32, parse_readBool, parse_readI64, parse_readCode, parse_readStr,
    parse_readDigest, parse_readOptionalId, parse_readIds _ _ _ hunits,
    parse_readU32s _ _ _ hmandatory, hhead, htail, parse_pure, JobRecord.Acceptable, ite_and]

end DistributedCompilation
