import DistributedCompilation.Codec.RecordCodec
import DistributedCompilation.Coordinator.State

/-!
# Distributed Compilation — state codec

`state_codec.cpp`: the snapshot of the coordinator. `encodeState` writes the
header and then every table in key order; `decodeState` reads the tables back,
keys each record by its own id and rebuilds the cache index, which the
snapshot does not carry.
-/

namespace DistributedCompilation

open Reader

def kMaxStateRecords : Nat := 4 * 1024 * 1024

/-- `w.u64(items.size())` and the items. -/
def writeTable {α : Type} (items : List α) (write : α → Record) : Record :=
  .handle items.length :: items.flatMap write

-- ---------------------------------------------------------------------------
-- Encoders
-- ---------------------------------------------------------------------------

section Registry

variable {idTag : IdTag} {genTag : GenTag}

def encodeContent (slot : Slot genTag) (content : Digest256) : Record :=
  match slot.byContent[content]? with
  | none => []
  | some generation => [.digest content, .gen generation]

def encodeSlot (entry : Id idTag × Slot genTag) : Record := .join [
  [.handle entry.1.value, .gen entry.2.current, .handle entry.2.byContent.size],
  entry.2.order.flatMap (encodeContent entry.2)]

def encodeRegistry (registry : GenerationRegistry idTag genTag) : Record := .join [
  [.handle registry.slots.size,
   .handle (registry.slots.toList.map fun entry => entry.2.byContent.size).sum],
  registry.slots.toList.flatMap encodeSlot]

end Registry

def encodeHeader (header : StateHeader) : Record :=
  [.domain (txt "dc.state.v1"), .u16 schemaVersion, .gen header.epoch, .u64 header.seq,
   .handle header.nextCompilationId, .handle header.nextUnitId, .handle header.nextAttemptId,
   .handle header.nextLeaseId, .handle header.nextArtifactId, .handle header.nextCommitId,
   .handle header.nextProvenanceId, .handle header.nextValidationId,
   .handle header.nextCacheEntryId, .handle header.nextWorkerId, .handle header.nextBootId,
   .handle header.nextSessionId, .handle header.nextIntermediateId, .gen header.cacheGeneration,
   .i64 header.openedAt, .handle header.recordsSinceSnapshot, .handle header.restarts]

def encodeViolation (violation : AuthorityViolation) : Record :=
  [.i64 violation.at', .str violation.operation, .u16 violation.code.value,
   .id violation.session, .id violation.worker, .str violation.detail]

/-- `encode_state`, as the calls it makes on its writer. -/
def encodeState (state : State) : Record := .join [
  encodeHeader state.header,
  encodeRegistry state.sources, encodeRegistry state.irs, encodeRegistry state.dependencies,
  encodeRegistry state.toolchains, encodeRegistry state.targets,
  encodeRegistry state.specializations, encodeRegistry state.policies,
  writeTable state.workers.values encodeWorker,
  writeTable state.requests.values encodeRequest,
  writeTable state.jobs.values encodeJob,
  writeTable state.compilations.values encodeCompilation,
  writeTable state.attempts.values encodeAttempt,
  writeTable state.commits.values encodeCommit,
  writeTable state.authoritative.toList fun kv => [.id kv.1, .id kv.2],
  writeTable state.provenances.values encodeProvenance,
  writeTable state.validations.values encodeValidationReport,
  writeTable state.cacheEntries.values encodeCacheEntry,
  writeTable state.intermediates.values encodeIntermediate,
  writeTable state.leases.values encodeLease,
  writeTable state.negativeCache encodeNegativeCache,
  writeTable state.violations encodeViolation]

-- ---------------------------------------------------------------------------
-- Decoders
-- ---------------------------------------------------------------------------

section Registry

variable {idTag : IdTag} {genTag : GenTag}

def decodeContent : Reader (Digest256 × Gen genTag) := do
  let content ← readDigest
  let generation ← readGen
  pure (content, generation)

/-- One slot; the stored current generation is read and dropped. -/
def decodeSlot (name : String) : Reader (Id idTag × List (Digest256 × Gen genTag)) := do
  let rawId ← readU64
  if rawId = 0 then
    fail .malformed (txt "registry '" ++ txt name ++ txt "' entry has a zero id")
  else
    let _current : Gen genTag ← readGen
    let count ← readU64
    if kMaxStateRecords < count.toNat then
      fail .limitExceeded (txt "registry entry count exceeds bounded limit")
    else
      let contents ← Decoder.replicate decodeContent count.toNat
      pure (⟨rawId.toNat⟩, contents)

/-- `registry.restore` for every pair of every slot. -/
def restoreAll (slots : List (Id idTag × List (Digest256 × Gen genTag))) :
    GenerationRegistry idTag genTag :=
  slots.foldl (fun registry slot =>
    slot.2.foldl (fun registry pair => registry.restore slot.1 pair.1 pair.2) registry) {}

def decodeRegistry (name : String) : Reader (GenerationRegistry idTag genTag) := do
  let slots ← readU64
  let entries ← readU64
  if kMaxStateRecords < slots.toNat ∨ kMaxStateRecords < entries.toNat then
    fail .limitExceeded (txt "registry record count exceeds bounded limit")
  else
    let slots ← Decoder.replicate (decodeSlot name) slots.toNat
    pure (restoreAll slots)

end Registry

/-- A counter of the header. -/
def readCounter : Reader Nat := do
  let raw ← readU64
  pure raw.toNat

/-- `Status::error(PersistenceCorrupt, what)` in place of the reader's status. -/
def corrupt {α : Type} (what : String) (d : Reader α) : Reader α :=
  d.mapError fun _ => ⟨.persistenceCorrupt, txt what⟩

/-- `reject()` while decoding `stage`. -/
def staged {α : Type} (stage : String) (d : Reader α) : Reader α :=
  d.mapError fun s => ⟨.persistenceCorrupt,
    txt "state decode failed in " ++ txt stage ++ txt ": " ++ s.detail⟩

def decodeHeader : Reader StateHeader := do
  corrupt "state domain tag mismatch" (readDomain (txt "dc.state.v1"))
  let schema ← corrupt "canonical record truncated" readU16
  if schema = schemaVersion then
    let epoch ← corrupt "epoch" readGen
    let seq ← corrupt "seq" readU64
    let nextCompilationId ← corrupt "ids" readCounter
    let nextUnitId ← corrupt "ids" readCounter
    let nextAttemptId ← corrupt "ids" readCounter
    let nextLeaseId ← corrupt "ids" readCounter
    let nextArtifactId ← corrupt "ids" readCounter
    let nextCommitId ← corrupt "ids" readCounter
    let nextProvenanceId ← corrupt "ids" readCounter
    let nextValidationId ← corrupt "ids" readCounter
    let nextCacheEntryId ← corrupt "ids" readCounter
    let nextWorkerId ← corrupt "ids" readCounter
    let nextBootId ← corrupt "ids" readCounter
    let nextSessionId ← corrupt "ids" readCounter
    let nextIntermediateId ← corrupt "ids" readCounter
    let cacheGeneration ← corrupt "cache gen" readGen
    let openedAt ← corrupt "opened_at" readI64
    let recordsSinceSnapshot ← corrupt "records_since_snapshot" readCounter
    let restarts ← corrupt "restarts" readCounter
    pure {
      epoch, seq, nextCompilationId, nextUnitId, nextAttemptId, nextLeaseId, nextArtifactId,
      nextCommitId, nextProvenanceId, nextValidationId, nextCacheEntryId, nextWorkerId,
      nextBootId, nextSessionId, nextIntermediateId, cacheGeneration, openedAt,
      recordsSinceSnapshot, restarts }
  else fail .schemaMismatch (txt "state schema mismatch")

/-- A count of at most `kMaxStateRecords` and that many records. -/
def readTable {α : Type} (stage : String) (d : Reader α) : Reader (List α) :=
  staged stage do
    let count ← readCounter
    if kMaxStateRecords < count then fail .ok []
    else Decoder.replicate d count

def decodeAuthoritative : Reader (CompilationId × ArtifactCommitId) := do
  let compilation ← readId
  let commit ← readId
  pure (compilation, commit)

def decodeViolation : Reader AuthorityViolation := do
  let at' ← readI64
  let operation ← readStr
  let code ← readCode "violation"
  let session ← readId
  let worker ← readId
  let detail ← readStr
  pure { at', operation, code, session, worker, detail }

/-- `table[key(record)] = record` for every record. -/
def tableOf {κ α : Type} [Ord κ] [Std.TransOrd κ] [Std.LawfulEqOrd κ] (key : α → κ)
    (records : List α) : Table κ α :=
  records.foldl (fun table record => table.insert (key record) record) ∅

/-- The index of the snapshot: among entries of one unit identity a later one
replaces an earlier one only with a strictly greater generation. -/
def snapshotCache (entries : List CacheEntry) :
    Table CacheEntryId CacheEntry × Table Digest256 CacheEntryId :=
  entries.foldl (fun (table, index) entry =>
    let replaces := match index[entry.unitIdentity]? with
      | none => true
      | some existing => ((table.getD existing {}).generation.value < entry.generation.value : Bool)
    (table.insert entry.id entry,
      if replaces then index.insert entry.unitIdentity entry.id else index)) (∅, ∅)

variable [HashFunction]

def readState : Reader State := do
  let header ← decodeHeader
  let sources ← staged "sources" (decodeRegistry "sources")
  let irs ← staged "irs" (decodeRegistry "irs")
  let dependencies ← staged "dependencies" (decodeRegistry "dependencies")
  let toolchains ← staged "toolchains" (decodeRegistry "toolchains")
  let targets ← staged "targets" (decodeRegistry "targets")
  let specializations ← staged "specializations" (decodeRegistry "specializations")
  let policies ← staged "policies" (decodeRegistry "policies")
  let workers ← readTable "workers" decodeWorker
  let requests ← readTable "requests" decodeRequest
  let jobs ← readTable "jobs" decodeJob
  let compilations ← readTable "compilations" decodeCompilation
  let attempts ← readTable "attempts" decodeAttempt
  let commits ← readTable "commits" decodeCommit
  let authoritative ← readTable "authoritative" decodeAuthoritative
  let provenances ← readTable "provenances" decodeProvenance
  let validations ← readTable "validations" decodeValidationReport
  let cacheEntries ← readTable "cache" decodeCacheEntry
  let intermediates ← readTable "intermediates" decodeIntermediate
  let leases ← readTable "leases" decodeLease
  let negativeCache ← readTable "leases" decodeNegativeCache
  let violations ← readTable "leases" decodeViolation
  pure {
    header, sources, irs, dependencies, toolchains, targets, specializations, policies,
    workers := tableOf (·.id) workers
    requests := tableOf (·.requestIdentity) requests
    jobs := tableOf (·.requestIdentity) jobs
    compilations := tableOf (·.id) compilations
    attempts := tableOf (·.id) attempts
    commits := tableOf (·.id) commits
    authoritative := (tableOf (·.1) authoritative).map fun _ kv => kv.2
    provenances := tableOf (·.id) provenances
    validations := tableOf (·.id) validations
    cacheEntries := (snapshotCache cacheEntries).1
    cacheIndex := (snapshotCache cacheEntries).2
    intermediates := tableOf (·.id) intermediates
    leases := tableOf (·.id) leases
    negativeCache, violations }

/-- `decode_state`. -/
def decodeState (bytes : Bytes) : Result State :=
  match readState.run bytes with
  | .error e => .error e
  | .ok (state, rest) =>
    if rest.isEmpty then .ok state
    else failure .persistenceCorrupt (txt "state has trailing bytes")

/-- `decode_request_record` and `decode_job_record`: the whole payload is one record. -/
def decodeWhole {α : Type} (d : Reader α) (payload : Bytes) : Option α :=
  match d.run payload with
  | .ok (value, []) => some value
  | _ => none

/-- The other journal payloads: what follows the record is not looked at. -/
def decodeFront {α : Type} (d : Reader α) (payload : Bytes) : Option α :=
  (d.parse payload).map (·.1)

end DistributedCompilation
