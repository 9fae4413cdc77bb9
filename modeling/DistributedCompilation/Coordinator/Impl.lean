import DistributedCompilation.Codec.StateCodec
import DistributedCompilation.Lib.Program
import DistributedCompilation.Storage.Journal

/-!
# Distributed Compilation — coordinator implementation state

`coordinator_impl.hpp`, the persistent store as the coordinator sees it, and
the helpers `persist`, `maybe_snapshot`, `store_blob` and `load_blob`.

Whatever the environment decides is part of the state: `io` says for each
access to the disk in turn whether it succeeds (all do once the list is used
up) and `readings` holds the values the clock returns. A failed append leaves
the journal as it was. A mutex-protected section is one program run without
interruption.
-/

namespace DistributedCompilation

open Program (leave update)

-- ---------------------------------------------------------------------------
-- Persistent store
-- ---------------------------------------------------------------------------

/-- The state directory. An empty `snapshot` is an absent one; the journal holds
the records a reopen replays. `lost` counts the entities that should have been
appended and were not: the code keeps no such number, runs in which every append
succeeds are described by it. -/
structure Store where
  isOpen : Bool := false
  snapshot : Bytes := []
  journal : List (RecordType × Bytes) := []
  blobs : Table Digest256 Bytes := ∅
  lost : Nat := 0

def maxRecordBytes : Nat := 64 * 1024 * 1024

def maxSnapshotBytes : Nat := 512 * 1024 * 1024

def maxReplayRecords : Nat := 4 * 1024 * 1024

/-- `Coordinator::Impl`. -/
structure Impl where
  config : CoordinatorConfig := {}
  opened : Bool := false
  state : State := {}
  store : Store := {}
  blobCache : Table Digest256 Bytes := ∅
  blobCacheOrder : List Digest256 := []
  blobCacheBytes : Nat := 0
  retainedOrder : List Digest256 := []
  io : List Bool := []
  readings : List UnixMillis := []

/-- A section of the coordinator that holds the mutex. -/
abbrev M := Program Impl Fault

-- ---------------------------------------------------------------------------
-- Primitives
-- ---------------------------------------------------------------------------

def getState : M State := do
  let i ← Program.read
  pure i.state

def onState (f : State → State) : M Unit := update fun i => { i with state := f i.state }

def onStore (f : Store → Store) : M Unit := update fun i => { i with store := f i.store }

/-- `return Status::error(code, detail)`. -/
def refused {α : Type} (code : ErrorCode) (detail : Bytes) : M α := leave (.status ⟨code, detail⟩)

/-- `if (!result.ok()) return result.status()`. -/
def orLeave {α : Type} : Result α → M α
  | .ok a => pure a
  | .error status => leave (.status status)

/-- A computation that may throw or refuse. -/
def orThrow {α : Type} : Except Fault α → M α
  | .ok a => pure a
  | .error fault => leave fault

/-- `clock->now()`. -/
def now : M UnixMillis := do
  let i ← Program.read
  update fun i => { i with readings := i.readings.tail }
  pure (i.readings.headD 0)

/-- Whether the next access to the disk succeeds. -/
def ioSucceeds : M Bool := do
  let i ← Program.read
  update fun i => { i with io := i.io.tail }
  pure (i.io.headD true)

def ensureOpen : M Unit := do
  let i ← Program.read
  if i.opened then pure ()
  else refused .persistenceClosed (txt "coordinator is not open")

-- ---------------------------------------------------------------------------
-- Journal and snapshot
-- ---------------------------------------------------------------------------

/-- What is appended to the journal. -/
inductive Entity
  | header (epoch : CoordinatorEpoch) (restarts : Nat) (openedAt : UnixMillis)
  | worker (v : WorkerRecord)
  | compilation (v : CompilationRecord)
  | attempt (v : CompilationAttempt)
  | commit (v : ArtifactCommit)
  | provenance (v : Provenance)
  | validation (v : ValidationReport)
  | cacheEntry (v : CacheEntry)
  | job (v : JobRecord)
  | lease (v : CompileLease)
  | intermediate (v : IntermediateArtifact)
  | artifact (v : CompilationRequest)

namespace Entity

def type : Entity → RecordType
  | header .. => .header
  | worker _ => .worker
  | compilation _ => .compilation
  | attempt _ => .attempt
  | commit _ => .commit
  | provenance _ => .provenance
  | validation _ => .validation
  | cacheEntry _ => .cacheEntry
  | job _ => .job
  | lease _ => .lease
  | intermediate _ => .intermediate
  | artifact _ => .artifact

def record : Entity → Record
  | header epoch restarts openedAt =>
    [.domain (txt "dc.header-record.v1"), .gen epoch, .handle restarts, .i64 openedAt]
  | worker v => encodeWorker v
  | compilation v => encodeCompilation v
  | attempt v => encodeAttempt v
  | commit v => encodeCommit v
  | provenance v => encodeProvenance v
  | validation v => encodeValidationReport v
  | cacheEntry v => encodeCacheEntry v
  | job v => encodeJob v
  | lease v => encodeLease v
  | intermediate v => encodeIntermediate v
  | artifact v => encodeRequest v

end Entity

/-- `PersistentStore::append`. -/
def append (type : RecordType) (payload : Bytes) : M (Result Unit) := do
  let i ← Program.read
  if i.store.isOpen then
    if maxRecordBytes < payload.length then
      pure (failure .limitExceeded (txt "journal record exceeds bounded size"))
    else
      let written ← ioSucceeds
      if written then
        onStore fun store => { store with journal := store.journal ++ [(type, payload)] }
        pure (.ok ())
      else pure (failure .ioError (txt "journal payload write failed"))
  else pure (failure .persistenceClosed (txt "persistent store is not open"))

/-- `PersistentStore::write_snapshot`. Once the new snapshot is in place the
journal records it covers are skipped by every replay, truncated or not. -/
def writeSnapshot (payload : Bytes) : M (Result Unit) := do
  let i ← Program.read
  if i.store.isOpen then
    if maxSnapshotBytes < payload.length then
      pure (failure .limitExceeded (txt "snapshot exceeds bounded size"))
    else
      let written ← ioSucceeds
      if written then
        onStore fun store => { store with snapshot := payload, journal := [] }
        let truncated ← ioSucceeds
        if truncated then pure (.ok ())
        else
          onStore fun store => { store with isOpen := false }
          pure (failure .ioError (txt "cannot reopen journal"))
      else pure (failure .ioError (txt "cannot create temp file"))
  else pure (failure .persistenceClosed (txt "persistent store is not open"))

/-- `++state.header.records_since_snapshot`. -/
def State.counted (s : State) : State :=
  { s with header := { s.header with recordsSinceSnapshot := s.header.recordsSinceSnapshot + 1 } }

/-- `state.header.records_since_snapshot = 0`. -/
def State.uncounted (s : State) : State :=
  { s with header := { s.header with recordsSinceSnapshot := 0 } }

/-- An append that did not happen. -/
def countLost : M Unit := onStore fun store => { store with lost := store.lost + 1 }

/-- `persist` of an encoded entity: the encoder runs first, whether persistence
is enabled or not, and may throw. -/
def persist (entity : Entity) : M (Result Unit) := do
  match writes entity.record with
  | .error fault =>
    countLost
    leave fault
  | .ok () =>
    let i ← Program.read
    if i.config.enablePersistence then
      let status ← append entity.type entity.record.bytes
      match status with
      | .ok () => onState State.counted
      | .error _ => countLost
      pure status
    else pure (.ok ())

/-- `(void)persist(...)`. -/
def persistVoid (entity : Entity) : M Unit := do
  let _ ← persist entity

/-- `if (!persist_status.ok()) return persist_status`. -/
def persistOrLeave (entity : Entity) : M Unit := do
  let status ← persist entity
  orLeave status

/-- `encode_state`, which may throw, and `write_snapshot`. -/
def writeState : M (Result Unit) := do
  let s ← getState
  orThrow (writes (encodeState s))
  writeSnapshot (encodeState s).bytes

/-- Writes the state and restarts the count of records on success. -/
def takeSnapshot : M (Result Unit) := do
  let status ← writeState
  if status.isOk then onState State.uncounted
  pure status

def maybeSnapshot : M Unit := do
  let i ← Program.read
  if i.config.enablePersistence ∧ i.config.snapshotEveryRecords ≠ 0 ∧
      i.config.snapshotEveryRecords ≤ i.state.header.recordsSinceSnapshot then
    let _ ← takeSnapshot

/-- `persist_entity`. -/
def persistEntity (entity : Entity) : M (Result Unit) := do
  let status ← persist entity
  if status.isOk then maybeSnapshot
  pure status

-- ---------------------------------------------------------------------------
-- Blobs
-- ---------------------------------------------------------------------------

section Blobs

variable [HashFunction]

def blobCacheLimit : Nat := 64 * 1024 * 1024

/-- `while (blob_cache_bytes > blob_cache_limit && !blob_cache_order.empty())`. -/
def evictBlobs : List Digest256 → Table Digest256 Bytes → Nat →
    List Digest256 × Table Digest256 Bytes × Nat
  | [], cache, total => ([], cache, total)
  | victim :: order, cache, total =>
    if blobCacheLimit < total then
      match cache[victim]? with
      | none => evictBlobs order cache total
      | some bytes => evictBlobs order (cache.erase victim) (total - bytes.length)
    else (victim :: order, cache, total)

/-- Puts a blob that is not cached into the cache and evicts the oldest. -/
def cacheBlob (digest : Digest256) (bytes : Bytes) : M Unit :=
  if bytes.length ≤ blobCacheLimit then
    update fun i =>
      let (order, cache, total) := evictBlobs (i.blobCacheOrder ++ [digest])
        (i.blobCache.insert digest bytes) (i.blobCacheBytes + bytes.length)
      { i with blobCacheOrder := order, blobCache := cache, blobCacheBytes := total }
  else pure ()

/-- `store_blob`. The blob is not in the store when `put_blob` is called, so
nothing has to be verified again there. -/
def storeBlob (bytes : Bytes) : M (Result Unit) := do
  let i ← Program.read
  let digest := sha256 bytes
  if i.config.maxBlobBytes < bytes.length then
    pure (failure .limitExceeded (txt "blob exceeds the configured bound"))
  else
    let stored : Result Unit ←
      if i.config.enablePersistence ∧ ¬i.store.blobs.contains digest then do
        let written ← ioSucceeds
        if written then
          onStore fun store => { store with blobs := store.blobs.insert digest bytes }
          pure (.ok ())
        else pure (failure .ioError (txt "cannot create temp file"))
      else pure (.ok ())
    if stored.isOk ∧ ¬i.blobCache.contains digest then cacheBlob digest bytes
    pure stored

/-- `load_blob`; stored bytes are verified against their digest. -/
def loadBlob (digest : Digest256) : M (Result Bytes) := do
  let i ← Program.read
  match i.blobCache[digest]? with
  | some bytes => pure (.ok bytes)
  | none =>
    if i.config.enablePersistence then
      match i.store.blobs[digest]? with
      | none => pure (failure .notFound (txt "cannot stat file"))
      | some bytes =>
        if maxSnapshotBytes < bytes.length then
          pure (failure .limitExceeded (txt "file exceeds bounded read limit"))
        else if sha256 bytes ≠ digest then
          pure (failure .integrityFailure (txt "stored blob does not match its digest"))
        else if i.config.maxBlobBytes < bytes.length then
          pure (failure .limitExceeded (txt "stored blob exceeds the configured bound"))
        else
          cacheBlob digest bytes
          pure (.ok bytes)
    else pure (failure .artifactMissing (txt "artifact is not present in memory"))

/-- `has_blob`. -/
def Impl.hasBlob (i : Impl) (digest : Digest256) : Bool :=
  i.blobCache.contains digest || (i.config.enablePersistence && i.store.blobs.contains digest)

end Blobs

end DistributedCompilation
