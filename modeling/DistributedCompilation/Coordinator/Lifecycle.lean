import DistributedCompilation.Coordinator.Bookkeeping

/-!
# Distributed Compilation — opening and closing

`Coordinator::open` with its journal replay and restart, `close` and
`snapshot`.
-/

namespace DistributedCompilation

open Program (forEach update)

variable [HashFunction]

-- ---------------------------------------------------------------------------
-- Replay
-- ---------------------------------------------------------------------------

/-- `Status::error(ErrorCode::PersistenceCorrupt, what)` for a payload that
does not decode. -/
def orCorrupt {α : Type} (what : String) : Option α → Result α
  | some a => .ok a
  | none => failure .persistenceCorrupt (txt what)

/-- The index after a replayed entry: the newest of equal generations wins. -/
def State.replayEntry (s : State) (entry : CacheEntry) : State :=
  let cacheEntries := s.cacheEntries.insert entry.id entry
  let replaces := match s.cacheIndex[entry.unitIdentity]? with
    | none => true
    | some existing =>
      decide ((cacheEntries.getD existing {}).generation.value ≤ entry.generation.value)
  { s with
    cacheEntries
    cacheIndex := if replaces then s.cacheIndex.insert entry.unitIdentity entry.id
      else s.cacheIndex }

/-- A replayed commit becomes the authority of its compilation. -/
def State.replayCommit (s : State) (commit : ArtifactCommit) : State :=
  { s with
    commits := s.commits.insert commit.id commit
    authoritative := s.authoritative.insert commit.compilation commit.id }

/-- One journal record; the last write of an entity wins. -/
def replayRecord (s : State) (record : RecordType × Bytes) : Result State :=
  match record.1 with
  | .worker => do
    let worker ← orCorrupt "journal worker" (decodeFront decodeWorker record.2)
    pure { s with workers := s.workers.insert worker.id worker }
  | .compilation => do
    let compilation ← orCorrupt "journal compilation" (decodeFront decodeCompilation record.2)
    pure { s with compilations := s.compilations.insert compilation.id compilation }
  | .attempt => do
    let attempt ← orCorrupt "journal attempt" (decodeFront decodeAttempt record.2)
    pure { s with attempts := s.attempts.insert attempt.id attempt }
  | .commit => do
    let commit ← orCorrupt "journal commit" (decodeFront decodeCommit record.2)
    pure (s.replayCommit commit)
  | .provenance => do
    let provenance ← orCorrupt "journal provenance" (decodeFront decodeProvenance record.2)
    pure { s with provenances := s.provenances.insert provenance.id provenance }
  | .validation => do
    let report ← orCorrupt "journal validation" (decodeFront decodeValidationReport record.2)
    pure { s with validations := s.validations.insert report.id report }
  | .cacheEntry => do
    let entry ← orCorrupt "journal cache" (decodeFront decodeCacheEntry record.2)
    pure (s.replayEntry entry)
  | .negativeCache => do
    let entry ← orCorrupt "journal negative cache" (decodeFront decodeNegativeCache record.2)
    pure { s with negativeCache := s.negativeCache ++ [entry] }
  | .job => do
    let job ← orCorrupt "journal job" (decodeWhole decodeJob record.2)
    pure { s with jobs := s.jobs.insert job.requestIdentity job }
  | .lease => do
    let lease ← orCorrupt "journal lease" (decodeFront decodeLease record.2)
    pure { s with leases := s.leases.insert lease.id lease }
  | .intermediate => do
    let artifact ← orCorrupt "journal intermediate" (decodeFront decodeIntermediate record.2)
    pure { s with intermediates := s.intermediates.insert artifact.id artifact }
  | .artifact => do
    let request ← orCorrupt "journal request" (decodeWhole decodeRequest record.2)
    pure { s with requests := s.requests.insert request.requestIdentity request }
  | .header | .registryEntry | .schemaInfo => pure s

/-- The journal in sequence order. -/
def replay (s : State) (journal : List (RecordType × Bytes)) : Result State :=
  journal.foldlM replayRecord s

def decodeSnapshot (snapshot : Bytes) : Result State :=
  if snapshot.isEmpty then .ok {}
  else match decodeState snapshot with
    | .ok s => .ok s
    | .error status => failure .persistenceCorrupt
        (txt "snapshot could not be decoded: " ++ status.detail)

/-- The state the store describes. -/
def Store.recover (store : Store) : Result State := do
  let s ← decodeSnapshot store.snapshot
  replay s store.journal

-- ---------------------------------------------------------------------------
-- Restart
-- ---------------------------------------------------------------------------

/-- The epoch advances; sessions, controls and violations do not survive. -/
def State.restart (s : State) (openedAt : UnixMillis) : State :=
  { s with
    header := { s.header with
      epoch := if s.header.epoch.isZero then ⟨1⟩ else s.header.epoch.next
      openedAt
      restarts := s.header.restarts + 1 }
    sessions := ∅
    controls := []
    violations := [] }

/-- Every worker that ever registered is fenced; what it advertised before the
restart is no proof of what is on its disk now. -/
def fenceAtRestart (id : WorkerId) : M Unit := do
  let s ← getState
  match s.workers[id]? with
  | none => pure ()
  | some worker =>
    if worker.boot.isZero then pure ()
    else
      onWorker id WorkerRecord.unseated
      markCapabilitiesUnknown id

def State.revokeAllLeases (s : State) : State :=
  { s with leases := s.leases.map fun _ lease =>
      lease.revoke (txt "coordinator restart advanced the epoch") }

/-- In-flight work is classified conservatively. -/
def interruptAttempt (id : CompilationAttemptId) : M Unit := do
  let s ← getState
  match s.attempts[id]? with
  | none => pure ()
  | some attempt =>
    if holdsCommitAuthority attempt.state then
      let finishedAt ← now
      onAttempt id fun attempt =>
        { attempt with
          state := .ambiguous
          finishedAt
          failure := .ambiguous
          failureDetail := txt "coordinator restarted while the attempt was in flight" }
    else pure ()

/-- States a restart leaves alone. -/
def CompilationState.survivesRestart : CompilationState → Bool
  | .committed | .cancelled | .failed | .retired => true
  | _ => false

/-- An unfinished compilation is committed if it has an authority, else queued
again. -/
def State.requeue (s : State) : State :=
  { s with compilations := s.compilations.map fun id record =>
      if record.state.survivesRestart then record
      else if s.authoritative.contains id then { record with state := .committed }
      else { record with state := .pending, cacheHit := false } }

/-- What `open` does to the recovered state. -/
def restartState : M Unit := do
  let openedAt ← now
  onState (·.restart openedAt)
  let s ← getState
  forEach s.workers.keys fenceAtRestart
  onState State.revokeAllLeases
  let s ← getState
  forEach s.attempts.keys interruptAttempt
  onState State.requeue

-- ---------------------------------------------------------------------------
-- Open and close
-- ---------------------------------------------------------------------------

def journalBytes (journal : List (RecordType × Bytes)) : Nat :=
  (journal.map fun record => kRecordHeaderBytes + record.2.length).sum

/-- `PersistentStore::open`. -/
def openStore : M Unit := do
  let readable ← ioSucceeds
  let i ← Program.read
  if ¬readable then refused .ioError (txt "cannot open journal for append")
  else if kMaxJournalBytes < journalBytes i.store.journal then
    refused .limitExceeded (txt "journal exceeds bounded replay limit")
  else if maxReplayRecords < i.store.journal.length then
    refused .limitExceeded (txt "journal replay record budget exceeded")
  else onStore fun store => { store with isOpen := true }

/-- `Coordinator::open`. -/
def openCoordinator (config : CoordinatorConfig) : M Unit := do
  let i ← Program.read
  if i.opened then pure ()
  else
    update fun i => { i with config }
    let recovered : State ←
      if config.enablePersistence then do
        openStore
        let i ← Program.read
        orLeave i.store.recover
      else pure {}
    update fun i => { i with state := recovered, opened := true }
    restartState
    if config.enablePersistence then
      let s ← getState
      orReturn (persist (.header s.header.epoch s.header.restarts s.header.openedAt))
      orReturn takeSnapshot

/-- `Coordinator::close`. -/
def closeCoordinator : M Unit := do
  let i ← Program.read
  if i.opened then
    if i.config.enablePersistence then
      ignoring writeState
      onStore fun store => { store with isOpen := false }
    update fun i => { i with opened := false }

/-- `Coordinator::snapshot`. -/
def snapshotCoordinator : M Unit := do
  ensureOpen
  let i ← Program.read
  if i.config.enablePersistence then orReturn takeSnapshot
  else refused .unsupported (txt "persistence is disabled")

end DistributedCompilation
