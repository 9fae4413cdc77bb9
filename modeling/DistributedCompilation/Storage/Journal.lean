import DistributedCompilation.Base.Crc
import DistributedCompilation.Base.Digest
import DistributedCompilation.Lib.LittleEndian

/-!
# Distributed Compilation — snapshot and journal files

`persistence.cpp` byte by byte: records and snapshots as they are framed on
disk, `PersistentStore::open` with its replay and damage scan, `append` and
`write_snapshot`. What a failing write leaves in a file and where a crash
happens are arguments.
-/

namespace DistributedCompilation

-- ---------------------------------------------------------------------------
-- Records
-- ---------------------------------------------------------------------------

/-- `enum class RecordType : std::uint16_t`. -/
inductive RecordType
  | schemaInfo | header | registryEntry | worker | compilation | attempt | commit | provenance
  | validation | cacheEntry | negativeCache | job | lease | intermediate | artifact
deriving DecidableEq

namespace RecordType

def all : List RecordType :=
  [schemaInfo, header, registryEntry, worker, compilation, attempt, commit, provenance,
   validation, cacheEntry, negativeCache, job, lease, intermediate, artifact]

def code : RecordType → Nat
  | schemaInfo => 1
  | header => 2
  | registryEntry => 3
  | worker => 4
  | compilation => 5
  | attempt => 6
  | commit => 7
  | provenance => 8
  | validation => 9
  | cacheEntry => 10
  | negativeCache => 11
  | job => 12
  | lease => 13
  | intermediate => 14
  | artifact => 15

/-- `raw_type == 0 || raw_type > RecordType::Artifact` is out of domain. -/
def ofCode (raw : Nat) : Option RecordType := all.find? (·.code == raw)

theorem ofCode_code (type : RecordType) : ofCode type.code = some type := by
  cases type <;> rfl

theorem code_lt (type : RecordType) : type.code < 256 ^ 2 := by
  cases type <;> decide

end RecordType

/-- `JournalRecord`. -/
structure JournalRecord where
  type : RecordType := .schemaInfo
  seq : Nat := 0
  payload : Bytes := []
deriving DecidableEq

def kRecordMagic : Nat := 0x4443304A

def kSnapshotMagic : Nat := 0x44433053

def kRecordHeaderBytes : Nat := 24

def kSnapshotHeaderBytes : Nat := 56

def kMaxJournalBytes : Nat := 256 * 1024 * 1024

/-- `PersistentStore::Options`. -/
structure Options where
  fsyncRecords : Bool := true
  maxRecordBytes : UInt64 := 64 * 1024 * 1024
  maxSnapshotBytes : UInt64 := 512 * 1024 * 1024
  maxReplayRecords : UInt64 := 4 * 1024 * 1024

namespace JournalRecord

/-- The header `append_raw` writes. -/
def header (record : JournalRecord) : Bytes :=
  LittleEndian.encode 4 kRecordMagic ++ LittleEndian.encode 2 schemaVersion.toNat ++
    LittleEndian.encode 2 record.type.code ++ LittleEndian.encode 8 record.seq ++
    LittleEndian.encode 4 record.payload.length ++
    LittleEndian.encode 4 (crc32 record.payload 0).toNat

def bytes (record : JournalRecord) : Bytes := record.header ++ record.payload

end JournalRecord

-- ---------------------------------------------------------------------------
-- Replay
-- ---------------------------------------------------------------------------

/-- The little-endian number in `width` bytes from `offset` on. -/
def getAt (bytes : Bytes) (offset width : Nat) : Nat :=
  LittleEndian.decode ((bytes.drop offset).take width)

/-- The checks of one round of the replay loop: the record at the front, or what
is damaged about it. -/
def readRecord (options : Options) (bytes : Bytes) : Except String JournalRecord :=
  if bytes.length < kRecordHeaderBytes then .error "journal header truncated"
  else if getAt bytes 0 4 ≠ kRecordMagic then .error "journal record magic mismatch"
  else if getAt bytes 4 2 ≠ schemaVersion.toNat then .error "journal schema mismatch"
  else match RecordType.ofCode (getAt bytes 6 2) with
    | none => .error "journal record type out of domain"
    | some type =>
      let payloadLength := getAt bytes 16 4
      let payload := (bytes.drop kRecordHeaderBytes).take payloadLength
      if options.maxRecordBytes.toNat < payloadLength then .error "journal record exceeds bounded size"
      else if bytes.length < kRecordHeaderBytes + payloadLength then
        .error "journal record payload truncated"
      else if (crc32 payload 0).toNat ≠ getAt bytes 20 4 then
        .error "journal record checksum mismatch"
      else .ok { type, seq := getAt bytes 8 8, payload }

/-- What the replay loop reads: the records up to the end or to the damage, what
is damaged and the bytes from there on. -/
structure Replayed where
  records : List JournalRecord := []
  damage : Option String := none
  rest : Bytes := []

/-- The replay loop; a record takes at least its header, so the length of the
journal bounds the rounds. -/
def readRecords (options : Options) : Nat → Bytes → Replayed
  | 0, bytes => { rest := bytes }
  | rounds + 1, bytes =>
    if bytes.isEmpty then {}
    else match readRecord options bytes with
      | .error detail => { damage := some detail, rest := bytes }
      | .ok record =>
        let replayed := readRecords options rounds
          (bytes.drop (kRecordHeaderBytes + record.payload.length))
        { replayed with records := record :: replayed.records }

/-- The replay of a whole journal. -/
def readJournal (options : Options) (bytes : Bytes) : Replayed :=
  readRecords options bytes.length bytes

/-- `if (record_seq > seq_)`: the records that are applied, and the sequence
number after them. -/
def applyRecords : Nat → List JournalRecord → List JournalRecord × Nat
  | seq, [] => ([], seq)
  | seq, record :: records =>
    if seq < record.seq then
      let (applied, last) := applyRecords record.seq records
      (record :: applied, last)
    else applyRecords seq records

/-- Whether a structurally valid record starts here. -/
def structurallyValid (options : Options) (bytes : Bytes) : Bool :=
  decide (kRecordHeaderBytes ≤ bytes.length) && getAt bytes 0 4 == kRecordMagic &&
    decide (getAt bytes 16 4 ≤ options.maxRecordBytes.toNat) &&
    decide (kRecordHeaderBytes + getAt bytes 16 4 ≤ bytes.length) &&
    (crc32 ((bytes.drop kRecordHeaderBytes).take (getAt bytes 16 4)) 0).toNat == getAt bytes 20 4

/-- `valid_record_after`: the scan past the damage. -/
def validRecordAfter (options : Options) (rest : Bytes) : Bool :=
  rest.tail.tails.any (structurallyValid options)

-- ---------------------------------------------------------------------------
-- Snapshots
-- ---------------------------------------------------------------------------

section Store

variable [HashFunction]

/-- The file `write_snapshot` writes. -/
def snapshotBytes (seq : Nat) (payload : Bytes) : Bytes :=
  LittleEndian.encode 4 kSnapshotMagic ++ LittleEndian.encode 2 schemaVersion.toNat ++
    LittleEndian.encode 2 0 ++ LittleEndian.encode 8 seq ++
    LittleEndian.encode 8 payload.length ++ (sha256 payload).bytes ++ payload

/-- The snapshot block of `open`: sequence number and payload. -/
def readSnapshot (options : Options) (raw : Bytes) : Result (Nat × Bytes) :=
  if options.maxSnapshotBytes.toNat < raw.length then
    failure .limitExceeded (txt "file exceeds bounded read limit")
  else if raw.length < kSnapshotHeaderBytes then
    failure .persistenceCorrupt (txt "snapshot header is truncated")
  else if getAt raw 0 4 ≠ kSnapshotMagic then
    failure .persistenceCorrupt (txt "snapshot magic mismatch")
  else if getAt raw 4 2 ≠ schemaVersion.toNat then
    failure .schemaMismatch (txt "snapshot schema does not match runtime schema")
  else
    let payload := raw.drop kSnapshotHeaderBytes
    if options.maxSnapshotBytes.toNat < getAt raw 16 8 ∨ getAt raw 16 8 ≠ payload.length then
      failure .persistenceCorrupt (txt "snapshot length field is inconsistent")
    else if (sha256 payload).bytes ≠ (raw.drop 24).take 32 then
      failure .integrityFailure (txt "snapshot digest mismatch")
    else .ok (getAt raw 8 8, payload)

-- ---------------------------------------------------------------------------
-- The store
-- ---------------------------------------------------------------------------

/-- The files of the state directory. -/
structure Disk where
  snapshot : Option Bytes := none
  /-- `snapshot.dcsnap.tmp` -/
  temp : Option Bytes := none
  /-- an absent journal is an empty one -/
  journal : Bytes := []

/-- `PersistentStore`, with the directory it works on. -/
structure PersistentStore where
  options : Options := {}
  isOpen : Bool := false
  seq : Nat := 0
  disk : Disk := {}

/-- What a successful `open` returns, and the store it leaves. -/
structure Opened where
  records : List JournalRecord
  snapshot : Option Bytes
  store : PersistentStore

/-- The sequence number and the payload the snapshot file holds. -/
def Disk.readSnapshot (options : Options) (disk : Disk) : Result (Option (Nat × Bytes)) :=
  match disk.snapshot with
  | none => .ok none
  | some raw => some <$> DistributedCompilation.readSnapshot options raw

/-- What an open that succeeds returns; the journal is cut off at the damage. -/
def PersistentStore.opened (options : Options) (disk : Disk) (snapshot : Option (Nat × Bytes)) :
    Opened :=
  let replayed := readJournal options disk.journal
  let applied := applyRecords ((snapshot.map (·.1)).getD 0) replayed.records
  { records := applied.1
    snapshot := snapshot.map (·.2)
    store :=
      { options
        isOpen := true
        seq := applied.2
        disk := { disk with
          journal := disk.journal.take (disk.journal.length - replayed.rest.length) } } }

/-- `PersistentStore::open` where every access to the disk succeeds. -/
def PersistentStore.openOn (options : Options) (disk : Disk) : Result Opened := do
  let snapshot ← disk.readSnapshot options
  let replayed := readJournal options disk.journal
  if kMaxJournalBytes < disk.journal.length then
    failure .limitExceeded (txt "journal exceeds bounded replay limit")
  else if options.maxReplayRecords.toNat <
      (applyRecords ((snapshot.map (·.1)).getD 0) replayed.records).1.length then
    failure .limitExceeded (txt "journal replay record budget exceeded")
  else match replayed.damage with
    | none => pure (opened options disk snapshot)
    | some detail =>
      if validRecordAfter options replayed.rest then
        failure .persistenceCorrupt
          (txt ("journal is corrupt: " ++ detail ++ " with valid records after the damage"))
      else pure (opened options disk snapshot)

/-- How an append fails, with what the failed write leaves of its bytes. -/
inductive WriteFault
  | header (left : Nat)
  | payload (left : Nat)
  | sync
deriving DecidableEq

/-- `append_raw`. An empty payload is not written, so that write cannot fail. -/
def PersistentStore.appendRaw (store : PersistentStore) (record : JournalRecord)
    (fault : Option WriteFault) : Result Unit × PersistentStore :=
  let written (bytes : Bytes) : PersistentStore :=
    { store with disk := { store.disk with journal := store.disk.journal ++ bytes } }
  if ¬store.isOpen then
    (failure .persistenceClosed (txt "persistent store is not open"), store)
  else if store.options.maxRecordBytes.toNat < record.payload.length then
    (failure .limitExceeded (txt "journal record exceeds bounded size"), store)
  else match fault with
    | some (.header left) =>
      (failure .ioError (txt "journal header write failed"), written (record.header.take left))
    | some (.payload left) =>
      if record.payload.isEmpty then (.ok (), written record.bytes)
      else (failure .ioError (txt "journal payload write failed"),
        written (record.header ++ record.payload.take left))
    | some .sync => (failure .ioError (txt "fsync failed"), written record.bytes)
    | none => (.ok (), written record.bytes)

/-- `append`. -/
def PersistentStore.append (store : PersistentStore) (type : RecordType) (payload : Bytes)
    (fault : Option WriteFault) : Result Unit × PersistentStore :=
  let record : JournalRecord := { type, seq := store.seq + 1, payload }
  match store.appendRaw record fault with
  | (.ok (), store) => (.ok (), { store with seq := record.seq })
  | (.error status, store) => (.error status, store)

/-- `write_snapshot` where every access to the disk succeeds. -/
def PersistentStore.writeSnapshot (store : PersistentStore) (payload : Bytes) :
    Result Unit × PersistentStore :=
  if ¬store.isOpen then
    (failure .persistenceClosed (txt "persistent store is not open"), store)
  else if store.options.maxSnapshotBytes.toNat < payload.length then
    (failure .limitExceeded (txt "snapshot exceeds bounded size"), store)
  else
    (.ok (), { store with
      disk := { snapshot := some (snapshotBytes store.seq payload), temp := none, journal := [] } })

/-- Where a crash happens inside `write_snapshot`. -/
inductive CrashPoint
  /-- before the rename, with `left` bytes of the temporary file on disk -/
  | temp (left : Nat)
  /-- between rename and truncation -/
  | renamed
  | truncated

/-- The disk a crash inside `write_snapshot` leaves. -/
def PersistentStore.interrupt (store : PersistentStore) (payload : Bytes) : CrashPoint → Disk
  | .temp left =>
    { store.disk with temp := some ((snapshotBytes store.seq payload).take left) }
  | .renamed =>
    { store.disk with snapshot := some (snapshotBytes store.seq payload), temp := none }
  | .truncated =>
    { snapshot := some (snapshotBytes store.seq payload), temp := none, journal := [] }

end Store

end DistributedCompilation
