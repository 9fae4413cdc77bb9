import DistributedCompilation.Storage.Recovery

/-!
# Distributed Compilation — snapshot and journal compose

A store is the last snapshot and the records appended after it. The sequence
number in the snapshot file decides which journal records that are, so the law
survives a crash between the rename of a snapshot and the truncation of the
journal. What can be written and what can be opened are bounded differently;
`WithinBounds` is what reopening needs.
-/

namespace DistributedCompilation

section

variable [HashFunction]

-- ---------------------------------------------------------------------------
-- What a store is for
-- ---------------------------------------------------------------------------

/-- The last snapshot and what was appended after it. -/
structure Contents where
  snapshot : Option Bytes := none
  since : List (RecordType × Bytes) := []

/-- A call on a store; a crash inside `write_snapshot` is followed by an open. -/
inductive StoreOp
  | append (type : RecordType) (payload : Bytes)
  | writeSnapshot (payload : Bytes)
  | reopen
  | crash (payload : Bytes) (point : CrashPoint)

/-- The contents after a snapshot that got up to `point`. -/
def Contents.interrupt (contents : Contents) (payload : Bytes) : CrashPoint → Contents
  | .temp _ => contents
  | .renamed | .truncated => { snapshot := some payload }

def Contents.after (contents : Contents) : StoreOp → Contents
  | .append type payload => { contents with since := contents.since ++ [(type, payload)] }
  | .writeSnapshot payload => { snapshot := some payload }
  | .reopen => contents
  | .crash payload point => contents.interrupt payload point

namespace PersistentStore

/-- The store after a call that succeeds. -/
def after (store : PersistentStore) : StoreOp → Option PersistentStore
  | .append type payload =>
    match store.append type payload none with
    | (.ok (), store) => some store
    | (.error _, _) => none
  | .writeSnapshot payload =>
    match store.writeSnapshot payload with
    | (.ok (), store) => some store
    | (.error _, _) => none
  | .reopen => (openOn store.options store.disk).toOption.map (·.store)
  | .crash payload point =>
    if payload.length ≤ store.options.maxSnapshotBytes.toNat then
      (openOn store.options (store.interrupt payload point)).toOption.map (·.store)
    else none

/-- A run of successful calls on a store opened over an empty directory. -/
inductive Runs (options : Options) : List StoreOp → PersistentStore → Contents → Prop
  | start : Runs options [] { options, isOpen := true } {}
  | call {ops : List StoreOp} {store next : PersistentStore} {contents : Contents} {op : StoreOp}
      (run : Runs options ops store contents) (succeeds : store.after op = some next) :
      Runs options (ops ++ [op]) next (contents.after op)

/-- What reopening has to return. -/
def Recovers (options : Options) (disk : Disk) (contents : Contents) : Prop :=
  ∃ opened, openOn options disk = .ok opened ∧ opened.snapshot = contents.snapshot ∧
    opened.records.map (fun record => (record.type, record.payload)) = contents.since

/-- The bounds of an open. -/
structure WithinBounds (options : Options) (disk : Disk) (contents : Contents) : Prop where
  snapshot : ∀ raw ∈ disk.snapshot, raw.length ≤ options.maxSnapshotBytes.toNat
  journal : disk.journal.length ≤ kMaxJournalBytes
  records : contents.since.length ≤ options.maxReplayRecords.toNat

end PersistentStore

-- ---------------------------------------------------------------------------
-- Snapshot files
-- ---------------------------------------------------------------------------

theorem length_snapshotBytes (seq : Nat) (payload : Bytes) :
    (snapshotBytes seq payload).length = kSnapshotHeaderBytes + payload.length := by
  simp only [snapshotBytes, List.length_append, LittleEndian.length_encode, (sha256 payload).size_eq,
    kSnapshotHeaderBytes]

/-- A snapshot file within the bound is read back. -/
theorem readSnapshot_snapshotBytes {options : Options} {seq : Nat} {payload : Bytes}
    (hseq : seq < 256 ^ 8)
    (hsize : (snapshotBytes seq payload).length ≤ options.maxSnapshotBytes.toNat) :
    readSnapshot options (snapshotBytes seq payload) = .ok (seq, payload) := by
  have hlength := length_snapshotBytes seq payload
  have hmax : options.maxSnapshotBytes.toNat < 256 ^ 8 := UInt64.toNat_lt _
  have hmagic : getAt (snapshotBytes seq payload) 0 4 = kSnapshotMagic := by
    simp only [snapshotBytes, List.append_assoc]
    exact getAt_encode _ (by decide)
  have hschema : getAt (snapshotBytes seq payload) 4 2 = schemaVersion.toNat := by
    simp only [snapshotBytes, List.append_assoc]
    rw [getAt_skip _ (by simp)]
    simpa using getAt_encode _ (by decide)
  have hnumber : getAt (snapshotBytes seq payload) 8 8 = seq := by
    simp only [snapshotBytes, List.append_assoc]
    rw [getAt_skip _ (by simp), getAt_skip _ (by simp), getAt_skip _ (by simp)]
    simpa using getAt_encode _ hseq
  have hcount : getAt (snapshotBytes seq payload) 16 8 = payload.length := by
    simp only [snapshotBytes, List.append_assoc]
    rw [getAt_skip _ (by simp), getAt_skip _ (by simp), getAt_skip _ (by simp),
      getAt_skip _ (by simp)]
    simpa using getAt_encode _ (by omega)
  have hdigest : ((snapshotBytes seq payload).drop 24).take 32 = (sha256 payload).bytes := by
    have hfront : (LittleEndian.encode 4 kSnapshotMagic ++ LittleEndian.encode 2 schemaVersion.toNat ++
      LittleEndian.encode 2 0 ++ LittleEndian.encode 8 seq ++
      LittleEndian.encode 8 payload.length).length = 24 := by simp
    rw [snapshotBytes, List.append_assoc, ← hfront, List.drop_left,
      List.take_append_of_le_length (by rw [(sha256 payload).size_eq]),
      List.take_of_length_le (by rw [(sha256 payload).size_eq])]
  have hpayload : (snapshotBytes seq payload).drop kSnapshotHeaderBytes = payload := by
    have hfront : (LittleEndian.encode 4 kSnapshotMagic ++ LittleEndian.encode 2 schemaVersion.toNat ++
      LittleEndian.encode 2 0 ++ LittleEndian.encode 8 seq ++
      LittleEndian.encode 8 payload.length ++ (sha256 payload).bytes).length = kSnapshotHeaderBytes := by
      simp [(sha256 payload).size_eq, kSnapshotHeaderBytes]
    rw [snapshotBytes, ← hfront, List.drop_left]
  rw [readSnapshot, if_neg (by omega), if_neg (by omega), if_neg (not_not.mpr hmagic),
    if_neg (not_not.mpr hschema)]
  simp only [hpayload, hcount, hdigest, hnumber]
  rw [if_neg (by omega), if_neg (not_not.mpr rfl)]

/-- A snapshot file that is read is within the bound. -/
theorem length_le_of_readSnapshot {options : Options} {raw : Bytes} {found : Nat × Bytes}
    (h : readSnapshot options raw = .ok found) : raw.length ≤ options.maxSnapshotBytes.toNat := by
  unfold readSnapshot at h
  split at h
  · cases h
  · omega

-- ---------------------------------------------------------------------------
-- What a store holds
-- ---------------------------------------------------------------------------

/-- The disk holds the contents: the snapshot carries the number up to which the
journal is covered, and the records above it are the ones appended since. -/
structure Disk.Holds (options : Options) (disk : Disk) (contents : Contents) (base last : Nat)
    (old new : List JournalRecord) : Prop where
  snapshot : disk.snapshot = contents.snapshot.map (snapshotBytes base)
  start : contents.snapshot = none → base = 0
  journal : disk.journal = journalOf (old ++ new)
  bounded : ∀ record ∈ old ++ new, record.payload.length ≤ options.maxRecordBytes.toNat ∧
    record.seq ≤ last
  base_le : base ≤ last
  covered : ∀ record ∈ old, record.seq ≤ base
  since : new.map (fun record => (record.type, record.payload)) = contents.since
  numbered : applyRecords base new = (new, last)

omit [HashFunction] in
theorem applyRecords_covered {base : Nat} {old : List JournalRecord}
    (h : ∀ record ∈ old, record.seq ≤ base) : applyRecords base old = ([], base) := by
  induction old with
  | nil => rfl
  | cons record old ih =>
    rw [applyRecords, if_neg (Nat.not_lt.mpr (h record List.mem_cons_self)),
      ih fun r hr => h r (List.mem_cons_of_mem _ hr)]

namespace Disk.Holds

variable {options : Options} {disk : Disk} {contents : Contents} {base last : Nat}
  {old new : List JournalRecord}

theorem applied (h : disk.Holds options contents base last old new) :
    applyRecords base (old ++ new) = (new, last) := by
  rw [applyRecords_append, applyRecords_covered h.covered]
  exact h.numbered

/-- A journal that is small enough is read as the records it holds. -/
theorem readJournal (h : disk.Holds options contents base last old new) (hlast : last < 256 ^ 8)
    (hsize : disk.journal.length ≤ kMaxJournalBytes) :
    DistributedCompilation.readJournal options disk.journal = { records := old ++ new } := by
  have hframed : ∀ record ∈ old ++ new, record.Framed options := by
    intro record hrecord
    obtain ⟨hlong, hseq⟩ := h.bounded record hrecord
    refine ⟨hlong, ?_, by omega⟩
    rw [h.journal] at hsize
    obtain ⟨front, back, hsplit⟩ := List.append_of_mem hrecord
    rw [hsplit] at hsize
    simp only [journalOf, List.flatMap_append, List.flatMap_cons, List.length_append,
      JournalRecord.length_bytes, kMaxJournalBytes, kRecordHeaderBytes] at hsize
    omega
  have := readJournal_journalOf hframed []
  rw [List.append_nil] at this
  rw [h.journal, this, readJournal_nil]
  simp

theorem readSnapshot (h : disk.Holds options contents base last old new) (hlast : last < 256 ^ 8)
    (hsize : ∀ raw ∈ disk.snapshot, raw.length ≤ options.maxSnapshotBytes.toNat) :
    disk.readSnapshot options = .ok (contents.snapshot.map (base, ·)) := by
  rw [Disk.readSnapshot, h.snapshot]
  cases hsnapshot : contents.snapshot with
  | none => rfl
  | some payload =>
    have hbase := h.base_le
    rw [Option.map_some, Option.map_some]
    simp only
    rw [readSnapshot_snapshotBytes (by omega) (hsize _ (by rw [h.snapshot, hsnapshot]; rfl))]
    rfl

theorem base_eq (h : disk.Holds options contents base last old new) :
    ((contents.snapshot.map (base, ·)).map (·.1)).getD 0 = base := by
  cases hsnapshot : contents.snapshot with
  | none => exact (h.start hsnapshot).symm
  | some payload => rfl

/-- An open that succeeds is within its bounds. -/
theorem withinBounds (h : disk.Holds options contents base last old new) (hlast : last < 256 ^ 8)
    {snapshot : Option (Nat × Bytes)} (hopens : PersistentStore.Opens options disk snapshot) :
    PersistentStore.WithinBounds options disk contents ∧
      snapshot = contents.snapshot.map (base, ·) := by
  have hsnapshot : ∀ raw ∈ disk.snapshot, raw.length ≤ options.maxSnapshotBytes.toNat := by
    intro raw hraw
    have hfound := hopens.found
    rw [Disk.readSnapshot, Option.mem_def.mp hraw] at hfound
    cases hread : DistributedCompilation.readSnapshot options raw with
    | error status => simp [hread] at hfound
    | ok found => exact length_le_of_readSnapshot hread
  have hfound := hopens.found
  rw [h.readSnapshot hlast hsnapshot] at hfound
  obtain rfl := Except.ok.inj hfound
  refine ⟨⟨hsnapshot, hopens.journal, ?_⟩, rfl⟩
  have hrecords := hopens.records
  rw [h.base_eq, h.readJournal hlast hopens.journal, h.applied] at hrecords
  rwa [← h.since, List.length_map]

/-- Reopening returns the contents exactly within the bounds of an open. -/
theorem reopens_iff (h : disk.Holds options contents base last old new) (hlast : last < 256 ^ 8) :
    PersistentStore.Recovers options disk contents ↔
      PersistentStore.WithinBounds options disk contents := by
  constructor
  · rintro ⟨opened, hopened, -, -⟩
    obtain ⟨snapshot, hopens, rfl⟩ := PersistentStore.openOn_eq_ok.mp hopened
    exact (h.withinBounds hlast hopens).1
  · intro hbounds
    have hread := h.readJournal hlast hbounds.journal
    refine ⟨_, PersistentStore.openOn_eq_ok.mpr
      ⟨_, ⟨h.readSnapshot hlast hbounds.snapshot, hbounds.journal, ?_, .inl (by rw [hread])⟩, rfl⟩, ?_, ?_⟩
    · rw [h.base_eq, hread, h.applied, ← List.length_map (f := fun record : JournalRecord =>
        (record.type, record.payload)), h.since]
      exact hbounds.records
    · simp [PersistentStore.opened, Function.comp_def]
    · rw [PersistentStore.opened]
      simp only [h.base_eq, hread, h.applied]
      exact h.since

/-- An open leaves the disk as it is and goes on from the last number. -/
theorem opened (h : disk.Holds options contents base last old new) (hlast : last < 256 ^ 8)
    {opened : Opened} (hopened : PersistentStore.openOn options disk = .ok opened) :
    opened.store = { options, isOpen := true, seq := last, disk } := by
  obtain ⟨snapshot, hopens, rfl⟩ := PersistentStore.openOn_eq_ok.mp hopened
  obtain ⟨hbounds, rfl⟩ := h.withinBounds hlast hopens
  have hread := h.readJournal hlast hbounds.journal
  simp only [PersistentStore.opened, h.base_eq, hread, h.applied]
  simp

/-- The disk a crash inside `write_snapshot` leaves holds the old contents or
the new snapshot alone. -/
theorem interrupt {store : PersistentStore}
    (h : store.disk.Holds options contents base store.seq old new) (payload : Bytes)
    (point : CrashPoint) : ∃ base' old' new',
      (store.interrupt payload point).Holds options (contents.interrupt payload point) base'
        store.seq old' new' := by
  cases point with
  | temp left => exact ⟨base, old, new, { h with }⟩
  | renamed =>
    -- the whole journal is covered by the number in the new snapshot
    refine ⟨store.seq, old ++ new, [], rfl, nofun, ?_, ?_, Nat.le_refl _, ?_, rfl, rfl⟩
    · rw [List.append_nil]
      exact h.journal
    · rw [List.append_nil]
      exact h.bounded
    · exact fun record hrecord => (h.bounded record hrecord).2
  | truncated => exact ⟨store.seq, [], [], rfl, nofun, rfl, by simp, Nat.le_refl _, by simp, rfl, rfl⟩

end Disk.Holds

namespace PersistentStore

omit [HashFunction] in
theorem store_of_toOption {result : Result Opened} {next : PersistentStore}
    (h : result.toOption.map (·.store) = some next) :
    ∃ opened, result = .ok opened ∧ opened.store = next := by
  cases result with
  | error status => cases h
  | ok opened => exact ⟨opened, rfl, Option.some.inj h⟩

/-- A store along a run: open, and its disk holds the contents. -/
theorem Runs.holds {options : Options} {ops : List StoreOp} {store : PersistentStore}
    {contents : Contents} (run : Runs options ops store contents) (hops : ops.length < 256 ^ 8) :
    store.options = options ∧ store.isOpen = true ∧ store.seq ≤ ops.length ∧
      ∃ base old new, store.disk.Holds options contents base store.seq old new := by
  induction run with
  | start => exact ⟨rfl, rfl, Nat.zero_le _, 0, [], [], rfl, fun _ => rfl, rfl, by simp, Nat.le_refl _,
      by simp, rfl, rfl⟩
  | @call ops store next contents op run succeeds ih =>
    rw [List.length_append, List.length_singleton] at hops ⊢
    obtain ⟨hoptions, hopen, hseq, base, old, new, h⟩ := ih (by omega)
    cases op with
    | append type payload =>
      obtain ⟨storeOptions, isOpen, seq, disk⟩ := store
      obtain rfl : isOpen = true := hopen
      obtain rfl : storeOptions = options := hoptions
      simp only [after, append, appendRaw, not_true_eq_false, if_false] at succeeds
      by_cases hbound : storeOptions.maxRecordBytes.toNat < payload.length
      · simp [hbound, failure] at succeeds
      · rw [if_neg hbound] at succeeds
        obtain rfl := Option.some.inj succeeds
        have hnext : applyRecords seq [{ type, seq := seq + 1, payload }] =
            ([{ type, seq := seq + 1, payload }], seq + 1) := by simp [applyRecords]
        refine ⟨rfl, rfl, Nat.succ_le_succ hseq, base, old, new ++ [{ type, seq := seq + 1, payload }],
          h.snapshot, h.start, ?_, ?_, Nat.le_succ_of_le h.base_le, h.covered, ?_, ?_⟩
        · show disk.journal ++ _ = _
          rw [h.journal]
          simp [journalOf]
        · intro record hrecord
          rw [← List.append_assoc] at hrecord
          rcases List.mem_append.mp hrecord with hrecord | hrecord
          · exact ⟨(h.bounded record hrecord).1, Nat.le_succ_of_le (h.bounded record hrecord).2⟩
          · obtain rfl := List.mem_singleton.mp hrecord
            exact ⟨Nat.not_lt.mp hbound, Nat.le_refl _⟩
        · rw [List.map_append, h.since]
          rfl
        · rw [applyRecords_append, h.numbered, hnext]
    | writeSnapshot payload =>
      simp only [after, writeSnapshot, hopen, not_true_eq_false, if_false] at succeeds
      by_cases hbound : store.options.maxSnapshotBytes.toNat < payload.length
      · simp [hbound, failure] at succeeds
      · rw [if_neg hbound] at succeeds
        obtain rfl := Option.some.inj succeeds
        exact ⟨hoptions, rfl, Nat.le_succ_of_le hseq, store.seq, [], [], rfl, (fun h => by cases h), rfl, by simp,
          Nat.le_refl _, by simp, rfl, rfl⟩
    | reopen =>
      obtain ⟨opened, hopened, rfl⟩ := store_of_toOption succeeds
      rw [hoptions] at hopened
      rw [h.opened (by omega) hopened]
      exact ⟨rfl, rfl, Nat.le_succ_of_le hseq, base, old, new, h⟩
    | crash payload point =>
      rw [after] at succeeds
      split at succeeds
      · obtain ⟨base', old', new', h'⟩ := h.interrupt payload point
        obtain ⟨opened, hopened, rfl⟩ := store_of_toOption succeeds
        rw [hoptions] at hopened
        rw [h'.opened (by omega) hopened]
        exact ⟨rfl, rfl, Nat.le_succ_of_le hseq, base', old', new', h'⟩
      · cases succeeds

/-- After a crash inside `write_snapshot` the store reopens with the snapshot
that is in place and the records appended after it, exactly within the bounds of
an open. -/
theorem Runs.recovers_iff {options : Options} {ops : List StoreOp} {store : PersistentStore}
    {contents : Contents} (run : Runs options ops store contents) (hops : ops.length < 256 ^ 8)
    (payload : Bytes) (point : CrashPoint) :
    Recovers options (store.interrupt payload point) (contents.interrupt payload point) ↔
      WithinBounds options (store.interrupt payload point) (contents.interrupt payload point) := by
  obtain ⟨-, -, hseq, base, old, new, h⟩ := run.holds hops
  obtain ⟨base', old', new', h'⟩ := h.interrupt payload point
  exact h'.reopens_iff (by omega)

end PersistentStore

-- ---------------------------------------------------------------------------
-- What can be written and reopened
-- ---------------------------------------------------------------------------

/-- A call of `append` or `write_snapshot`. -/
def StoreOp.isWrite : StoreOp → Bool
  | .append _ _ | .writeSnapshot _ => true
  | .reopen | .crash _ _ => false

/-- The size of the journal that holds the records. -/
def journalSize (since : List (RecordType × Bytes)) : Nat :=
  (since.map fun call => kRecordHeaderBytes + call.2.length).sum

/-- What was written since the last snapshot, and the snapshot itself, are within
the bounds of an open. -/
structure Contents.Reopenable (options : Options) (contents : Contents) : Prop where
  snapshot : ∀ payload ∈ contents.snapshot,
    kSnapshotHeaderBytes + payload.length ≤ options.maxSnapshotBytes.toNat
  journal : journalSize contents.since ≤ kMaxJournalBytes
  records : contents.since.length ≤ options.maxReplayRecords.toNat

namespace PersistentStore

/-- Between snapshots the journal grows by the records appended. -/
theorem Runs.length_journal {options : Options} {ops : List StoreOp} {store : PersistentStore}
    {contents : Contents} (run : Runs options ops store contents)
    (writes : ∀ op ∈ ops, op.isWrite = true) :
    store.disk.journal.length = journalSize contents.since := by
  induction run with
  | start => rfl
  | @call ops store next contents op run succeeds ih =>
    have hbefore := ih fun op hop => writes op (List.mem_append_left _ hop)
    cases op with
    | append type payload =>
      have hnext : next.disk.journal = store.disk.journal ++
          ({ type, seq := store.seq + 1, payload } : JournalRecord).bytes := by
        simp only [after, append, appendRaw] at succeeds
        by_cases hopen : ¬store.isOpen = true
        · simp [hopen, failure] at succeeds
        · by_cases hbound : store.options.maxRecordBytes.toNat < payload.length
          · simp [hopen, hbound, failure] at succeeds
          · rw [if_neg hopen, if_neg hbound] at succeeds
            obtain rfl := Option.some.inj succeeds
            rfl
      rw [hnext, List.length_append, hbefore, JournalRecord.length_bytes]
      simp only [Contents.after, journalSize, List.map_append, List.sum_append, List.map_cons,
        List.map_nil, List.sum_cons, List.sum_nil, Nat.add_zero]
    | writeSnapshot payload =>
      simp only [after, writeSnapshot] at succeeds
      by_cases hopen : ¬store.isOpen = true
      · simp [hopen, failure] at succeeds
      · by_cases hbound : store.options.maxSnapshotBytes.toNat < payload.length
        · simp [hopen, hbound, failure] at succeeds
        · rw [if_neg hopen, if_neg hbound] at succeeds
          obtain rfl := Option.some.inj succeeds
          rfl
    | reopen => exact absurd (writes _ (List.mem_append_right _ (List.mem_singleton_self _))) (by decide)
    | crash payload point =>
      exact absurd (writes _ (List.mem_append_right _ (List.mem_singleton_self _))) Bool.false_ne_true

/-- After calls that all returned success the store opens again exactly when the
last snapshot with its header, the records appended since with theirs, and their
number are within the bounds of an open. -/
theorem Runs.write_reopens_iff {options : Options} {ops : List StoreOp} {store : PersistentStore}
    {contents : Contents} (run : Runs options ops store contents)
    (writes : ∀ op ∈ ops, op.isWrite = true) (hops : ops.length < 256 ^ 8) :
    (∃ opened, openOn options store.disk = .ok opened) ↔ contents.Reopenable options := by
  obtain ⟨-, -, hseq, base, old, new, h⟩ := run.holds hops
  have hlast : store.seq < 256 ^ 8 := by omega
  have hbounds : WithinBounds options store.disk contents ↔ contents.Reopenable options := by
    have hsnapshot : (∀ raw ∈ store.disk.snapshot, raw.length ≤ options.maxSnapshotBytes.toNat) ↔
        ∀ payload ∈ contents.snapshot,
          kSnapshotHeaderBytes + payload.length ≤ options.maxSnapshotBytes.toNat := by
      rw [h.snapshot]
      cases contents.snapshot with
      | none => simp
      | some payload => simp [length_snapshotBytes]
    constructor
    · intro hwithin
      exact ⟨hsnapshot.mp hwithin.snapshot, run.length_journal writes ▸ hwithin.journal, hwithin.records⟩
    · intro hreopenable
      exact ⟨hsnapshot.mpr hreopenable.snapshot, run.length_journal writes ▸ hreopenable.journal,
        hreopenable.records⟩
  rw [← hbounds]
  constructor
  · rintro ⟨opened, hopened⟩
    obtain ⟨snapshot, hopens, -⟩ := openOn_eq_ok.mp hopened
    exact (h.withinBounds hlast hopens).1
  · intro hwithin
    obtain ⟨opened, hopened, -⟩ := (h.reopens_iff hlast).mpr hwithin
    exact ⟨opened, hopened⟩

end PersistentStore

end

-- ---------------------------------------------------------------------------
-- Two records and a budget of one
-- ---------------------------------------------------------------------------

namespace PersistentStore

def twoAppends : List StoreOp := [.append .worker [1], .append .worker [2]]

/-- The store after the two appends. -/
def twoAppended (options : Options) : PersistentStore :=
  (({ options, isOpen := true : PersistentStore }.append .worker [1] none).2.append .worker [2] none).2

def twoContents : Contents where
  since := [(.worker, [1]), (.worker, [2])]

theorem runs_twoAppends : Runs {} twoAppends (twoAppended {}) twoContents := by
  have first : Runs {} ([] ++ [.append .worker [1]]) _ _ := .call .start rfl
  have second : Runs {} (([] ++ [.append .worker [1]]) ++ [.append .worker [2]]) _ _ := .call first rfl
  exact second

/-- The same calls where a replay applies one record. -/
theorem runs_twoAppends_tight : Runs { maxReplayRecords := 1 } twoAppends
    (twoAppended { maxReplayRecords := 1 }) twoContents := by
  have first : Runs { maxReplayRecords := 1 } ([] ++ [.append .worker [1]]) _ _ := .call .start rfl
  have second : Runs { maxReplayRecords := 1 }
      (([] ++ [.append .worker [1]]) ++ [.append .worker [2]]) _ _ := .call first rfl
  exact second

theorem recovers_twoAppends : twoAppends.length < 256 ^ 8 ∧
    (Recovers {} ((twoAppended {}).interrupt [] .truncated) { snapshot := some [] } ↔
      WithinBounds {} ((twoAppended {}).interrupt [] .truncated) { snapshot := some [] }) :=
  ⟨by decide, runs_twoAppends.recovers_iff (by decide) [] .truncated⟩

theorem reopens_twoAppends : twoAppends.length < 256 ^ 8 ∧
    ((∃ opened, openOn {} (twoAppended {}).disk = .ok opened) ↔ twoContents.Reopenable {}) :=
  ⟨by decide, runs_twoAppends.write_reopens_iff (by decide) (by decide)⟩

/-- Two records are acknowledged where a replay applies one. -/
theorem not_reopens_twoAppends : ¬∀ (options : Options) (ops : List StoreOp)
    (store : PersistentStore) (contents : Contents), Runs options ops store contents →
    (∀ op ∈ ops, op.isWrite = true) → ∃ opened, openOn options store.disk = .ok opened := by
  intro h
  obtain ⟨opened, hopened⟩ := h _ _ _ _ runs_twoAppends_tight (by decide)
  have hrefused : (openOn { maxReplayRecords := 1 }
      (twoAppended { maxReplayRecords := 1 }).disk).toOption.isNone = true := by
    decide +kernel
  rw [hopened] at hrefused
  cases hrefused

/-- More records are appended than an open replays. -/
theorem not_recovers_twoAppends : ¬∀ (options : Options) (ops : List StoreOp)
    (store : PersistentStore) (contents : Contents) (payload : Bytes) (point : CrashPoint),
    Runs options ops store contents →
    Recovers options (store.interrupt payload point) (contents.interrupt payload point) := by
  intro h
  obtain ⟨opened, hopened, -⟩ := h _ _ _ _ [] (.temp 0) runs_twoAppends_tight
  have hrefused : (openOn { maxReplayRecords := 1 }
      ((twoAppended { maxReplayRecords := 1 }).interrupt [] (.temp 0))).toOption.isNone = true := by
    decide +kernel
  rw [hopened] at hrefused
  cases hrefused

end PersistentStore

end DistributedCompilation
