import DistributedCompilation.Storage.Recovery

/-!
# Distributed Compilation — torn tails

The report `PersistentStore::open` returns beside the records, and what it says
about a journal whose last record was written in part.

After damage `open` looks at every later offset for something that passes as a
record. The payload of the torn record is among what it looks at, so whether
the tail counts as torn or the journal as corrupt is decided by the payload
(`torn_tail_exact_iff`).
-/

namespace DistributedCompilation

-- ---------------------------------------------------------------------------
-- Report
-- ---------------------------------------------------------------------------

/-- `RecoveryReport`. -/
structure RecoveryReport where
  opened : Bool := false
  snapshotLoaded : Bool := false
  tornTail : Bool := false
  truncatedInPlace : Bool := false
  snapshotSeq : Nat := 0
  recordsApplied : Nat := 0
  recordsSkipped : Nat := 0
  bytesReclaimed : Nat := 0
  notes : List Bytes := []

/-- The report of an open that succeeds. -/
def PersistentStore.report (options : Options) (disk : Disk) (snapshot : Option (Nat × Bytes)) :
    RecoveryReport :=
  let replayed := readJournal options disk.journal
  let snapshotSeq := (snapshot.map (·.1)).getD 0
  let applied := (applyRecords snapshotSeq replayed.records).1.length
  { opened := true
    snapshotLoaded := snapshot.isSome
    tornTail := replayed.damage.isSome
    truncatedInPlace := replayed.damage.isSome
    snapshotSeq
    recordsApplied := applied
    recordsSkipped := replayed.records.length - applied
    bytesReclaimed := if replayed.damage.isSome then replayed.rest.length else 0
    notes := (snapshot.map fun s => txt "snapshot loaded at seq " ++ decimal s.1).toList ++
      (replayed.damage.map fun detail => txt ("torn journal tail recovered: " ++ detail)).toList }

section

variable [HashFunction]

/-- `PersistentStore::open` with the report it returns. -/
def PersistentStore.openReported (options : Options) (disk : Disk) :
    Result (RecoveryReport × Opened) := do
  let opened ← openOn options disk
  let snapshot ← disk.readSnapshot options
  pure (report options disk snapshot, opened)

theorem PersistentStore.openReported_eq_ok {options : Options} {disk : Disk}
    {result : RecoveryReport × Opened} :
    openReported options disk = .ok result ↔
      ∃ snapshot, Opens options disk snapshot ∧
        result = (report options disk snapshot, opened options disk snapshot) := by
  constructor
  · intro h
    unfold openReported at h
    cases hopen : openOn options disk with
    | error status =>
      rw [hopen] at h
      cases h
    | ok value =>
      obtain ⟨snapshot, hopens, rfl⟩ := openOn_eq_ok.mp hopen
      rw [hopen, hopens.found] at h
      exact ⟨snapshot, hopens, (Except.ok.inj h).symm⟩
  · rintro ⟨snapshot, hopens, rfl⟩
    unfold openReported
    rw [openOn_eq_ok.mpr ⟨snapshot, hopens, rfl⟩, hopens.found]
    rfl

-- ---------------------------------------------------------------------------
-- A record in part
-- ---------------------------------------------------------------------------

omit [HashFunction] in
/-- No strict prefix of a record reads as a record: what reads on a prefix reads
the same on the whole record. -/
theorem readRecord_take {options : Options} {record : JournalRecord} (h : record.Framed options)
    {n : Nat} (hn : n < record.bytes.length) :
    ∃ detail, readRecord options (record.bytes.take n) = .error detail := by
  cases hread : readRecord options (record.bytes.take n) with
  | error detail => exact ⟨detail, rfl⟩
  | ok read =>
    obtain ⟨hlong, -, hmore⟩ := readRecord_ok hread
    have hkept : (record.bytes.take n).length = n := by
      rw [List.length_take]
      omega
    have hwhole := hmore (record.bytes.drop (kRecordHeaderBytes + read.payload.length))
    rw [List.take_take, Nat.min_eq_left (by omega), List.take_append_drop] at hwhole
    have hself := readRecord_bytes h []
    rw [List.append_nil, hwhole] at hself
    obtain rfl := Except.ok.inj hself
    rw [read.length_bytes] at hn
    omega

omit [HashFunction] in
/-- A record in part is damage that reaches to the end. -/
theorem readJournal_take {options : Options} {record : JournalRecord} (h : record.Framed options)
    {n : Nat} (hn : n < record.bytes.length) :
    (readJournal options (record.bytes.take n)).records = [] ∧
      (readJournal options (record.bytes.take n)).rest = record.bytes.take n ∧
      (readJournal options (record.bytes.take n)).damage.isSome = decide (0 < n) := by
  by_cases hzero : n = 0
  · subst hzero
    rw [List.take_zero, readJournal_nil]
    exact ⟨rfl, rfl, rfl⟩
  · obtain ⟨detail, herror⟩ := readRecord_take h hn
    have hne : record.bytes.take n ≠ [] := by
      intro hnil
      have hlength := congrArg List.length hnil
      rw [List.length_take, List.length_nil] at hlength
      omega
    rw [readJournal_error hne herror]
    refine ⟨rfl, rfl, ?_⟩
    rw [Option.isSome_some, eq_comm, decide_eq_true_eq]
    omega

omit [HashFunction] in
/-- Of records in order the ones above the snapshot are applied. -/
theorem applyRecords_of_increasing (seq : Nat) {records : List JournalRecord}
    (h : records.Pairwise (·.seq < ·.seq)) :
    (applyRecords seq records).1 = records.filter (seq < ·.seq) := by
  induction records generalizing seq with
  | nil => rfl
  | cons record records ih =>
    obtain ⟨habove, hrest⟩ := List.pairwise_cons.mp h
    unfold applyRecords
    by_cases hlt : seq < record.seq
    · have hall : ∀ bound, bound ≤ record.seq →
          records.filter (bound < ·.seq) = records := by
        intro bound hbound
        refine List.filter_eq_self.mpr fun later hlater => ?_
        have := habove later hlater
        rw [decide_eq_true_eq]
        omega
      rw [if_pos hlt, List.filter_cons_of_pos (by simpa using hlt), hall seq (by omega)]
      show record :: (applyRecords record.seq records).1 = _
      rw [ih record.seq hrest, hall record.seq (Nat.le_refl _)]
    · rw [if_neg hlt, List.filter_cons_of_neg (by simpa using hlt)]
      exact ih seq hrest

-- ---------------------------------------------------------------------------
-- Torn tails
-- ---------------------------------------------------------------------------

/-- Opening a journal of `records` and the bytes `tail` returns the records above
the snapshot, reports a torn tail exactly when there is a tail, and reclaims
its bytes. -/
def PersistentStore.TailRecovered (options : Options) (disk : Disk)
    (snapshot : Option (Nat × Bytes)) (records : List JournalRecord) (tail : Bytes) : Prop :=
  ∃ report opened, openReported options { disk with journal := journalOf records ++ tail } =
      .ok (report, opened) ∧
    report.tornTail = !tail.isEmpty ∧ report.bytesReclaimed = tail.length ∧
    opened.records = records.filter ((snapshot.map (·.1)).getD 0 < ·.seq) ∧
    opened.store.disk.journal = journalOf records

/-- **Torn tails are recovered exactly** when nothing in the part that was
written, but its first byte, passes for the start of a record, and the journal
is within the limits of a replay. -/
theorem torn_tail_exact_iff {options : Options} {disk : Disk} {snapshot : Option (Nat × Bytes)}
    {records : List JournalRecord} {record : JournalRecord} {n : Nat}
    (hsnapshot : disk.readSnapshot options = .ok snapshot)
    (hframed : ∀ r ∈ records, r.Framed options) (hincreasing : records.Pairwise (·.seq < ·.seq))
    (hrecord : record.Framed options) (hn : n < record.bytes.length) :
    PersistentStore.TailRecovered options disk snapshot records (record.bytes.take n) ↔
      (journalOf records ++ record.bytes.take n).length ≤ kMaxJournalBytes ∧
        (records.filter ((snapshot.map (·.1)).getD 0 < ·.seq)).length ≤
          options.maxReplayRecords.toNat ∧
        validRecordAfter options (record.bytes.take n) = false := by
  obtain ⟨hrecords, hrest, hdamage⟩ := readJournal_take hrecord hn
  have hread := readJournal_journalOf hframed (record.bytes.take n)
  rw [hrecords, List.append_nil] at hread
  have happlied := applyRecords_of_increasing ((snapshot.map (·.1)).getD 0) hincreasing
  have hlength : (record.bytes.take n).length = n := by
    rw [List.length_take]
    omega
  generalize record.bytes.take n = tail at *
  constructor
  · rintro ⟨report, opened, hopen, -⟩
    obtain ⟨snapshot', hopens, -⟩ := PersistentStore.openReported_eq_ok.mp hopen
    have hsame : snapshot' = snapshot := by
      have hfound := hopens.found
      rw [show Disk.readSnapshot options { disk with journal := journalOf records ++ tail } =
        disk.readSnapshot options from rfl, hsnapshot] at hfound
      exact (Except.ok.inj hfound).symm
    subst hsame
    have hmany := hopens.records
    have hclean := hopens.damage
    simp only [hread] at hmany hclean
    rw [happlied] at hmany
    refine ⟨hopens.journal, hmany, ?_⟩
    rcases hclean with hnone | hscan
    · -- nothing was appended
      rw [hnone] at hdamage
      have hzero : n = 0 := by
        by_contra hpos
        rw [Option.isSome_none, eq_comm, decide_eq_false_iff_not] at hdamage
        omega
      obtain rfl : tail = [] := List.eq_nil_of_length_eq_zero (hlength.trans hzero)
      rfl
    · rw [← hrest]
      exact hscan
  · rintro ⟨hshort, hfew, hscan⟩
    have hopens : PersistentStore.Opens options { disk with journal := journalOf records ++ tail }
        snapshot := by
      refine ⟨hsnapshot, hshort, ?_, ?_⟩
      · simp only [hread]
        rw [happlied]
        exact hfew
      · simp only [hread]
        rw [hrest]
        exact .inr hscan
    refine ⟨_, _, PersistentStore.openReported_eq_ok.mpr ⟨snapshot, hopens, rfl⟩, ?_, ?_, ?_, ?_⟩
    · simp only [PersistentStore.report, hread]
      rw [hdamage, ← hlength]
      cases tail <;> rfl
    · simp only [PersistentStore.report, hread]
      rw [hdamage, hrest, hlength]
      by_cases hzero : n = 0
      · rw [hzero]
        rfl
      · rw [if_pos (by rw [decide_eq_true_eq]; omega)]
    · simp only [PersistentStore.opened, hread]
      exact happlied
    · simp only [PersistentStore.opened, hread]
      rw [hrest, List.length_append, Nat.add_sub_cancel, List.take_left]

end

/-- A record whose payload is another one and a byte. -/
def nestingRecord : JournalRecord :=
  { type := .worker
    seq := 2
    payload := ({ type := .worker, seq := 1 } : JournalRecord).bytes ++ [0] }

theorem nestingRecord_framed : nestingRecord.Framed {} := ⟨by decide, by decide, by decide⟩

/-- Ten bytes of a record make a torn tail. -/
theorem torn_tail_exact_iff_ten : PersistentStore.TailRecovered {} {} none
    [{ type := .worker, seq := 1 }] (nestingRecord.bytes.take 10) := by
  refine (@torn_tail_exact_iff _ {} {} none [{ type := .worker, seq := 1 }] nestingRecord 10
    rfl ?_ (List.pairwise_singleton ..) nestingRecord_framed (by decide)).mpr ?_
  · intro record hrecord
    obtain rfl := List.mem_singleton.mp hrecord
    exact ⟨by decide, by decide, by decide⟩
  · exact ⟨by decide, by decide, by decide⟩

/-- All but the last byte of the record are refused as corruption: the record in
its payload is complete. -/
theorem not_torn_tail_exact :
    nestingRecord.Framed {} ∧ 48 < nestingRecord.bytes.length ∧
      ¬PersistentStore.TailRecovered {} {} none [] (nestingRecord.bytes.take 48) := by
  refine ⟨nestingRecord_framed, by decide, ?_⟩
  rintro ⟨report, opened, hopen, -⟩
  have hrefused : (PersistentStore.openReported {}
      { journal := journalOf [] ++ nestingRecord.bytes.take 48 }).toBool = false := by decide +kernel
  rw [hopen] at hrefused
  cases hrefused

end DistributedCompilation
