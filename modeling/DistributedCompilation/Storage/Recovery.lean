import DistributedCompilation.Storage.Journal

/-!
# Distributed Compilation — what reopening a store returns

Reading back framed records and snapshots, and the two laws of the durability
contract: the journal against failing appends, the snapshot and the journal
against a crash.
-/

namespace DistributedCompilation

-- ---------------------------------------------------------------------------
-- Fields at an offset
-- ---------------------------------------------------------------------------

theorem getAt_lt (bytes : Bytes) (offset width : Nat) : getAt bytes offset width < 256 ^ width := by
  rw [getAt]
  refine (LittleEndian.decode_lt _).trans_le (Nat.pow_le_pow_right (by decide) ?_)
  rw [List.length_take]
  exact Nat.min_le_left _ _

theorem getAt_skip {front : Bytes} (bytes : Bytes) {offset width : Nat} (h : front.length ≤ offset) :
    getAt (front ++ bytes) offset width = getAt bytes (offset - front.length) width := by
  rw [getAt, getAt, List.drop_append, List.drop_eq_nil_of_le h, List.nil_append]

theorem getAt_encode {width n : Nat} (rest : Bytes) (h : n < 256 ^ width) :
    getAt (LittleEndian.encode width n ++ rest) 0 width = n := by
  rw [getAt, List.drop_zero, List.take_append_of_le_length (by simp),
    List.take_of_length_le (by simp), LittleEndian.decode_encode_of_lt h]

/-- A field only depends on the bytes it reads. -/
theorem getAt_append {bytes : Bytes} (rest : Bytes) {offset width : Nat}
    (h : offset + width ≤ bytes.length) : getAt (bytes ++ rest) offset width = getAt bytes offset width := by
  rw [getAt, getAt, List.drop_append_of_le_length (by omega),
    List.take_append_of_le_length (by simp; omega)]

-- ---------------------------------------------------------------------------
-- Records
-- ---------------------------------------------------------------------------

/-- A record the frame can carry and replay accepts. -/
structure JournalRecord.Framed (options : Options) (record : JournalRecord) : Prop where
  bounded : record.payload.length ≤ options.maxRecordBytes.toNat
  size : record.payload.length < 256 ^ 4
  seq : record.seq < 256 ^ 8

theorem JournalRecord.length_header (record : JournalRecord) :
    record.header.length = kRecordHeaderBytes := by
  simp [header, kRecordHeaderBytes]

theorem JournalRecord.length_bytes (record : JournalRecord) :
    record.bytes.length = kRecordHeaderBytes + record.payload.length := by
  rw [bytes, List.length_append, length_header]

@[simp] theorem JournalRecord.bytes_ne_nil (record : JournalRecord) : record.bytes ≠ [] := by
  intro h
  have := record.length_bytes
  simp [h, kRecordHeaderBytes] at this
  omega

section Fields

variable {options : Options} {record : JournalRecord} (h : record.Framed options) (rest : Bytes)

include h

theorem JournalRecord.getAt_header :
    getAt (record.bytes ++ rest) 0 4 = kRecordMagic ∧
    getAt (record.bytes ++ rest) 4 2 = schemaVersion.toNat ∧
    getAt (record.bytes ++ rest) 6 2 = record.type.code ∧
    getAt (record.bytes ++ rest) 8 8 = record.seq ∧
    getAt (record.bytes ++ rest) 16 4 = record.payload.length ∧
    getAt (record.bytes ++ rest) 20 4 = (crc32 record.payload 0).toNat := by
  have hcrc : (crc32 record.payload 0).toNat < 256 ^ 4 := UInt32.toNat_lt _
  simp only [bytes, header, List.append_assoc]
  refine ⟨getAt_encode _ (by decide), ?_, ?_, ?_, ?_, ?_⟩
  · rw [getAt_skip _ (by simp)]
    simpa using getAt_encode _ (by decide)
  · rw [getAt_skip _ (by simp), getAt_skip _ (by simp)]
    simpa using getAt_encode _ record.type.code_lt
  · rw [getAt_skip _ (by simp), getAt_skip _ (by simp), getAt_skip _ (by simp)]
    simpa using getAt_encode _ h.seq
  · rw [getAt_skip _ (by simp), getAt_skip _ (by simp), getAt_skip _ (by simp),
      getAt_skip _ (by simp)]
    simpa using getAt_encode _ h.size
  · rw [getAt_skip _ (by simp), getAt_skip _ (by simp), getAt_skip _ (by simp),
      getAt_skip _ (by simp), getAt_skip _ (by simp)]
    simpa using getAt_encode _ hcrc

/-- A framed record is read back, whatever follows it. -/
theorem readRecord_bytes : readRecord options (record.bytes ++ rest) = .ok record := by
  obtain ⟨hmagic, hschema, htype, hseq, hlength, hcrc⟩ := record.getAt_header h rest
  have hpayload : ((record.bytes ++ rest).drop kRecordHeaderBytes).take record.payload.length =
      record.payload := by
    rw [JournalRecord.bytes, List.append_assoc, List.drop_append_of_le_length (by
      rw [record.length_header]), List.drop_of_length_le (by rw [record.length_header]),
      List.nil_append, List.take_append_of_le_length (by simp), List.take_length]
  have hlong : (record.bytes ++ rest).length = kRecordHeaderBytes + record.payload.length + rest.length := by
    rw [List.length_append, record.length_bytes]
  rw [readRecord, if_neg (by omega), if_neg (not_not.mpr hmagic), if_neg (not_not.mpr hschema), htype,
    RecordType.ofCode_code]
  simp only [hlength, hpayload, hcrc, hseq]
  rw [if_neg (Nat.not_lt.mpr h.bounded), if_neg (by omega)]
  simp

end Fields

-- ---------------------------------------------------------------------------
-- Replay
-- ---------------------------------------------------------------------------

/-- The bytes of a list of records. -/
def journalOf (records : List JournalRecord) : Bytes := records.flatMap JournalRecord.bytes

/-- What is read is structurally valid and at the front, and does not depend on
what follows it. -/
theorem readRecord_ok {options : Options} {bytes : Bytes} {record : JournalRecord}
    (h : readRecord options bytes = .ok record) :
    kRecordHeaderBytes + record.payload.length ≤ bytes.length ∧
      structurallyValid options bytes = true ∧
      ∀ more, readRecord options (bytes.take (kRecordHeaderBytes + record.payload.length) ++ more) =
        .ok record := by
  unfold readRecord at h
  split at h
  next => cases h
  next hlong =>
  split at h
  next => cases h
  next hmagic =>
  split at h
  next => cases h
  next hschema =>
  split at h
  next => cases h
  next type htype =>
  dsimp only at h
  split at h
  next => cases h
  next hbounded =>
  split at h
  next => cases h
  next havailable =>
  split at h
  next => cases h
  next hcrc =>
  cases h
  have hsize : ((bytes.drop kRecordHeaderBytes).take (getAt bytes 16 4)).length = getAt bytes 16 4 := by
    rw [List.length_take, List.length_drop]
    omega
  refine ⟨by rw [hsize]; omega, ?_, fun more => ?_⟩
  · simp only [structurallyValid, Bool.and_eq_true, decide_eq_true_eq, beq_iff_eq]
    exact ⟨⟨⟨⟨by omega, not_not.mp hmagic⟩, by omega⟩, by omega⟩, not_not.mp hcrc⟩
  · rw [hsize]
    have hfield : ∀ offset width, offset + width ≤ kRecordHeaderBytes →
        getAt (bytes.take (kRecordHeaderBytes + getAt bytes 16 4) ++ more) offset width =
          getAt bytes offset width := by
      intro offset width hw
      have hkept : offset + width ≤ (bytes.take (kRecordHeaderBytes + getAt bytes 16 4)).length := by
        rw [List.length_take]
        omega
      rw [getAt_append more hkept]
      conv_rhs => rw [← List.take_append_drop (kRecordHeaderBytes + getAt bytes 16 4) bytes,
        getAt_append _ hkept]
    have hpayload : ((bytes.take (kRecordHeaderBytes + getAt bytes 16 4) ++ more).drop
        kRecordHeaderBytes).take (getAt bytes 16 4) =
          (bytes.drop kRecordHeaderBytes).take (getAt bytes 16 4) := by
      rw [List.drop_append_of_le_length (by rw [List.length_take]; omega), List.drop_take,
        List.take_append_of_le_length (by
          rw [List.length_take, List.length_drop]
          omega), List.take_take]
      congr 1
      omega
    have hkeep : (bytes.take (kRecordHeaderBytes + getAt bytes 16 4) ++ more).length =
        kRecordHeaderBytes + getAt bytes 16 4 + more.length := by
      rw [List.length_append, List.length_take]
      omega
    rw [readRecord, hfield 0 4 (by decide), hfield 4 2 (by decide), hfield 6 2 (by decide), htype,
      if_neg (by omega), if_neg hmagic, if_neg hschema]
    simp only [hfield 16 4 (by decide), hfield 20 4 (by decide), hfield 8 8 (by decide), hpayload]
    rw [if_neg hbounded, if_neg (by omega), if_neg hcrc]

/-- More rounds than bytes change nothing. -/
theorem readRecords_rounds {options : Options} {bytes : Bytes} {rounds rounds' : Nat}
    (h : bytes.length ≤ rounds) (h' : bytes.length ≤ rounds') :
    readRecords options rounds bytes = readRecords options rounds' bytes := by
  induction rounds generalizing bytes rounds' with
  | zero =>
    obtain rfl : bytes = [] := List.eq_nil_of_length_eq_zero (by omega)
    cases rounds' <;> simp [readRecords]
  | succ rounds ih =>
    cases rounds' with
    | zero =>
      obtain rfl : bytes = [] := List.eq_nil_of_length_eq_zero (by omega)
      simp [readRecords]
    | succ rounds' =>
      simp only [readRecords]
      split
      · rfl
      · cases hread : readRecord options bytes with
        | error => rfl
        | ok record =>
          obtain ⟨hlong, -, -⟩ := readRecord_ok hread
          have hrest : (bytes.drop (kRecordHeaderBytes + record.payload.length)).length <
              bytes.length := by
            rw [List.length_drop]
            simp only [kRecordHeaderBytes] at hlong ⊢
            omega
          simp only
          rw [@ih (bytes.drop (kRecordHeaderBytes + record.payload.length)) rounds' (by omega) (by omega)]

theorem readJournal_nil (options : Options) : readJournal options [] = {} := rfl

theorem readJournal_ok {options : Options} {bytes : Bytes} {record : JournalRecord}
    (h : readRecord options bytes = .ok record) :
    readJournal options bytes =
      { readJournal options (bytes.drop (kRecordHeaderBytes + record.payload.length)) with
        records := record ::
          (readJournal options (bytes.drop (kRecordHeaderBytes + record.payload.length))).records } := by
  obtain ⟨hlong, -, -⟩ := readRecord_ok h
  obtain ⟨rounds, hrounds⟩ : ∃ n, bytes.length = n + 1 :=
    ⟨bytes.length - 1, by simp only [kRecordHeaderBytes] at hlong; omega⟩
  have hne : bytes.isEmpty = false := by
    rw [← Bool.not_eq_true, List.isEmpty_iff_length_eq_zero]
    omega
  have hrest : (bytes.drop (kRecordHeaderBytes + record.payload.length)).length ≤ rounds := by
    rw [List.length_drop]
    simp only [kRecordHeaderBytes]
    omega
  rw [readJournal, hrounds, readRecords, hne, h]
  simp only [Bool.false_eq_true, if_false, readJournal]
  rw [readRecords_rounds hrest (Nat.le_refl _)]

theorem readJournal_error {options : Options} {bytes : Bytes} {detail : String}
    (hne : bytes ≠ []) (h : readRecord options bytes = .error detail) :
    readJournal options bytes = { damage := some detail, rest := bytes } := by
  obtain ⟨rounds, hrounds⟩ : ∃ n, bytes.length = n + 1 :=
    ⟨bytes.length - 1, by have := List.length_pos_of_ne_nil hne; omega⟩
  have hempty : bytes.isEmpty = false := by simpa using hne
  rw [readJournal, hrounds, readRecords, hempty, h]
  rfl

/-- The replayed part of a journal is read the same whatever comes after it. -/
theorem readJournal_good {options : Options} (bytes : Bytes) :
    ∃ good, bytes = good ++ (readJournal options bytes).rest ∧ ∀ more,
      readJournal options (good ++ more) =
        { readJournal options more with
          records := (readJournal options bytes).records ++ (readJournal options more).records } := by
  induction hn : bytes.length using Nat.strong_induction_on generalizing bytes with
  | _ n ih =>
    subst hn
    by_cases hne : bytes = []
    · subst hne
      exact ⟨[], rfl, fun more => by simp [readJournal_nil]⟩
    cases hread : readRecord options bytes with
    | error detail =>
      rw [readJournal_error hne hread]
      exact ⟨[], rfl, fun more => by simp⟩
    | ok record =>
      obtain ⟨hlong, -, hfront⟩ := readRecord_ok hread
      obtain ⟨good, hgood, hmore⟩ := ih _ (by
        rw [List.length_drop]
        simp only [kRecordHeaderBytes] at hlong ⊢
        omega) (bytes.drop (kRecordHeaderBytes + record.payload.length)) rfl
      rw [readJournal_ok hread]
      refine ⟨bytes.take (kRecordHeaderBytes + record.payload.length) ++ good, ?_, fun more => ?_⟩
      · rw [List.append_assoc, ← hgood, List.take_append_drop]
      · have hdrop : (bytes.take (kRecordHeaderBytes + record.payload.length) ++ (good ++ more)).drop
            (kRecordHeaderBytes + record.payload.length) = good ++ more := by
          rw [List.drop_append_of_le_length (by rw [List.length_take]; omega),
            List.drop_of_length_le (by rw [List.length_take]; omega), List.nil_append]
        rw [List.append_assoc, readJournal_ok (hfront _), hdrop, hmore]
        rfl

/-- Framed records in front are read one by one. -/
theorem readJournal_journalOf {options : Options} {records : List JournalRecord}
    (h : ∀ record ∈ records, record.Framed options) (rest : Bytes) :
    readJournal options (journalOf records ++ rest) =
      { readJournal options rest with records := records ++ (readJournal options rest).records } := by
  induction records with
  | nil => simp [journalOf]
  | cons record records ih =>
    have hbytes : journalOf (record :: records) ++ rest = record.bytes ++ (journalOf records ++ rest) := by
      simp [journalOf]
    have hdrop : (record.bytes ++ (journalOf records ++ rest)).drop
        (kRecordHeaderBytes + record.payload.length) = journalOf records ++ rest := by
      rw [← record.length_bytes, List.drop_left]
    rw [hbytes, readJournal_ok (readRecord_bytes (h record List.mem_cons_self) _), hdrop,
      ih fun r hr => h r (List.mem_cons_of_mem _ hr)]
    rfl

/-- Bytes in which no structurally valid record starts are a torn tail. -/
theorem readJournal_torn {options : Options} {tail : Bytes} (hne : tail ≠ [])
    (h : ∀ rest, rest <:+ tail → structurallyValid options rest = false) :
    ∃ detail, readJournal options tail = { damage := some detail, rest := tail } ∧
      validRecordAfter options tail = false := by
  cases hread : readRecord options tail with
  | ok record => exact absurd (h tail List.suffix_rfl) (by simp [(readRecord_ok hread).2.1])
  | error detail =>
    refine ⟨detail, readJournal_error hne hread, ?_⟩
    simp only [validRecordAfter, List.any_eq_false, List.mem_tails]
    intro rest hrest
    rw [h rest (hrest.trans (List.tail_suffix _))]
    decide

-- ---------------------------------------------------------------------------
-- Application
-- ---------------------------------------------------------------------------

theorem applyRecords_append (seq : Nat) (records more : List JournalRecord) :
    applyRecords seq (records ++ more) =
      ((applyRecords seq records).1 ++ (applyRecords (applyRecords seq records).2 more).1,
        (applyRecords (applyRecords seq records).2 more).2) := by
  induction records generalizing seq with
  | nil => rfl
  | cons record records ih =>
    simp only [List.cons_append, applyRecords]
    split
    · rw [ih]
      rfl
    · exact ih seq

/-- What is applied has strictly increasing sequence numbers. -/
theorem pairwise_applyRecords (seq : Nat) (records : List JournalRecord) :
    (applyRecords seq records).1.Pairwise (·.seq < ·.seq) ∧
      ∀ record ∈ (applyRecords seq records).1, seq < record.seq := by
  induction records generalizing seq with
  | nil => simp [applyRecords]
  | cons record records ih =>
    simp only [applyRecords]
    split
    next hlt =>
      obtain ⟨hpair, habove⟩ := ih record.seq
      refine ⟨List.pairwise_cons.mpr ⟨habove, hpair⟩, fun r hr => ?_⟩
      rcases List.mem_cons.mp hr with rfl | hr
      · exact hlt
      · exact Nat.lt_trans hlt (habove r hr)
    next => exact ih seq

-- ---------------------------------------------------------------------------
-- Opening
-- ---------------------------------------------------------------------------

variable [HashFunction]

/-- When an open succeeds. -/
structure PersistentStore.Opens (options : Options) (disk : Disk) (snapshot : Option (Nat × Bytes)) :
    Prop where
  found : disk.readSnapshot options = .ok snapshot
  journal : disk.journal.length ≤ kMaxJournalBytes
  records : (applyRecords ((snapshot.map (·.1)).getD 0)
    (readJournal options disk.journal).records).1.length ≤ options.maxReplayRecords.toNat
  damage : (readJournal options disk.journal).damage = none ∨
    validRecordAfter options (readJournal options disk.journal).rest = false

theorem PersistentStore.openOn_eq_ok {options : Options} {disk : Disk} {result : Opened} :
    openOn options disk = .ok result ↔
      ∃ snapshot, Opens options disk snapshot ∧ result = opened options disk snapshot := by
  unfold openOn
  cases hsnapshot : disk.readSnapshot options with
  | error status =>
    constructor
    · intro h
      cases h
    · rintro ⟨snapshot, hopens, -⟩
      simpa [hsnapshot] using hopens.found
  | ok snapshot =>
    have hunique : ∀ snapshot', Opens options disk snapshot' → snapshot' = snapshot := by
      intro snapshot' hopens
      have := hopens.found
      rw [hsnapshot] at this
      exact (Except.ok.inj this).symm
    show (if kMaxJournalBytes < disk.journal.length then _ else _) = _ ↔ _
    split
    next hlong =>
      refine ⟨nofun, ?_⟩
      rintro ⟨snapshot', hopens, -⟩
      exact absurd hopens.journal (by omega)
    next hlong =>
    split
    next hmany =>
      refine ⟨nofun, ?_⟩
      rintro ⟨snapshot', hopens, -⟩
      obtain rfl := hunique _ hopens
      exact absurd hopens.records (Nat.not_le.mpr hmany)
    next hmany =>
    have hopens : (readJournal options disk.journal).damage = none ∨
        validRecordAfter options (readJournal options disk.journal).rest = false →
        Opens options disk snapshot := fun hdamage =>
      ⟨hsnapshot, by omega, Nat.not_lt.mp hmany, hdamage⟩
    split
    next hnone =>
      constructor
      · intro h
        exact ⟨snapshot, hopens (.inl hnone), (Except.ok.inj h).symm⟩
      · rintro ⟨snapshot', hopens', rfl⟩
        rw [hunique _ hopens']
        rfl
    next detail hdetail =>
    split
    next hvalid =>
      refine ⟨nofun, ?_⟩
      rintro ⟨snapshot', hopens', -⟩
      rcases hopens'.damage with hnone | hnone
      · simp [hdetail] at hnone
      · simp [hvalid] at hnone
    next hvalid =>
      constructor
      · intro h
        exact ⟨snapshot, hopens (.inr (by simpa using hvalid)), (Except.ok.inj h).symm⟩
      · rintro ⟨snapshot', hopens', rfl⟩
        rw [hunique _ hopens']
        rfl

end DistributedCompilation
