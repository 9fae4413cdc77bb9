import DistributedCompilation.Storage.Recovery

/-!
# Distributed Compilation — crashes inside an open

`PersistentStore::open` truncates the journal and writes the recovered bytes
back. A crash in between leaves a prefix of them, which is all the next open
finds.
-/

namespace DistributedCompilation

-- ---------------------------------------------------------------------------
-- The recovered bytes
-- ---------------------------------------------------------------------------

/-- A field encodes back to the bytes it was read from. -/
theorem encode_getAt {bytes : Bytes} {offset width : Nat} (h : offset + width ≤ bytes.length) :
    LittleEndian.encode width (getAt bytes offset width) = (bytes.drop offset).take width := by
  have hlength : ((bytes.drop offset).take width).length = width := by
    rw [List.length_take, List.length_drop]
    omega
  have hback := LittleEndian.encode_decode ((bytes.drop offset).take width)
  rwa [hlength] at hback

theorem RecordType.code_of_ofCode {raw : Nat} {type : RecordType} (h : RecordType.ofCode raw = some type) :
    type.code = raw := by
  have := List.find?_some h
  simpa using this

/-- What is read is a record that can be framed, and its frame is what was read. -/
theorem readRecord_framed {options : Options} {bytes : Bytes} {record : JournalRecord}
    (h : readRecord options bytes = .ok record) :
    record.Framed options ∧ bytes.take (kRecordHeaderBytes + record.payload.length) = record.bytes := by
  obtain ⟨hlong, -, -⟩ := readRecord_ok h
  unfold readRecord at h
  split at h
  next => cases h
  next hheader =>
  split at h
  next => cases h
  next hmagic =>
  split at h
  next => cases h
  next hschema =>
  split at h
  next => cases h
  next type htype =>
  dsimp only at h
  split at h
  next => cases h
  next hbounded =>
  split at h
  next => cases h
  next havailable =>
  split at h
  next => cases h
  next hcrc =>
  cases h
  have hsize : ((bytes.drop kRecordHeaderBytes).take (getAt bytes 16 4)).length = getAt bytes 16 4 := by
    rw [List.length_take, List.length_drop]
    omega
  refine ⟨⟨by rw [hsize]; omega, by rw [hsize]; exact getAt_lt _ _ _, getAt_lt _ _ _⟩, ?_⟩
  have hcrc' : (crc32 ((bytes.drop kRecordHeaderBytes).take (getAt bytes 16 4)) 0).toNat =
      getAt bytes 20 4 := not_not.mp hcrc
  have hmagic' : getAt bytes 0 4 = kRecordMagic := not_not.mp hmagic
  have hschema' : getAt bytes 4 2 = schemaVersion.toNat := not_not.mp hschema
  simp only [JournalRecord.bytes, JournalRecord.header, hsize, hcrc', ← hmagic', ← hschema',
    RecordType.code_of_ofCode htype]
  simp only [kRecordHeaderBytes] at hheader ⊢
  rw [encode_getAt (by omega), encode_getAt (by omega), encode_getAt (by omega), encode_getAt (by omega),
    encode_getAt (by omega), encode_getAt (by omega)]
  rw [show 24 = 4 + 2 + 2 + 8 + 4 + 4 from rfl]
  simp only [List.take_add, List.drop_zero, List.append_assoc]

/-- A journal is the frames of the records read from it and the rest. -/
theorem readJournal_records {options : Options} (bytes : Bytes) :
    bytes = journalOf (readJournal options bytes).records ++ (readJournal options bytes).rest ∧
      ∀ record ∈ (readJournal options bytes).records, record.Framed options := by
  induction hn : bytes.length using Nat.strong_induction_on generalizing bytes with
  | _ n ih =>
    subst hn
    by_cases hne : bytes = []
    · subst hne
      simp [readJournal_nil, journalOf]
    cases hread : readRecord options bytes with
    | error detail =>
      rw [readJournal_error hne hread]
      simp [journalOf]
    | ok record =>
      obtain ⟨hlong, -, -⟩ := readRecord_ok hread
      obtain ⟨hframed, hfront⟩ := readRecord_framed hread
      obtain ⟨hrest, hall⟩ := ih _ (by
        rw [List.length_drop]
        simp only [kRecordHeaderBytes] at hlong ⊢
        omega) (bytes.drop (kRecordHeaderBytes + record.payload.length)) rfl
      rw [readJournal_ok hread]
      refine ⟨?_, ?_⟩
      · conv_lhs => rw [← List.take_append_drop (kRecordHeaderBytes + record.payload.length) bytes,
          hfront, hrest]
        simp only [journalOf, List.flatMap_cons, List.append_assoc]
      · intro r hr
        rcases List.mem_cons.mp hr with rfl | hr
        · exact hframed
        · exact hall r hr

-- ---------------------------------------------------------------------------
-- A prefix of them
-- ---------------------------------------------------------------------------

/-- A prefix of a journal is some whole records and a part of the next. -/
theorem take_journalOf (records : List JournalRecord) (left : Nat) :
    ∃ front back tail, records = front ++ back ∧
      (journalOf records).take left = journalOf front ++ tail ∧
      (tail = [] ∨ ∃ record ∈ back, ∃ k < record.bytes.length, tail = record.bytes.take k) := by
  induction records generalizing left with
  | nil => exact ⟨[], [], [], rfl, by simp [journalOf], .inl rfl⟩
  | cons record records ih =>
    by_cases hleft : left < record.bytes.length
    · refine ⟨[], record :: records, record.bytes.take left, rfl, ?_,
        .inr ⟨record, List.mem_cons_self, left, hleft, rfl⟩⟩
      simp only [journalOf, List.flatMap_cons, List.flatMap_nil, List.nil_append]
      exact List.take_append_of_le_length (by omega)
    · obtain ⟨front, back, tail, rfl, htake, htail⟩ := ih (left - record.bytes.length)
      refine ⟨record :: front, back, tail, rfl, ?_, htail⟩
      simp only [journalOf, List.flatMap_cons, List.append_assoc] at htake ⊢
      rw [List.take_append, List.take_of_length_le (by omega), htake]

/-- A part of a frame does not read as a record. -/
theorem readRecord_part {options : Options} {record : JournalRecord} (h : record.Framed options) {k : Nat}
    (hk : k < record.bytes.length) : ∃ detail, readRecord options (record.bytes.take k) = .error detail := by
  cases hread : readRecord options (record.bytes.take k) with
  | error detail => exact ⟨detail, rfl⟩
  | ok other =>
    obtain ⟨hlong, -, hmore⟩ := readRecord_ok hread
    rw [List.length_take] at hlong
    -- the rest of the frame completes the part, so both read the same record
    have hwhole := hmore (record.bytes.drop (kRecordHeaderBytes + other.payload.length))
    rw [List.take_take, Nat.min_eq_left (by omega), List.take_append_drop] at hwhole
    have hframe := readRecord_bytes h []
    rw [List.append_nil, hwhole] at hframe
    obtain rfl := Except.ok.inj hframe
    have := other.length_bytes
    omega

/-- More bytes do not invalidate a record. -/
theorem structurallyValid_append {options : Options} {bytes : Bytes} (more : Bytes)
    (h : structurallyValid options bytes = true) : structurallyValid options (bytes ++ more) = true := by
  simp only [structurallyValid, Bool.and_eq_true, decide_eq_true_eq, beq_iff_eq] at h ⊢
  obtain ⟨⟨⟨⟨hheader, hmagic⟩, hbounded⟩, havailable⟩, hcrc⟩ := h
  have hlength : getAt (bytes ++ more) 16 4 = getAt bytes 16 4 :=
    getAt_append more (by simp only [kRecordHeaderBytes] at hheader; omega)
  have hstored : getAt (bytes ++ more) 20 4 = getAt bytes 20 4 :=
    getAt_append more (by simp only [kRecordHeaderBytes] at hheader; omega)
  have hpayload : ((bytes ++ more).drop kRecordHeaderBytes).take (getAt bytes 16 4) =
      (bytes.drop kRecordHeaderBytes).take (getAt bytes 16 4) := by
    rw [List.drop_append_of_le_length (by omega), List.take_append_of_le_length (by
      rw [List.length_drop]; omega)]
  rw [hlength, hstored, hpayload, List.length_append,
    getAt_append more (by simp only [kRecordHeaderBytes] at hheader; omega)]
  exact ⟨⟨⟨⟨by omega, hmagic⟩, hbounded⟩, by omega⟩, hcrc⟩

theorem validRecordAfter_append {options : Options} {bytes : Bytes} (more : Bytes)
    (h : validRecordAfter options bytes = true) : validRecordAfter options (bytes ++ more) = true := by
  simp only [validRecordAfter, List.any_eq_true, List.mem_tails] at h ⊢
  obtain ⟨rest, hrest, hvalid⟩ := h
  refine ⟨rest ++ more, ?_, structurallyValid_append more hvalid⟩
  cases bytes with
  | nil =>
    obtain rfl := List.suffix_nil.mp hrest
    simp [structurallyValid, kRecordHeaderBytes] at hvalid
  | cons b bytes =>
    obtain ⟨skipped, hskipped⟩ := hrest
    exact ⟨skipped, by rw [← List.append_assoc, hskipped]; rfl⟩

/-- No complete record lies inside the frame of this one. -/
def JournalRecord.Plain (options : Options) (record : JournalRecord) : Prop :=
  validRecordAfter options record.bytes.dropLast = false

/-- A part of the frame of a plain record is a torn tail. -/
theorem JournalRecord.Plain.part {options : Options} {record : JournalRecord} (h : record.Plain options)
    {k : Nat} (hk : k < record.bytes.length) :
    validRecordAfter options (record.bytes.take k) = false := by
  by_contra hvalid
  rw [Bool.not_eq_false] at hvalid
  have hwhole := validRecordAfter_append (record.bytes.dropLast.drop k) hvalid
  have htake : record.bytes.take k = record.bytes.dropLast.take k := by
    rw [List.dropLast_eq_take, List.take_take, Nat.min_eq_left (by omega)]
  have hsplit : record.bytes.take k ++ record.bytes.dropLast.drop k = record.bytes.dropLast := by
    rw [htake, List.take_append_drop]
  rw [hsplit] at hwhole
  rw [Plain, hwhole] at h
  cases h

/-- What is applied after a sequence number that covers every record. -/
theorem applyRecords_eq_nil_iff {seq : Nat} {records : List JournalRecord} :
    (applyRecords seq records).1 = [] ↔ ∀ record ∈ records, record.seq ≤ seq := by
  induction records with
  | nil => simp [applyRecords]
  | cons record records ih =>
    simp only [applyRecords, List.forall_mem_cons]
    split
    next hlt =>
      constructor
      · intro h
        cases h
      · rintro ⟨hle, -⟩
        omega
    next hle => rw [ih, and_iff_right (by omega)]

-- ---------------------------------------------------------------------------
-- Crashes
-- ---------------------------------------------------------------------------

section

variable [HashFunction]

/-- The first `last_good_offset` bytes of the journal, which an open writes back. -/
def Disk.recovered (options : Options) (disk : Disk) : Bytes :=
  disk.journal.take (disk.journal.length - (readJournal options disk.journal).rest.length)

/-- The disks a crash inside an open of `disk` leaves. -/
inductive Disk.Interrupted (options : Options) (disk : Disk) : Disk → Prop
  /-- before the journal is reopened for writing -/
  | untouched : Interrupted options disk disk
  /-- after its truncation, with `left` of the recovered bytes written back -/
  | rewriting (left : Nat) : Interrupted options disk
      { disk with journal := (disk.recovered options).take left }

/-- The sequence number the snapshot covers. -/
def Disk.covered (options : Options) (disk : Disk) : Nat :=
  match disk.readSnapshot options with
  | .ok (some (seq, _)) => seq
  | _ => 0

/-- The snapshot covers every record of the journal, and each of them is plain. -/
def Disk.Settled (options : Options) (disk : Disk) : Prop :=
  ∀ record ∈ (readJournal options disk.journal).records,
    record.seq ≤ disk.covered options ∧ record.Plain options

/-- An open returns the snapshot and the records of `opened`. -/
def PersistentStore.Reopens (options : Options) (disk : Disk) (opened : Opened) : Prop :=
  ∃ again, openOn options disk = .ok again ∧ again.snapshot = opened.snapshot ∧
    again.records = opened.records

namespace PersistentStore

variable {options : Options} {disk : Disk} {opened : Opened}

omit [HashFunction] in
/-- The bytes an open writes back are the frames of what it read. -/
theorem recovered_eq : disk.recovered options = journalOf (readJournal options disk.journal).records := by
  obtain ⟨hbytes, -⟩ := @readJournal_records options disk.journal
  have hlength := congrArg List.length hbytes
  rw [List.length_append] at hlength
  have hoffset : disk.journal.length - (readJournal options disk.journal).rest.length =
      (journalOf (readJournal options disk.journal).records).length := by omega
  have htake : (journalOf (readJournal options disk.journal).records ++
      (readJournal options disk.journal).rest).take
        (journalOf (readJournal options disk.journal).records).length =
          journalOf (readJournal options disk.journal).records := List.take_left
  rwa [← hbytes, ← hoffset] at htake

theorem Opens.covered {snapshot : Option (Nat × Bytes)} (h : Opens options disk snapshot) :
    disk.covered options = (snapshot.map (·.1)).getD 0 := by
  rw [Disk.covered, h.found]
  cases snapshot <;> rfl

omit [HashFunction] in
/-- What replay makes of a prefix of the recovered bytes. -/
theorem readJournal_front (left : Nat) : ∃ front back,
    (readJournal options disk.journal).records = front ++ back ∧
    (readJournal options ((disk.recovered options).take left)).records = front ∧
    ((∀ record ∈ back, record.Plain options) →
      (readJournal options ((disk.recovered options).take left)).damage = none ∨
        validRecordAfter options
          (readJournal options ((disk.recovered options).take left)).rest = false) := by
  obtain ⟨-, hframed⟩ := @readJournal_records options disk.journal
  obtain ⟨front, back, tail, hrecords, htake, htail⟩ :=
    take_journalOf (readJournal options disk.journal).records left
  have hfront : ∀ record ∈ front, record.Framed options := fun record hrecord =>
    hframed record (by rw [hrecords]; exact List.mem_append_left _ hrecord)
  rw [recovered_eq, htake, readJournal_journalOf hfront]
  refine ⟨front, back, hrecords, ?_⟩
  rcases htail with rfl | ⟨record, hrecord, k, hk, rfl⟩
  · simp [readJournal_nil]
  by_cases hnil : record.bytes.take k = []
  · rw [hnil]
    simp [readJournal_nil]
  · obtain ⟨detail, herror⟩ := readRecord_part
      (hframed record (by rw [hrecords]; exact List.mem_append_right _ hrecord)) hk
    rw [readJournal_error hnil herror]
    exact ⟨by simp, fun hplain => .inr ((hplain record hrecord).part hk)⟩

/-- Over a settled disk an interrupted open can be repeated. -/
theorem Reopens.of_settled (hopened : openOn options disk = .ok opened)
    (settled : disk.Settled options) {crashed : Disk} (interrupted : disk.Interrupted options crashed) :
    Reopens options crashed opened := by
  obtain ⟨snapshot, hopens, rfl⟩ := openOn_eq_ok.mp hopened
  cases interrupted with
  | untouched => exact ⟨_, hopened, rfl, rfl⟩
  | rewriting left =>
    obtain ⟨front, back, hrecords, hread, hdamage⟩ := @readJournal_front options disk left
    have hnone : ∀ records : List JournalRecord,
        records ⊆ (readJournal options disk.journal).records →
        (applyRecords ((snapshot.map (·.1)).getD 0) records).1 = [] := by
      intro records hsub
      rw [← hopens.covered]
      exact applyRecords_eq_nil_iff.mpr fun record hrecord => (settled record (hsub hrecord)).1
    refine ⟨_, openOn_eq_ok.mpr ⟨snapshot, ⟨hopens.found, ?_, ?_, ?_⟩, rfl⟩, rfl, ?_⟩
    · refine Nat.le_trans ?_ hopens.journal
      rw [Disk.recovered, List.length_take, List.length_take]
      omega
    · rw [hread, hnone front (by rw [hrecords]; exact List.subset_append_left _ _)]
      exact Nat.zero_le _
    · exact hdamage fun record hrecord =>
        (settled record (by rw [hrecords]; exact List.mem_append_right _ hrecord)).2
    · show (applyRecords _ _).1 = (applyRecords _ _).1
      rw [hread, hnone front (by rw [hrecords]; exact List.subset_append_left _ _),
        hnone _ (List.Subset.refl _)]

/-- An interrupted open leaves a settled disk settled, so crashes can repeat. -/
theorem settled_interrupted (settled : disk.Settled options) {crashed : Disk} (interrupted : disk.Interrupted options crashed) :
    crashed.Settled options := by
  cases interrupted with
  | untouched => exact settled
  | rewriting left =>
    obtain ⟨front, back, hrecords, hread, -⟩ := @readJournal_front options disk left
    intro record hrecord
    rw [hread] at hrecord
    exact settled record (by rw [hrecords]; exact List.mem_append_left _ hrecord)

/-- However often an open over a settled disk is interrupted, the next one
returns the same. -/
theorem Reopens.of_settled_repeated (hopened : openOn options disk = .ok opened)
    (settled : disk.Settled options) {crashed : Disk}
    (interrupted : Relation.ReflTransGen (Disk.Interrupted options) disk crashed) :
    Reopens options crashed opened ∧ crashed.Settled options := by
  induction interrupted with
  | refl => exact ⟨⟨_, hopened, rfl, rfl⟩, settled⟩
  | tail _ hlast ih =>
    obtain ⟨⟨again, hagain, hsnapshot, hrecords⟩, hsettled⟩ := ih
    obtain ⟨last, hopen, hsnapshot', hrecords'⟩ := Reopens.of_settled hagain hsettled hlast
    exact ⟨⟨last, hopen, hsnapshot'.trans hsnapshot, hrecords'.trans hrecords⟩,
      settled_interrupted hsettled hlast⟩

/-- A crash inside an open loses nothing exactly over a settled disk. -/
theorem recovery_crash_safe_iff (hopened : openOn options disk = .ok opened) :
    (∀ crashed : Disk, disk.Interrupted options crashed → Reopens options crashed opened) ↔
      disk.Settled options := by
  refine ⟨fun safe => ?_, fun settled crashed => Reopens.of_settled hopened settled⟩
  obtain ⟨snapshot, hopens, rfl⟩ := openOn_eq_ok.mp hopened
  intro record hrecord
  constructor
  · -- a crash right after the truncation leaves no record
    obtain ⟨again, hagain, -, hsame⟩ := safe _ (.rewriting 0)
    obtain ⟨snapshot', -, rfl⟩ := openOn_eq_ok.mp hagain
    have hnone : (applyRecords ((snapshot.map (·.1)).getD 0)
        (readJournal options disk.journal).records).1 = [] := by
      refine Eq.trans (Eq.symm hsame) ?_
      simp [PersistentStore.opened, readJournal_nil, applyRecords]
    rw [hopens.covered]
    exact applyRecords_eq_nil_iff.mp hnone record hrecord
  · -- a crash one byte before the end of the record leaves all of it but that byte
    obtain ⟨front, back, hrecords⟩ := List.append_of_mem hrecord
    obtain ⟨-, hframed⟩ := @readJournal_records options disk.journal
    have hpos : 0 < record.bytes.length := List.length_pos_of_ne_nil record.bytes_ne_nil
    obtain ⟨again, hagain, -, -⟩ := safe _
      (.rewriting ((journalOf front).length + (record.bytes.length - 1)))
    obtain ⟨snapshot', hopens', -⟩ := openOn_eq_ok.mp hagain
    have htake : (disk.recovered options).take ((journalOf front).length + (record.bytes.length - 1)) =
        journalOf front ++ record.bytes.dropLast := by
      rw [recovered_eq, hrecords, List.dropLast_eq_take]
      simp only [journalOf, List.flatMap_append, List.flatMap_cons]
      rw [List.take_length_add_append, List.take_append_of_le_length (by omega)]
    have hdamage := hopens'.damage
    rw [htake, readJournal_journalOf fun r hr =>
      hframed r (by rw [hrecords]; exact List.mem_append_left _ hr)] at hdamage
    have hne : record.bytes.dropLast ≠ [] := by
      have := record.length_bytes
      simp only [kRecordHeaderBytes] at this
      intro hnil
      have := congrArg List.length hnil
      rw [List.length_dropLast, List.length_nil] at this
      omega
    obtain ⟨detail, herror⟩ := readRecord_part (hframed record hrecord)
      (show record.bytes.length - 1 < record.bytes.length by omega)
    rw [← List.dropLast_eq_take] at herror
    rw [readJournal_error hne herror] at hdamage
    rcases hdamage with hnone | hfalse
    · cases hnone
    · exact hfalse

end PersistentStore

end

-- ---------------------------------------------------------------------------
-- One record and a crash after the truncation
-- ---------------------------------------------------------------------------

namespace PersistentStore

/-- A journal of one acknowledged record. -/
def oneRecord : Disk := { journal := ({ type := .worker, seq := 1, payload := [1] } : JournalRecord).bytes }

def oneOpened : Opened := PersistentStore.opened {} oneRecord none

theorem openOn_oneRecord : openOn {} oneRecord = .ok oneOpened := by
  refine openOn_eq_ok.mpr ⟨none, ⟨rfl, by decide, by decide +kernel, .inl (by decide +kernel)⟩, rfl⟩

theorem recovery_crash_safe_iff_oneRecord :
    openOn {} oneRecord = .ok oneOpened ∧
      ((∀ crashed : Disk, oneRecord.Interrupted {} crashed → Reopens {} crashed oneOpened) ↔
        oneRecord.Settled {}) :=
  ⟨openOn_oneRecord, recovery_crash_safe_iff openOn_oneRecord⟩

/-- The record is gone after a crash behind the truncation. -/
theorem not_recovery_crash_safe : ¬∀ (options : Options) (disk : Disk) (opened : Opened),
    openOn options disk = .ok opened →
    ∀ crashed : Disk, disk.Interrupted options crashed → Reopens options crashed opened := by
  intro h
  obtain ⟨again, hagain, -, hrecords⟩ := h {} oneRecord oneOpened openOn_oneRecord _ (.rewriting 0)
  obtain ⟨snapshot, -, rfl⟩ := openOn_eq_ok.mp hagain
  have hone : oneOpened.records.length = 1 := by decide +kernel
  rw [← hrecords] at hone
  simp [PersistentStore.opened, readJournal_nil, applyRecords] at hone

end PersistentStore

end DistributedCompilation
