import DistributedCompilation.Storage.Recovery

/-!
# Distributed Compilation — the durability contract

Which appends a reopened journal still knows when some of them fail, and what a
crash around a snapshot leaves.

A failed append leaves bytes behind and does not take its sequence number, so
the next append writes another record under the same number, or behind a torn
one. `Recoverable` describes the runs in which that does no harm.
-/

namespace DistributedCompilation

-- ---------------------------------------------------------------------------
-- Failing appends
-- ---------------------------------------------------------------------------

/-- One call of `append`, with the failure it meets. -/
structure AppendCall where
  type : RecordType
  payload : Bytes
  fault : Option WriteFault := none

namespace AppendCall

def record (seq : Nat) (call : AppendCall) : JournalRecord :=
  { type := call.type, seq := seq + 1, payload := call.payload }

/-- What a call that fails leaves in the file; `none` when the call succeeds. -/
def left (options : Options) (seq : Nat) (call : AppendCall) : Option Bytes :=
  if options.maxRecordBytes.toNat < call.payload.length then some []
  else match call.fault with
    | none => none
    | some (.header n) => some ((call.record seq).header.take n)
    | some (.payload n) =>
      if call.payload.isEmpty then none
      else some ((call.record seq).header ++ call.payload.take n)
    | some .sync => some (call.record seq).bytes

end AppendCall

/-- What calls that all fail leave in the file. -/
def leftAll (options : Options) (seq : Nat) (calls : List AppendCall) : Bytes :=
  calls.flatMap fun call => (call.left options seq).getD []

/-- The bytes failed appends leave do no harm: a whole record left behind is
followed by a successful append of the same record only, and a torn one by
failures only, with no structurally valid record in what they leave. `pending`
is the whole record that was left behind last. -/
def Recoverable (options : Options) : Nat → Option JournalRecord → List AppendCall → Prop
  | _, _, [] => True
  | seq, pending, call :: calls =>
    match call.left options seq with
    | none =>
      (∀ record ∈ pending, record = call.record seq) ∧ Recoverable options (seq + 1) none calls
    | some bytes =>
      if bytes = [] then Recoverable options seq pending calls
      else if bytes = (call.record seq).bytes then
        Recoverable options seq (some (pending.getD (call.record seq))) calls
      else
        (∀ later ∈ calls, (later.left options seq).isSome) ∧
          ∀ rest, rest <:+ bytes ++ leftAll options seq calls → structurallyValid options rest = false

/-- The records of such a run that a replay applies. -/
def written (options : Options) : Nat → Option JournalRecord → List AppendCall → List JournalRecord
  | _, _, [] => []
  | seq, pending, call :: calls =>
    let new := if pending.isSome then [] else [call.record seq]
    match call.left options seq with
    | none => new ++ written options (seq + 1) none calls
    | some bytes =>
      if bytes = [] then written options seq pending calls
      else if bytes = (call.record seq).bytes then
        new ++ written options seq (some (pending.getD (call.record seq))) calls
      else []

section

variable [HashFunction]

namespace PersistentStore

/-- Appends call after call on one store, with the records whose append returned
success. -/
def appendAll : PersistentStore → List AppendCall → PersistentStore × List JournalRecord
  | store, [] => (store, [])
  | store, call :: calls =>
    match store.append call.type call.payload call.fault with
    | (.ok (), after) =>
      let (last, acknowledged) := appendAll after calls
      (last, call.record store.seq :: acknowledged)
    | (.error _, after) => appendAll after calls

/-- The store with more bytes in its journal. -/
def wrote (store : PersistentStore) (bytes : Bytes) : PersistentStore :=
  { store with disk := { store.disk with journal := store.disk.journal ++ bytes } }

omit [HashFunction] in
@[simp] theorem wrote_options (store : PersistentStore) (bytes : Bytes) :
    (store.wrote bytes).options = store.options := rfl

omit [HashFunction] in
@[simp] theorem wrote_seq (store : PersistentStore) (bytes : Bytes) :
    (store.wrote bytes).seq = store.seq := rfl

omit [HashFunction] in
theorem append_eq {store : PersistentStore} (hopen : store.isOpen = true) (call : AppendCall) :
    (call.left store.options store.seq = none ∧
      call.payload.length ≤ store.options.maxRecordBytes.toNat ∧
      store.append call.type call.payload call.fault =
        (.ok (), { store.wrote (call.record store.seq).bytes with seq := store.seq + 1 })) ∨
    ∃ bytes status, call.left store.options store.seq = some bytes ∧
      (bytes ≠ [] → call.payload.length ≤ store.options.maxRecordBytes.toNat) ∧
      store.append call.type call.payload call.fault = (.error status, store.wrote bytes) := by
  obtain ⟨type, payload, fault⟩ := call
  obtain ⟨options, isOpen, seq, disk⟩ := store
  obtain rfl : isOpen = true := hopen
  simp only [append, appendRaw, AppendCall.left, AppendCall.record, not_true_eq_false, if_false]
  by_cases hbound : options.maxRecordBytes.toNat < payload.length
  · rw [if_pos hbound, if_pos hbound]
    exact .inr ⟨[], _, rfl, fun h => absurd rfl h, by simp [failure, wrote]; rfl⟩
  · rw [if_neg hbound, if_neg hbound]
    have hle := Nat.not_lt.mp hbound
    rcases fault with _ | n | n | _
    · exact .inl ⟨rfl, hle, rfl⟩
    · exact .inr ⟨_, _, rfl, fun _ => hle, rfl⟩
    · cases payload with
      | nil => exact .inl ⟨rfl, hle, rfl⟩
      | cons => exact .inr ⟨_, _, rfl, fun _ => hle, rfl⟩
    · exact .inr ⟨_, _, rfl, fun _ => hle, rfl⟩

omit [HashFunction] in
/-- A run of failures leaves what its calls leave. -/
theorem appendAll_failed {store : PersistentStore} (hopen : store.isOpen = true)
    {calls : List AppendCall} (h : ∀ call ∈ calls, (call.left store.options store.seq).isSome) :
    store.appendAll calls = (store.wrote (leftAll store.options store.seq calls), []) := by
  induction calls generalizing store with
  | nil => simp [appendAll, leftAll, wrote]
  | cons call calls ih =>
    obtain ⟨hleft, -⟩ | ⟨bytes, status, hleft, -, happend⟩ := append_eq hopen call
    · simpa [hleft] using h call List.mem_cons_self
    · rw [appendAll, happend]
      simp only
      rw [@ih (store.wrote bytes) hopen fun later hlater => h later (List.mem_cons_of_mem _ hlater)]
      simp [leftAll, hleft, wrote]

omit [HashFunction] in
/-- What a recoverable run leaves in the journal: whole records, of which a
replay applies those in `written`, and a tail without a valid record. -/
theorem appendAll_recoverable {store : PersistentStore} (hopen : store.isOpen = true)
    {pending : Option JournalRecord} {calls : List AppendCall}
    (h : Recoverable store.options store.seq pending calls) :
    ∃ (records : List JournalRecord) (tail : Bytes),
      (store.appendAll calls).1.disk = (store.wrote (journalOf records ++ tail)).disk ∧
      (∀ record ∈ records, record.payload.length ≤ store.options.maxRecordBytes.toNat ∧
        record.seq ≤ store.seq + calls.length) ∧
      (∀ rest, tail ≠ [] → rest <:+ tail → structurallyValid store.options rest = false) ∧
      (applyRecords (if pending.isSome then store.seq + 1 else store.seq) records).1 =
        written store.options store.seq pending calls ∧
      (store.appendAll calls).2.Sublist
        (pending.toList ++ written store.options store.seq pending calls) := by
  induction calls generalizing store pending with
  | nil => exact ⟨[], [], by simp [appendAll, wrote, journalOf], by simp, by simp, rfl, by simp [appendAll]⟩
  | cons call calls ih =>
    obtain ⟨hleft, hbound, happend⟩ | ⟨bytes, status, hleft, hbound, happend⟩ := append_eq hopen call
    · -- the call succeeds
      simp only [Recoverable, hleft] at h
      obtain ⟨hpending, hrest⟩ := h
      obtain ⟨records, tail, hdisk, hrecords, htail, happly, hsub⟩ :=
        @ih { store.wrote (call.record store.seq).bytes with seq := store.seq + 1 } hopen none hrest
      refine ⟨call.record store.seq :: records, tail, ?_, ?_, htail, ?_, ?_⟩
      · rw [appendAll, happend]
        simpa [wrote, journalOf] using hdisk
      · intro record hrecord
        rcases List.mem_cons.mp hrecord with rfl | hrecord
        · exact ⟨hbound, by simp [AppendCall.record]⟩
        · obtain ⟨hlong, hseq⟩ := hrecords record hrecord
          exact ⟨hlong, by simp at hseq ⊢; omega⟩
      · simp only [written, hleft]
        cases pending with
        | none => simpa [applyRecords, AppendCall.record] using happly
        | some record => simpa [applyRecords, AppendCall.record] using happly
      · rw [appendAll, happend]
        simp only [written, hleft]
        cases pending with
        | none => simpa using hsub
        | some record =>
          obtain rfl := hpending record rfl
          simpa using hsub
    · simp only [Recoverable, hleft] at h
      have hstep : store.appendAll (call :: calls) = (store.wrote bytes).appendAll calls := by
        rw [appendAll, happend]
      rw [hstep]
      split at h
      next hempty =>
        -- nothing is left behind
        subst hempty
        obtain ⟨records, tail, hdisk, hrecords, htail, happly, hsub⟩ :=
          @ih (store.wrote []) hopen _ h
        refine ⟨records, tail, by simpa [wrote] using hdisk, fun record hrecord => ?_, htail,
          by simpa [written, hleft] using happly, by simpa [written, hleft] using hsub⟩
        obtain ⟨hlong, hseq⟩ := hrecords record hrecord
        exact ⟨hlong, by simp [wrote] at hseq ⊢; omega⟩
      next hne =>
      split at h
      next hwhole =>
        -- the whole record is left behind, unacknowledged
        subst hwhole
        obtain ⟨records, tail, hdisk, hrecords, htail, happly, hsub⟩ :=
          @ih (store.wrote (call.record store.seq).bytes) hopen _ h
        refine ⟨call.record store.seq :: records, tail, by simpa [wrote, journalOf] using hdisk, ?_, htail,
          ?_, ?_⟩
        · intro record hrecord
          rcases List.mem_cons.mp hrecord with rfl | hrecord
          · exact ⟨hbound hne, by simp [AppendCall.record]⟩
          · obtain ⟨hlong, hseq⟩ := hrecords record hrecord
            exact ⟨hlong, by simp [wrote] at hseq ⊢; omega⟩
        · simp only [written, hleft, if_neg hne, if_true]
          cases pending with
          | none => simpa [applyRecords, AppendCall.record, wrote] using happly
          | some record => simpa [applyRecords, AppendCall.record, wrote] using happly
        · simp only [written, hleft, if_neg hne, if_true]
          cases pending with
          | none => simpa [wrote] using hsub
          | some record => simpa [wrote] using hsub
      next htorn =>
        -- a torn record, and only failures after it
        obtain ⟨hfail, hvalid⟩ := h
        rw [@appendAll_failed (store.wrote bytes) hopen _ hfail]
        exact ⟨[], bytes ++ leftAll store.options store.seq calls, by simp [wrote, journalOf], by simp,
          fun rest _ hrest => hvalid rest hrest,
          by simp [written, hleft, hne, htorn, applyRecords], by simp⟩

omit [HashFunction] in
/-- A disk that only differs in its journal has the same snapshot. -/
theorem appendAll_snapshot (store : PersistentStore) (calls : List AppendCall) :
    (store.appendAll calls).1.disk.snapshot = store.disk.snapshot := by
  induction calls generalizing store with
  | nil => rfl
  | cons call calls ih =>
    have happend : (store.append call.type call.payload call.fault).2.disk.snapshot =
        store.disk.snapshot := by
      simp only [append, appendRaw]
      split <;> rename_i h <;> (repeat' split at h) <;> cases h <;> rfl
    rw [appendAll]
    split
    next after hafter => rw [hafter] at happend; exact (ih after).trans happend
    next status after hafter => rw [hafter] at happend; exact (ih after).trans happend

end PersistentStore

/-- What reopening a journal promises after some appends: the records recovered
before them and those whose append returned success, in order and, as sequence
numbers increase, each once. -/
def Durable (options : Options) (opened : Opened) (calls : List AppendCall) : Prop :=
  ∃ reopened, PersistentStore.openOn options (opened.store.appendAll calls).1.disk = .ok reopened ∧
    reopened.records.Pairwise (·.seq < ·.seq) ∧
    (opened.records ++ (opened.store.appendAll calls).2).Sublist reopened.records

/-- The journal returns what it acknowledged when failed appends leave nothing
harmful behind and the bounds of a replay are kept. -/
theorem durable_of_recoverable {options : Options} {disk : Disk} {opened : Opened}
    (hopened : PersistentStore.openOn options disk = .ok opened) (calls : List AppendCall)
    (recoverable : Recoverable options opened.store.seq none calls)
    (numbers : opened.store.seq + calls.length < 256 ^ 8)
    (size : (opened.store.appendAll calls).1.disk.journal.length ≤ kMaxJournalBytes)
    (budget : opened.records.length + (written options opened.store.seq none calls).length ≤
      options.maxReplayRecords.toNat) : Durable options opened calls := by
  obtain ⟨snapshot, hopens, rfl⟩ := PersistentStore.openOn_eq_ok.mp hopened
  obtain ⟨good, hgood, hmore⟩ := @readJournal_good options disk.journal
  have hjournal : (PersistentStore.opened options disk snapshot).store.disk.journal = good := by
    have hlength : disk.journal.length - (readJournal options disk.journal).rest.length = good.length := by
      have := congrArg List.length hgood
      rw [List.length_append] at this
      omega
    show disk.journal.take _ = good
    rw [hlength]
    conv_lhs => rw [hgood]
    exact List.take_left
  obtain ⟨records, tail, hdisk, hrecords, htail, happly, hsub⟩ :=
    @PersistentStore.appendAll_recoverable (PersistentStore.opened options disk snapshot).store rfl _ _
      recoverable
  have hbytes : ((PersistentStore.opened options disk snapshot).store.appendAll calls).1.disk.journal =
      good ++ (journalOf records ++ tail) := by
    rw [hdisk, PersistentStore.wrote, hjournal]
  rw [hbytes] at size
  -- a record that is in the journal fits its size field
  have hframed : ∀ record ∈ records, record.Framed options := by
    intro record hrecord
    obtain ⟨hlong, hseq⟩ := hrecords record hrecord
    refine ⟨hlong, ?_, by omega⟩
    obtain ⟨front, back, rfl⟩ := List.append_of_mem hrecord
    simp only [journalOf, List.flatMap_append, List.flatMap_cons, List.length_append,
      JournalRecord.length_bytes, kMaxJournalBytes, kRecordHeaderBytes] at size
    omega
  have hread : readJournal options (good ++ (journalOf records ++ tail)) =
      { readJournal options tail with
        records := (readJournal options disk.journal).records ++
          (records ++ (readJournal options tail).records) } := by
    rw [hmore, readJournal_journalOf hframed]
  -- the tail adds nothing and does not stop the open
  have htorn : (readJournal options tail).records = [] ∧
      ((readJournal options tail).damage = none ∨
        validRecordAfter options (readJournal options tail).rest = false) := by
    by_cases hne : tail = []
    · subst hne
      exact ⟨rfl, .inl rfl⟩
    · obtain ⟨detail, hdamage, hvalid⟩ :=
        @readJournal_torn options _ hne fun rest => htail rest hne
      rw [hdamage]
      exact ⟨rfl, .inr hvalid⟩
  have happlied : applyRecords ((snapshot.map (·.1)).getD 0)
      (readJournal options (good ++ (journalOf records ++ tail))).records =
        ((PersistentStore.opened options disk snapshot).records ++
          written options (PersistentStore.opened options disk snapshot).store.seq none calls,
          (applyRecords (PersistentStore.opened options disk snapshot).store.seq records).2) := by
    rw [hread]
    simp only [htorn.1, List.append_nil, applyRecords_append]
    exact congrArg (fun new => (_ ++ new, _)) happly
  refine ⟨_, PersistentStore.openOn_eq_ok.mpr ⟨snapshot, ⟨?_, ?_, ?_, ?_⟩, rfl⟩,
    (pairwise_applyRecords _ _).1, ?_⟩
  · have := hopens.found
    rw [Disk.readSnapshot] at this ⊢
    rwa [PersistentStore.appendAll_snapshot]
  · rwa [hbytes]
  · rw [hbytes, happlied, List.length_append]
    exact budget
  · rw [hbytes, hread]
    exact htorn.2
  · show ((_ : List JournalRecord) ++ _).Sublist (applyRecords _ _).1
    rw [hbytes, happlied]
    exact (List.Sublist.refl _).append hsub

end

-- ---------------------------------------------------------------------------
-- A failed sync and the next append
-- ---------------------------------------------------------------------------

def emptyOpened : Opened where
  records := []
  snapshot := none
  store := { isOpen := true }

theorem openOn_empty : PersistentStore.openOn {} {} = .ok emptyOpened := rfl

/-- The caller appends the same record again. -/
def retriedSync : List AppendCall :=
  [{ type := .worker, payload := [1], fault := some .sync }, { type := .worker, payload := [1] }]

theorem durable_retriedSync : Durable {} emptyOpened retriedSync :=
  durable_of_recoverable openOn_empty retriedSync
    (by simp [Recoverable, retriedSync, AppendCall.left, AppendCall.record, emptyOpened])
    (by decide) (by decide +kernel) (by decide +kernel)

/-- The caller appends another record. -/
def failedSync : List AppendCall :=
  [{ type := .worker, payload := [1], fault := some .sync }, { type := .worker, payload := [2] }]

/-- The record that failed is replayed, the acknowledged one is not. -/
theorem not_durable_failedSync : ¬∀ (options : Options) (disk : Disk) (opened : Opened)
    (calls : List AppendCall), PersistentStore.openOn options disk = .ok opened →
    Durable options opened calls := by
  intro h
  obtain ⟨reopened, hopened, -, hsub⟩ := h {} {} emptyOpened failedSync openOn_empty
  have hrecords : (PersistentStore.openOn {} (emptyOpened.store.appendAll failedSync).1.disk).toOption.map
      (·.records) = some [{ type := .worker, seq := 1, payload := [1] }] := by decide +kernel
  have hacknowledged : (emptyOpened.store.appendAll failedSync).2 =
      [{ type := .worker, seq := 1, payload := [2] }] := by decide +kernel
  rw [hopened] at hrecords
  have hreplayed : reopened.records = _ := Option.some.inj hrecords
  rw [hacknowledged, hreplayed] at hsub
  exact absurd hsub (by decide)

end DistributedCompilation
