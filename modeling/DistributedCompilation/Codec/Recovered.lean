import DistributedCompilation.Codec.RegistryRoundTrip
import DistributedCompilation.Domain.Identification
import DistributedCompilation.Coordinator.Lifecycle

/-!
# Distributed Compilation — what is known of a recovered state

Whatever a snapshot and a journal hold: as far as they decode, workers and
compilations come back under their own ids, and every worker has a boot. The
header is that of the snapshot; no journal record rewrites it.
-/

namespace DistributedCompilation

open Decoder Reader

-- ---------------------------------------------------------------------------
-- Tables
-- ---------------------------------------------------------------------------

/-- A table read back holds what was read, each record under its own key. -/
theorem of_tableOf {κ α : Type} [Ord κ] [Std.TransOrd κ] [Std.LawfulEqOrd κ] [DecidableEq κ]
    {key : α → κ} {records : List α} {k : κ} {v : α} (h : (tableOf key records)[k]? = some v) :
    key v = k ∧ v ∈ records := by
  unfold tableOf at h
  induction records using List.reverseRecOn with
  | nil =>
    rw [List.foldl_nil, Table.get_empty] at h
    cases h
  | append_singleton records record ih =>
    rw [List.foldl_append, List.foldl_cons, List.foldl_nil, Table.get_insert] at h
    split at h
    next hkey =>
      obtain rfl := Option.some.inj h
      exact ⟨hkey, by simp⟩
    next =>
      obtain ⟨hkey, hmem⟩ := ih h
      exact ⟨hkey, List.mem_append_left _ hmem⟩

/-- The values of a row are values the decoder read. -/
theorem of_parse_replicate {τ ε α : Type} {d : Decoder τ ε α} {n : Nat} {input rest : List τ}
    {values : List α} (h : (Decoder.replicate d n).parse input = some (values, rest)) :
    ∀ v ∈ values, ∃ i r, d.parse i = some (v, r) := by
  induction n generalizing input values with
  | zero =>
    rw [Decoder.replicate, parse_pure] at h
    cases h
    intro v hv
    cases hv
  | succ n ih =>
    rw [Decoder.replicate, parse_bind] at h
    obtain ⟨⟨value, mid⟩, hvalue, h⟩ := Option.bind_eq_some_iff.mp h
    rw [parse_bind] at h
    obtain ⟨⟨others, last⟩, hothers, h⟩ := Option.bind_eq_some_iff.mp h
    cases h
    intro v hv
    rcases List.mem_cons.mp hv with rfl | hv
    · exact ⟨input, mid, hvalue⟩
    · exact ih hothers v hv

theorem of_parse_readTable {α : Type} {stage : String} {d : Reader α} {input rest : Bytes}
    {values : List α} (h : (readTable stage d).parse input = some (values, rest)) :
    ∀ v ∈ values, ∃ i r, d.parse i = some (v, r) := by
  rw [readTable, staged, parse_mapError, parse_bind] at h
  obtain ⟨⟨count, mid⟩, -, h⟩ := Option.bind_eq_some_iff.mp h
  rw [parse_ite] at h
  split at h
  · cases h
  · exact of_parse_replicate h

-- ---------------------------------------------------------------------------
-- Workers
-- ---------------------------------------------------------------------------

theorem ne_zero_of_parse_readId {tag : IdTag} {input rest : Bytes} {id : Id tag}
    (h : readId.parse input = some (id, rest)) : id.isZero = false := by
  rw [readId, parse_bind] at h
  obtain ⟨⟨raw, mid⟩, -, h⟩ := Option.bind_eq_some_iff.mp h
  simp only at h
  split at h
  · cases h
  next hraw =>
    cases h
    simp only [beq_iff_eq, Id.isZero, beq_eq_false_iff_ne] at hraw ⊢
    exact fun hzero => hraw (UInt64.toNat_inj.mp hzero)

variable [HashFunction]

/-- A worker without a boot does not decode. -/
theorem boot_of_parse_decodeWorker {input rest : Bytes} {worker : WorkerRecord}
    (h : decodeWorker.parse input = some (worker, rest)) : worker.boot.isZero = false := by
  rw [decodeWorker, parse_bind] at h
  obtain ⟨⟨id, _⟩, -, h⟩ := Option.bind_eq_some_iff.mp h
  rw [parse_bind] at h
  obtain ⟨⟨boot, _⟩, hboot, h⟩ := Option.bind_eq_some_iff.mp h
  iterate 18
    rw [parse_bind] at h
    obtain ⟨_, -, h⟩ := Option.bind_eq_some_iff.mp h
  cases h
  exact ne_zero_of_parse_readId hboot

-- ---------------------------------------------------------------------------
-- States
-- ---------------------------------------------------------------------------

/-- Workers and compilations stand under their own ids. -/
structure State.Keyed (s : State) : Prop where
  worker : ∀ (id : WorkerId) (worker : WorkerRecord), s.workers[id]? = some worker → worker.id = id
  compilation : ∀ (id : CompilationId) (record : CompilationRecord),
    s.compilations[id]? = some record → record.id = id

/-- And every worker has a boot. -/
structure State.Booted (s : State) : Prop extends s.Keyed where
  boot : ∀ (id : WorkerId) (worker : WorkerRecord), s.workers[id]? = some worker →
    worker.boot.isZero = false

omit [HashFunction] in
theorem State.Booted.initial : State.Booted {} where
  worker _ _ h := by cases h
  compilation _ _ h := by cases h
  boot _ _ h := by cases h

theorem booted_decodeState {bytes : Bytes} {s : State} (h : decodeState bytes = .ok s) : s.Booted := by
  have hread : ∃ rest, readState.parse bytes = some (s, rest) := by
    unfold decodeState at h
    split at h
    · cases h
    next state rest hrun =>
      split at h
      · cases h
        exact ⟨rest, parse_of_run hrun⟩
      · cases h
  obtain ⟨rest, hread⟩ := hread
  rw [readState] at hread
  -- the header and seven registries stand before the workers
  iterate 8
    rw [parse_bind] at hread
    obtain ⟨_, -, hread⟩ := Option.bind_eq_some_iff.mp hread
  rw [parse_bind] at hread
  obtain ⟨⟨workers, _⟩, hworkers, hread⟩ := Option.bind_eq_some_iff.mp hread
  iterate 13
    rw [parse_bind] at hread
    obtain ⟨_, -, hread⟩ := Option.bind_eq_some_iff.mp hread
  cases hread
  refine ⟨⟨fun id worker hworker => (of_tableOf hworker).1,
    fun id record hrecord => (of_tableOf hrecord).1⟩, fun id worker hworker => ?_⟩
  obtain ⟨i, r, hparse⟩ := of_parse_readTable hworkers worker (of_tableOf hworker).2
  exact boot_of_parse_decodeWorker hparse

theorem booted_replayRecord {s s' : State} {record : RecordType × Bytes} (hs : s.Booted)
    (h : replayRecord s record = .ok s') : s'.Booted ∧ s'.header = s.header := by
  unfold replayRecord at h
  split at h
  case h_1 =>
    obtain ⟨worker, hworker, h⟩ := bind_eq_ok_iff.mp h
    cases h
    have hboot : worker.boot.isZero = false := by
      unfold orCorrupt at hworker
      split at hworker
      next decoded hdecoded =>
        cases hworker
        obtain ⟨⟨decoded, rest⟩, hparse, rfl⟩ := Option.map_eq_some_iff.mp hdecoded
        exact boot_of_parse_decodeWorker hparse
      next => cases hworker
    refine ⟨⟨⟨fun id old hold => ?_, hs.compilation⟩, fun id old hold => ?_⟩, rfl⟩
    · rw [Table.get_insert] at hold
      split at hold
      next hkey =>
        obtain rfl := Option.some.inj hold
        exact hkey
      next => exact hs.worker id old hold
    · rw [Table.get_insert] at hold
      split at hold
      next hkey =>
        obtain rfl := Option.some.inj hold
        exact hboot
      next => exact hs.boot id old hold
  case h_2 =>
    obtain ⟨compilation, -, h⟩ := bind_eq_ok_iff.mp h
    cases h
    refine ⟨⟨⟨hs.worker, fun id old hold => ?_⟩, hs.boot⟩, rfl⟩
    rw [Table.get_insert] at hold
    split at hold
    next hkey =>
      obtain rfl := Option.some.inj hold
      exact hkey
    next => exact hs.compilation id old hold
  all_goals
    first
      | (obtain ⟨value, -, h⟩ := bind_eq_ok_iff.mp h; cases h; exact ⟨⟨⟨hs.worker, hs.compilation⟩, hs.boot⟩, rfl⟩)
      | (cases h; exact ⟨⟨⟨hs.worker, hs.compilation⟩, hs.boot⟩, rfl⟩)

theorem booted_replay {s s' : State} {journal : List (RecordType × Bytes)} (hs : s.Booted)
    (h : replay s journal = .ok s') : s'.Booted ∧ s'.header = s.header := by
  unfold replay at h
  induction journal generalizing s with
  | nil =>
    cases h
    exact ⟨hs, rfl⟩
  | cons record journal ih =>
    rw [List.foldlM_cons] at h
    obtain ⟨mid, hmid, h⟩ := bind_eq_ok_iff.mp h
    obtain ⟨hbooted, hheader⟩ := booted_replayRecord hs hmid
    obtain ⟨hbooted', hheader'⟩ := ih hbooted h
    exact ⟨hbooted', hheader'.trans hheader⟩

/-- A recovered state is keyed, and its workers have booted. -/
theorem Store.booted_of_recover {store : Store} {s : State} (h : store.recover = .ok s) : s.Booted := by
  obtain ⟨base, hbase, hreplay⟩ := bind_eq_ok_iff.mp h
  refine (booted_replay ?_ hreplay).1
  unfold decodeSnapshot at hbase
  split at hbase
  · cases hbase
    exact .initial
  · split at hbase
    next decoded hdecode =>
      cases hbase
      exact booted_decodeState hdecode
    next => cases hbase

/-- The header of a snapshot is read back. -/
theorem header_decodeState {saved s : State} (hfits : (encodeState saved).eachFits = true)
    (h : decodeState (encodeState saved).bytes = .ok s) : s.header = saved.header := by
  have hread : ∃ rest, readState.parse (encodeState saved).bytes = some (s, rest) := by
    unfold decodeState at h
    split at h
    · cases h
    next state rest hrun =>
      split at h
      · cases h
        exact ⟨rest, parse_of_run hrun⟩
      · cases h
  obtain ⟨rest, hread⟩ := hread
  simp only [encodeState, Record.join_cons, Record.eachFits_append, Bool.and_eq_true] at hfits
  simp only [encodeState, Record.join_cons, Record.bytes_append] at hread
  rw [readState, parse_bind_of_parse (parse_decodeHeader _ hfits.1)] at hread
  iterate 21
    rw [parse_bind] at hread
    obtain ⟨_, -, hread⟩ := Option.bind_eq_some_iff.mp hread
  cases hread
  rfl

/-- A state that is recovered over a snapshot has the header of the snapshot. -/
theorem Store.header_of_recover {store : Store} {saved s : State}
    (fits : (encodeState saved).fits = true) (payload : store.snapshot = (encodeState saved).bytes)
    (h : store.recover = .ok s) : s.header = saved.header := by
  obtain ⟨base, hbase, hreplay⟩ := bind_eq_ok_iff.mp h
  simp only [Record.fits, Bool.and_eq_true] at fits
  unfold decodeSnapshot at hbase
  have hne : store.snapshot.isEmpty = false := by
    rw [payload]
    rfl
  rw [hne, payload] at hbase
  simp only [Bool.false_eq_true, if_false] at hbase
  split at hbase
  next decoded hdecode =>
    cases hbase
    rw [(booted_replay (booted_decodeState hdecode) hreplay).2]
    exact header_decodeState fits.1 hdecode
  next => cases hbase

end DistributedCompilation
