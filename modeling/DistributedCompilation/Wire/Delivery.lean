import DistributedCompilation.Codec.RecordRoundTrip
import DistributedCompilation.Safety.Claims
import DistributedCompilation.Wire.Messages

/-!
# Distributed Compilation — messages that arrive

For each message `Complete` is what its decoder demands beyond what the encoder
writes, and a message is delivered exactly when it is complete. The control
record carries five handles and its reader refuses each that is zero, but no
control message the coordinator makes fills all five.
-/

namespace DistributedCompilation

namespace Wire

open Reader Decoder

-- ---------------------------------------------------------------------------
-- Reading to the end
-- ---------------------------------------------------------------------------

/-- A record that is read back under a condition is accepted under it. -/
theorem whole_map_iff {α : Type} {read : Reader α} {bytes : Bytes} {value found : α} {c : Prop}
    [Decidable c] {wrap : α → Message} (injective : Function.Injective wrap)
    (h : read.parse (bytes ++ []) = if c then some (found, []) else none) :
    (whole read bytes).map wrap = some (wrap value) ↔ c ∧ found = value := by
  rw [List.append_nil] at h
  unfold whole
  rw [h]
  by_cases hc : c
  · rw [if_pos hc, and_iff_right hc]
    exact Option.some_inj.trans injective.eq_iff
  · rw [if_neg hc]
    exact ⟨nofun, fun h => absurd h.1 hc⟩

/-- What was not written is absent, what was written is read under its condition. -/
theorem parse_readPresent {α β : Type} {read : Reader α} {absent value : α} {present : Bool}
    {part : Record} {ok : Prop} [Decidable ok] (f : α → Reader β) {rest : Bytes}
    (h : present = true → read.parse (part.bytes ++ rest) = if ok then some (value, rest) else none) :
    (readPresent absent read >>= f).parse ((writePresent present part).bytes ++ rest) =
      if present = true → ok then (f (if present then value else absent)).parse rest else none := by
  cases present with
  | false =>
    rw [if_pos (by simp)]
    refine parse_bind_of_parse ?_
    rw [readPresent, writePresent, Record.bytes_cons, List.append_assoc, parse_readBool]
    rfl
  | true =>
    simp only [forall_const, if_true]
    refine parse_bind_of_guard ?_
    rw [readPresent, writePresent, Record.bytes_cons, List.append_assoc, parse_readBool, if_pos rfl,
      if_pos rfl, h rfl]

-- ---------------------------------------------------------------------------
-- The codecs
-- ---------------------------------------------------------------------------

/-- What `read_control_record` demands. -/
abbrev Named (control : ControlMessage) : Prop :=
  control.session.isZero = false ∧ control.compilation.isZero = false ∧
    control.attempt.isZero = false ∧ control.lease.isZero = false ∧ control.commit.isZero = false

theorem parse_readControlRecord (control : ControlMessage) (rest : Bytes)
    (h : (writeControlRecord control).eachFits = true) :
    readControlRecord.parse ((writeControlRecord control).bytes ++ rest) =
      if Named control then some (control, rest) else none := by
  simp only [writeControlRecord, Record.eachFits_cons, Bool.and_eq_true] at h
  simp only [writeControlRecord, readControlRecord, Record.bytes_cons, Record.bytes_nil,
    List.append_assoc, List.nil_append, parse_readDomain, parse_readId, parse_readGen, parse_readEnum,
    parse_readStr, parse_readDigest, h, parse_pure, Named, ite_and]

theorem parse_readCommitMessage (message : CommitMessage) (rest : Bytes)
    (h : (encodeCommitMessage message).eachFits = true) :
    readCommitMessage.parse ((encodeCommitMessage message).bytes ++ rest) =
      if Named message.control ∧ message.commit.Acceptable then some (message, rest) else none := by
  simp only [encodeCommitMessage, Record.join_cons, Record.join_nil, Record.eachFits_append,
    Record.eachFits_cons, Bool.and_eq_true] at h
  obtain ⟨⟨hdomain, -⟩, hcontrol, hcommit, -⟩ := h
  simp only [encodeCommitMessage, readCommitMessage, Record.join_cons, Record.join_nil,
    Record.bytes_append, Record.bytes_cons, Record.bytes_nil, List.append_assoc, List.nil_append,
    parse_readDomain _ hdomain, parse_bind_of_guard (parse_readControlRecord _ _ hcontrol),
    parse_bind_of_guard (parse_decodeCommit _ _ hcommit), parse_pure, Named, ArtifactCommit.Acceptable,
    ite_and]

/-- What `decode_cache_report` demands. -/
abbrev CacheReportMessage.Readable (message : CacheReportMessage) : Prop :=
  message.decision.entry.isZero = false ∧ message.decision.mismatches.length ≤ 1024 ∧
    ((!message.entry.unitIdentity.isZero) = true → message.entry.Acceptable)

theorem parse_readCacheReport (message : CacheReportMessage) (rest : Bytes)
    (h : (encodeCacheReport message).eachFits = true) :
    readCacheReport.parse ((encodeCacheReport message).bytes ++ rest) =
      if message.Readable then some ({ message with
        entry := if !message.entry.unitIdentity.isZero then message.entry else {} }, rest) else none := by
  simp only [encodeCacheReport, writeList, Record.join_cons, Record.join_nil, Record.eachFits_append,
    Record.eachFits_cons, Record.eachFits_flatMap, Record.eachFits_nil, Bool.and_eq_true,
    List.all_eq_true] at h
  obtain ⟨hhead, ⟨hcount, hmismatches⟩, hentry, -⟩ := h
  have mismatches : ∀ x ∈ message.decision.mismatches, ∀ rest, readCacheMismatch.parse
      (Record.bytes [.str x.dimension, .str x.expected, .str x.actual] ++ rest) =
        if True then some (x, rest) else none := by
    intro x hx rest
    have hx := hmismatches x hx
    simp only [readCacheMismatch, Record.bytes_cons, Record.bytes_nil, List.append_assoc,
      List.nil_append, parse_readStr, hx, parse_pure, if_true]
  have entry (rest : Bytes) : (!message.entry.unitIdentity.isZero) = true →
      decodeCacheEntry.parse ((encodeCacheEntry message.entry).bytes ++ rest) =
        if message.entry.Acceptable then some (message.entry, rest) else none := by
    intro hpresent
    refine parse_decodeCacheEntry _ _ ?_
    simp only [writePresent, Record.eachFits_cons, Bool.and_eq_true] at hentry
    rw [if_pos hpresent] at hentry
    exact hentry.2
  simp only [encodeCacheReport, readCacheReport, writeList, Record.join_cons, Record.join_nil,
    Record.bytes_append, Record.bytes_cons, Record.bytes_nil, List.append_assoc, List.nil_append,
    parse_readDomain, parse_readEnum, parse_readStr, parse_readBool, parse_readId, parse_readList, hhead,
    hcount, parse_ite, parse_items _ _ mismatches, parse_readPresent _ (entry _), parse_pure]
  by_cases hle : 1024 < message.decision.mismatches.length
  · rw [if_pos hle, parse_refused, ite_self, if_neg]
    intro hreadable
    have := hreadable.2.1
    omega
  · have hsmall : message.decision.mismatches.length ≤ 1024 := by omega
    simp only [if_neg hle, CacheReportMessage.Readable, hsmall, true_and, ite_and, implies_true, if_true]

/-- What `decode_commit_response` demands. -/
abbrev CommitResponse.Readable (message : CommitResponse) : Prop :=
  ((!message.commit.id.isZero) = true → message.commit.Acceptable) ∧ message.validation.Acceptable

theorem parse_readCommitResponse (message : CommitResponse) (rest : Bytes)
    (h : (encodeCommitResponse message).eachFits = true) :
    readCommitResponse.parse ((encodeCommitResponse message).bytes ++ rest) =
      if message.Readable then some ({ message with
        commit := if !message.commit.id.isZero then message.commit else {} }, rest) else none := by
  simp only [encodeCommitResponse, Record.join_cons, Record.join_nil, Record.eachFits_append,
    Record.eachFits_cons, Bool.and_eq_true] at h
  obtain ⟨hhead, hcommit, hvalidation, -⟩ := h
  have commit (rest : Bytes) : (!message.commit.id.isZero) = true →
      decodeCommit.parse ((encodeCommit message.commit).bytes ++ rest) =
        if message.commit.Acceptable then some (message.commit, rest) else none := by
    intro hpresent
    refine parse_decodeCommit _ _ ?_
    simp only [writePresent, Record.eachFits_cons, Bool.and_eq_true] at hcommit
    rw [if_pos hpresent] at hcommit
    exact hcommit.2
  simp only [encodeCommitResponse, readCommitResponse, Record.join_cons, Record.join_nil,
    Record.bytes_append, Record.bytes_cons, Record.bytes_nil, List.append_assoc, List.nil_append,
    parse_readDomain, parse_readEnum, parse_readCode, parse_readStr, parse_readBool, hhead,
    parse_readPresent _ (commit _), parse_bind_of_guard (parse_decodeValidationReport _ _ hvalidation),
    parse_pure, CommitResponse.Readable, ite_and]

-- ---------------------------------------------------------------------------
-- Delivery
-- ---------------------------------------------------------------------------

/-- What the matching decoder demands of a message, and what the encoder has to write
for the message to come back whole. -/
def Message.Complete : Message → Prop
  | .control message => Named message
  | .commit message => Named message.control ∧ message.commit.Acceptable
  | .cacheReport message =>
    message.Readable ∧ (message.entry.unitIdentity.isZero = true → message.entry = {})
  | .commitResponse message => message.Readable ∧ (message.commit.id.isZero = true → message.commit = {})

/-- A part that comes back is the one written, or none was and it is the absent one. -/
theorem restored_iff {α : Type} {absence : Bool} {value absent : α} :
    (if !absence then value else absent) = value ↔ (absence = true → value = absent) := by
  cases absence
  · simp
  · simp [eq_comm]

/-- A message is delivered exactly if the writer takes it and it is complete. -/
theorem Message.delivered_iff (message : Message) :
    message.Delivered ↔ message.encode.fits = true ∧ message.Complete := by
  refine and_congr_right fun hfits => ?_
  have heach := Record.eachFits_of_fits hfits
  cases message with
  | control message =>
    have hinjective : Function.Injective Message.control := fun _ _ => Message.control.inj
    refine (whole_map_iff hinjective (parse_readControlRecord message [] heach)).trans ?_
    exact and_iff_left rfl
  | commit message =>
    have hinjective : Function.Injective Message.commit := fun _ _ => Message.commit.inj
    refine (whole_map_iff hinjective (parse_readCommitMessage message [] heach)).trans ?_
    exact and_iff_left rfl
  | cacheReport message =>
    have hinjective : Function.Injective Message.cacheReport := fun _ _ => Message.cacheReport.inj
    refine (whole_map_iff hinjective (parse_readCacheReport message [] heach)).trans ?_
    refine and_congr_right fun _ => ?_
    rw [← restored_iff]
    exact ⟨congrArg CacheReportMessage.entry, fun h => by rw [h]⟩
  | commitResponse message =>
    have hinjective : Function.Injective Message.commitResponse := fun _ _ => Message.commitResponse.inj
    refine (whole_map_iff hinjective (parse_readCommitResponse message [] heach)).trans ?_
    refine and_congr_right fun _ => ?_
    rw [← restored_iff]
    exact ⟨congrArg CommitResponse.commit, fun h => by rw [h]⟩

-- ---------------------------------------------------------------------------
-- What the coordinator sends
-- ---------------------------------------------------------------------------

/-- Each control message the coordinator makes leaves a handle of the record out: a
cancellation has no commit, a commit notification no lease, a shutdown nothing but its
session. -/
theorem not_named (s : State) (compilation : CompilationRecord) (attempt : CompilationAttempt)
    (commit : ArtifactCommit) (session : SessionId) (reason : Bytes) :
    ¬Named (cancelMessage s compilation attempt reason) ∧
      ¬Named (commitMessage session compilation attempt commit) ∧
      ¬Named { session, kind := .shutdown, reason } := by
  refine ⟨fun h => ?_, fun h => ?_, fun h => ?_⟩
  · exact Bool.noConfusion h.2.2.2.2
  · exact Bool.noConfusion h.2.2.2.1
  · exact Bool.noConfusion h.2.1

/-- A decision without a commit is answered with a commit no decoder accepts. -/
theorem commitResponse_readable {decision : CommitDecision} (h : (commitResponse decision).Readable) :
    decision.commit ≠ {} := by
  intro hnone
  unfold CommitResponse.Readable commitResponse at h
  rw [hnone] at h
  exact Bool.noConfusion (h.1 rfl).2.1

/-- A query that finds nothing is answered with an entry id no decoder accepts. -/
theorem cacheReport_readable [HashFunction] {i : Impl} {unitIdentity : Digest256}
    (h : (cacheReport i unitIdentity).Readable) :
    ∃ (id : CacheEntryId) (entry : CacheEntry), i.state.cacheIndex[unitIdentity]? = some id ∧
      i.state.cacheEntries[id]? = some entry := by
  have hentry := h.1
  simp only [cacheReport, cacheQuery] at hentry
  split at hentry
  next => cases hentry
  next id hid =>
    split at hentry
    next => cases hentry
    next entry hfound => exact ⟨id, entry, hid, hfound⟩

end Wire

-- ---------------------------------------------------------------------------
-- A shutdown
-- ---------------------------------------------------------------------------

/-- A worker is registered and the sessions are shut down. -/
def shutDown : System := System.perform [.registerWorker smallWorker, .shutdownSessions] volatileFirst

set_option maxRecDepth 100000 in
theorem shutDown_checks : shutDown.impl.state.controls.map (fun control =>
    (control.kind, control.compilation)) = [(.shutdown, {})] := by decide +kernel

end DistributedCompilation
