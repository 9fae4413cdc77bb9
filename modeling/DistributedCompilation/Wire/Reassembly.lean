import DistributedCompilation.Lib.Splitter
import DistributedCompilation.Wire.Framing

/-!
# Distributed Compilation — reassembly

The `FrameReader` on arbitrary bytes, not only on those of well formed frames. A
feed cuts the buffer by the length fields it finds there; the chunks a stream
arrives in do not matter, up to the first error.
-/

namespace DistributedCompilation.Wire

/-- What the loop of `feed` finds at the front of its buffer. -/
def frameCut (bound : Nat) (buffer : Bytes) : Cut Status :=
  if buffer.length < kWireHeaderBytes then .wait
  else if getAt buffer 4 4 ≠ kWireMagic then .refuse ⟨.protocolViolation, txt "frame magic mismatch"⟩
  else if getAt buffer 0 4 < kWireHeaderBytes - 4 ∨ bound < getAt buffer 0 4 then
    .refuse ⟨.frameTooLarge, txt "frame length out of bounds"⟩
  else if buffer.length < getAt buffer 0 4 + 4 then .wait
  else .emit (getAt buffer 0 4 + 4)

/-- A complete frame for a reader of the bound: the magic is there and the length field
is within its bounds. -/
structure Bounded (bound : Nat) (frame : Bytes) : Prop where
  magic : getAt frame 4 4 = kWireMagic
  header : kWireHeaderBytes - 4 ≤ getAt frame 0 4
  bounded : getAt frame 0 4 ≤ bound
  length : frame.length = getAt frame 0 4 + 4

theorem frameCut_emit {bound n : Nat} {buffer : Bytes} (h : frameCut bound buffer = .emit n) :
    n ≤ buffer.length ∧ Bounded bound (buffer.take n) := by
  unfold frameCut at h
  split at h
  next => cases h
  next hlong =>
  split at h
  next => cases h
  next hmagic =>
  split at h
  next => cases h
  next hbounds =>
  split at h
  next => cases h
  next hwhole =>
  cases h
  have hheader : 8 ≤ getAt buffer 0 4 + 4 := by
    unfold kWireHeaderBytes at hbounds
    omega
  have field (offset : Nat) (hoffset : offset + 4 ≤ 8) :
      getAt (buffer.take (getAt buffer 0 4 + 4)) offset 4 = getAt buffer offset 4 := by
    have hmin : min 4 (getAt buffer 0 4 + 4 - offset) = 4 := by omega
    unfold getAt at hmin ⊢
    rw [List.drop_take, List.take_take, hmin]
  refine ⟨by omega, ?_, ?_, ?_, ?_⟩
  · rw [field 4 (by omega)]
    exact not_not.mp hmagic
  · rw [field 0 (by omega)]
    omega
  · rw [field 0 (by omega)]
    omega
  · rw [field 0 (by omega), List.length_take]
    omega

/-- A frame has a header. -/
theorem Bounded.length_ge {bound : Nat} {frame : Bytes} (h : Bounded bound frame) : kWireHeaderBytes ≤ frame.length := by
  have hheader := h.header
  rw [h.length]
  unfold kWireHeaderBytes at hheader ⊢
  omega

theorem frameCut_stable {bound : Nat} {buffer : Bytes} (more : Bytes) (h : frameCut bound buffer ≠ .wait) :
    frameCut bound (buffer ++ more) = frameCut bound buffer := by
  unfold frameCut at h ⊢
  split at h
  next => exact absurd rfl h
  next hlong =>
  have hlength : buffer.length ≤ (buffer ++ more).length := by
    rw [List.length_append]
    omega
  have field (offset : Nat) (hoffset : offset + 4 ≤ 8) : getAt (buffer ++ more) offset 4 = getAt buffer offset 4 :=
    getAt_append _ (by unfold kWireHeaderBytes at hlong; omega)
  rw [field 4 (by omega), field 0 (by omega), if_neg hlong, if_neg (by omega)]
  split at h
  next hmagic => rw [if_pos hmagic, if_pos hmagic]
  next hmagic =>
  rw [if_neg hmagic, if_neg hmagic]
  split at h
  next hbounds => rw [if_pos hbounds, if_pos hbounds]
  next hbounds =>
  rw [if_neg hbounds, if_neg hbounds]
  split at h
  next => exact absurd rfl h
  next hwhole => rw [if_neg hwhole, if_neg (by omega)]

/-- The frames of a stream. -/
def frameSplitter (bound : Nat) : Splitter UInt8 Status where
  verdict := frameCut bound
  emits h := by
    obtain ⟨hle, hframe⟩ := frameCut_emit h
    have hpos := hframe.length_ge
    rw [List.length_take] at hpos
    unfold kWireHeaderBytes at hpos
    exact ⟨by omega, hle⟩
  stable := frameCut_stable

namespace FrameReader

/-- What a feed does, in terms of the pieces it cuts. -/
def ofPieces (reader : FrameReader) (cut : List Bytes × Except Status Bytes) : Fed :=
  match cut.2 with
  | .ok rest => ⟨.ok (), cut.1, { reader with buffer := rest, frames := reader.frames + cut.1.length }⟩
  | .error status =>
    ⟨.error status, cut.1, { reader with buffer := [], frames := reader.frames + cut.1.length }⟩

theorem drain_eq (reader : FrameReader) :
    reader.drain = reader.ofPieces ((frameSplitter reader.maxFrameBytes).pieces reader.buffer) := by
  induction hlength : reader.buffer.length using Nat.strong_induction_on generalizing reader with
  | _ length ih =>
    unfold drain
    split
    next hshort =>
      have hcut : (frameSplitter reader.maxFrameBytes).verdict reader.buffer = .wait := if_pos hshort
      rw [Splitter.pieces_wait hcut]
      rfl
    next hlong =>
    split
    next hmagic =>
      have hcut : (frameSplitter reader.maxFrameBytes).verdict reader.buffer = .refuse
          ⟨.protocolViolation, txt "frame magic mismatch"⟩ := by
        show frameCut _ _ = _
        rw [frameCut, if_neg hlong, if_pos hmagic]
      rw [Splitter.pieces_refuse hcut]
      rfl
    next hmagic =>
    split
    next hbounds =>
      have hcut : (frameSplitter reader.maxFrameBytes).verdict reader.buffer = .refuse
          ⟨.frameTooLarge, txt "frame length out of bounds"⟩ := by
        show frameCut _ _ = _
        rw [frameCut, if_neg hlong, if_neg hmagic, if_pos hbounds]
      rw [Splitter.pieces_refuse hcut]
      rfl
    next hbounds =>
    dsimp only
    split
    next hpart =>
      have hcut : (frameSplitter reader.maxFrameBytes).verdict reader.buffer = .wait := by
        show frameCut _ _ = _
        rw [frameCut, if_neg hlong, if_neg hmagic, if_neg hbounds, if_pos hpart]
      rw [Splitter.pieces_wait hcut]
      rfl
    next hwhole =>
      have hcut : (frameSplitter reader.maxFrameBytes).verdict reader.buffer =
          .emit (getAt reader.buffer 0 4 + 4) := by
        show frameCut _ _ = _
        rw [frameCut, if_neg hlong, if_neg hmagic, if_neg hbounds, if_neg hwhole]
      obtain ⟨hpos, hle⟩ := (frameSplitter reader.maxFrameBytes).emits hcut
      rw [Splitter.pieces_emit hcut, ih _ (by rw [List.length_drop]; omega) _ rfl]
      unfold ofPieces
      dsimp only
      cases ((frameSplitter reader.maxFrameBytes).pieces (reader.buffer.drop (getAt reader.buffer 0 4 + 4))).2 with
      | ok rest => simp only [List.length_cons, Nat.add_assoc, Nat.add_comm 1]
      | error status => simp only [List.length_cons, Nat.add_assoc, Nat.add_comm 1]

/-- Chunks fed in order, up to the first error. -/
def feedAll (reader : FrameReader) : List Bytes → Fed
  | [] => ⟨.ok (), [], reader⟩
  | chunk :: chunks =>
    let fed := reader.feed chunk
    match fed.status with
    | .error _ => fed
    | .ok () =>
      let more := fed.reader.feedAll chunks
      { more with out := fed.out ++ more.out }

theorem feed_eq (reader : FrameReader) (chunk : Bytes) :
    reader.feed chunk =
      reader.ofPieces ((frameSplitter reader.maxFrameBytes).pieces (reader.buffer ++ chunk)) :=
  drain_eq { reader with buffer := reader.buffer ++ chunk }

theorem feedAll_eq (reader : FrameReader) (chunks : List Bytes) :
    reader.feedAll chunks = reader.ofPieces ((frameSplitter reader.maxFrameBytes).feeds reader.buffer chunks) := by
  induction chunks generalizing reader with
  | nil => rfl
  | cons chunk chunks ih =>
    rw [feedAll, feed_eq, Splitter.feeds]
    unfold ofPieces
    cases hcut : ((frameSplitter reader.maxFrameBytes).pieces (reader.buffer ++ chunk)).2 with
    | error status => rfl
    | ok rest =>
      dsimp only
      rw [ih]
      unfold ofPieces
      dsimp only
      cases ((frameSplitter reader.maxFrameBytes).feeds rest chunks).2 with
      | ok rest => simp only [List.length_append, Nat.add_assoc]
      | error status => simp only [List.length_append, Nat.add_assoc]

/-- The chunks a stream arrives in do not matter. -/
theorem feedAll_eq_feed (bound : Nat) (chunks : List Bytes) :
    feedAll { maxFrameBytes := bound } chunks = feed { maxFrameBytes := bound } chunks.flatten := by
  have hwait : (frameSplitter bound).verdict [] = .wait := by
    show frameCut bound [] = .wait
    exact if_pos (by decide)
  rw [feedAll_eq, feed_eq]
  exact congrArg _ (Splitter.feeds_eq hwait chunks)

-- ---------------------------------------------------------------------------
-- Termination
-- ---------------------------------------------------------------------------

/-- The loop of `feed`, given up after a number of rounds. -/
def drainWithin : Nat → FrameReader → Option Fed
  | 0, _ => none
  | rounds + 1, reader =>
    if reader.buffer.length < kWireHeaderBytes then some ⟨.ok (), [], reader⟩
    else if getAt reader.buffer 4 4 ≠ kWireMagic then
      some ⟨failure .protocolViolation (txt "frame magic mismatch"), [], { reader with buffer := [] }⟩
    else if getAt reader.buffer 0 4 < kWireHeaderBytes - 4 ∨
        reader.maxFrameBytes < getAt reader.buffer 0 4 then
      some ⟨failure .frameTooLarge (txt "frame length out of bounds"), [], { reader with buffer := [] }⟩
    else
      let frameBytes := getAt reader.buffer 0 4 + 4
      if reader.buffer.length < frameBytes then some ⟨.ok (), [], reader⟩
      else do
        let fed ← drainWithin rounds { reader with
          buffer := reader.buffer.drop frameBytes, frames := reader.frames + 1 }
        pure { fed with out := reader.buffer.take frameBytes :: fed.out }

/-- Every round but the last takes a header off the buffer. -/
theorem drainWithin_eq {rounds : Nat} {reader : FrameReader}
    (enough : reader.buffer.length < kWireHeaderBytes * rounds) : reader.drainWithin rounds = some reader.drain := by
  induction rounds generalizing reader with
  | zero => exact absurd enough (Nat.not_lt_zero _)
  | succ rounds ih =>
    unfold drainWithin drain
    split
    next => rfl
    next hlong =>
    split
    next => rfl
    next hmagic =>
    split
    next => rfl
    next hbounds =>
    dsimp only
    split
    next => rfl
    next hwhole =>
      rw [ih (by
        rw [List.length_drop]
        unfold kWireHeaderBytes at *
        omega)]
      rfl

-- ---------------------------------------------------------------------------
-- The stream
-- ---------------------------------------------------------------------------

/-- What a reader makes of a stream is decided by its bytes: every frame is complete
and within bounds, nothing is lost while there is no error, and a feed ends after a
round for every header in the buffer and one more. -/
theorem reassembly (bound : Nat) (chunks : List Bytes) :
    (feedAll { maxFrameBytes := bound } chunks).out = (feed { maxFrameBytes := bound } chunks.flatten).out ∧
    (feedAll { maxFrameBytes := bound } chunks).status = (feed { maxFrameBytes := bound } chunks.flatten).status ∧
    (∀ frame ∈ (feedAll { maxFrameBytes := bound } chunks).out, Bounded bound frame) ∧
    ((feedAll { maxFrameBytes := bound } chunks).status = .ok () →
      (feedAll { maxFrameBytes := bound } chunks).out.flatten ++
        (feedAll { maxFrameBytes := bound } chunks).reader.buffer = chunks.flatten) ∧
    ∀ (reader : FrameReader) (chunk : Bytes),
      drainWithin ((reader.buffer ++ chunk).length / kWireHeaderBytes + 1)
        { reader with buffer := reader.buffer ++ chunk } = some (reader.feed chunk) := by
  rw [feedAll_eq_feed, feed_eq]
  refine ⟨rfl, rfl, fun frame hframe => ?_, fun hok => ?_, fun reader chunk => ?_⟩
  · have hpiece : frame ∈ ((frameSplitter bound).pieces ([] ++ chunks.flatten)).1 := by
      unfold ofPieces at hframe
      split at hframe <;> exact hframe
    obtain ⟨front, n, hcut, rfl⟩ := Splitter.verdict_of_mem_pieces hpiece
    exact (frameCut_emit hcut).2
  · unfold ofPieces at hok ⊢
    split at hok
    next rest hrest => exact Splitter.flatten_pieces hrest
    next => cases hok
  · refine drainWithin_eq ?_
    have hrounds := Nat.lt_mul_div_succ (reader.buffer ++ chunk).length (show 0 < kWireHeaderBytes by decide)
    exact hrounds

end FrameReader

end DistributedCompilation.Wire
