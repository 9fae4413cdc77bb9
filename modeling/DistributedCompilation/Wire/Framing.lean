import DistributedCompilation.Storage.Reopen
import DistributedCompilation.Wire.Frame

/-!
# Distributed Compilation — the framing round trip

A stream of frames cut anywhere is reassembled (`receive_eq_ok_iff`): after
every feed the reader waits in front of a frame it has not seen whole. The
header counts against the bound of the reader and not against the one of the
encoder, so the largest payloads the encoder accepts are refused.
-/

namespace DistributedCompilation.Wire

-- ---------------------------------------------------------------------------
-- One frame
-- ---------------------------------------------------------------------------

namespace Frame

/-- What `encode_frame` accepts, with an operation of the protocol. -/
structure Encodable (frame : Frame) : Prop where
  op : frame.op ≠ .invalid
  bounded : frame.payload.length ≤ kMaxFrameBytes

/-- What a reader of this bound accepts. -/
def Deliverable (bound : Nat) (frame : Frame) : Prop :=
  kWireHeaderBytes - 4 + frame.payload.length ≤ bound

theorem length_header (frame : Frame) : frame.header.length = kWireHeaderBytes := by
  simp [header, kWireHeaderBytes]

theorem length_bytes (frame : Frame) :
    frame.bytes.length = kWireHeaderBytes + frame.payload.length := by
  rw [bytes, List.length_append, length_header]

theorem drop_bytes (frame : Frame) : frame.bytes.drop kWireHeaderBytes = frame.payload := by
  rw [bytes, ← frame.length_header, List.drop_left]

theorem Encodable.length_lt {frame : Frame} (h : frame.Encodable) :
    kWireHeaderBytes - 4 + frame.payload.length < 256 ^ 4 := by
  have hbounded := h.bounded
  unfold kMaxFrameBytes at hbounded
  unfold kWireHeaderBytes
  omega

theorem getAt_header {frame : Frame} (h : frame.Encodable) :
    getAt frame.header 0 4 = kWireHeaderBytes - 4 + frame.payload.length ∧
    getAt frame.header 4 4 = kWireMagic ∧
    getAt frame.header 8 2 = protocolVersion ∧
    getAt frame.header 10 2 = frame.op.code ∧
    getAt frame.header 12 8 = frame.requestId.toNat ∧
    getAt frame.header 20 4 = frame.payload.length ∧
    getAt frame.header 24 4 = 0 := by
  have htotal := h.length_lt
  have hpayload : frame.payload.length < 256 ^ 4 := by omega
  have hrequest : frame.requestId.toNat < 256 ^ 8 := UInt64.toNat_lt _
  simp only [header, List.append_assoc]
  refine ⟨getAt_encode _ htotal, ?_, ?_, ?_, ?_, ?_, ?_⟩
  · rw [getAt_skip _ (by simp)]
    simpa using getAt_encode _ (by decide)
  · rw [getAt_skip _ (by simp), getAt_skip _ (by simp)]
    simpa using getAt_encode _ (by decide)
  · rw [getAt_skip _ (by simp), getAt_skip _ (by simp), getAt_skip _ (by simp)]
    simpa using getAt_encode _ frame.op.code_lt
  · rw [getAt_skip _ (by simp), getAt_skip _ (by simp), getAt_skip _ (by simp),
      getAt_skip _ (by simp)]
    simpa using getAt_encode _ hrequest
  · rw [getAt_skip _ (by simp), getAt_skip _ (by simp), getAt_skip _ (by simp),
      getAt_skip _ (by simp), getAt_skip _ (by simp)]
    simpa using getAt_encode _ hpayload
  · rw [getAt_skip _ (by simp), getAt_skip _ (by simp), getAt_skip _ (by simp),
      getAt_skip _ (by simp), getAt_skip _ (by simp), getAt_skip _ (by simp)]
    simpa using @getAt_encode 4 0 [] (by decide)

/-- A field of the header, read off the front of a stream. -/
theorem getAt_stream (frame : Frame) (rest : Bytes) {offset width : Nat}
    (hw : offset + width ≤ kWireHeaderBytes) :
    getAt (frame.bytes ++ rest) offset width = getAt frame.header offset width := by
  rw [bytes, List.append_assoc, getAt_append _ (by rw [length_header]; exact hw)]

end Frame

theorem encodeFrame_eq_ok_iff {frame : Frame} {bytes : Bytes} :
    encodeFrame frame = .ok bytes ↔
      frame.payload.length ≤ kMaxFrameBytes ∧ bytes = frame.bytes := by
  rw [encodeFrame]
  split
  · next h =>
    constructor
    · intro heq
      cases heq
    · rintro ⟨hle, -⟩
      omega
  · next h =>
    constructor
    · intro heq
      cases heq
      exact ⟨by omega, rfl⟩
    · rintro ⟨-, rfl⟩
      rfl

/-- An encoded frame is decoded. -/
theorem decodeFrame_bytes {frame : Frame} (h : frame.Encodable) :
    decodeFrame frame.bytes = .ok frame := by
  obtain ⟨htotal, hmagic, hversion, hop, hrequest, hlength, hflags⟩ := Frame.getAt_header h
  have field : ∀ {offset width : Nat}, offset + width ≤ kWireHeaderBytes →
      getAt frame.bytes offset width = getAt frame.header offset width := by
    intro offset width hw
    rw [← List.append_nil frame.bytes]
    exact frame.getAt_stream [] hw
  have hlen := frame.length_bytes
  rw [decodeFrame, if_neg (by omega), field (by decide), hmagic, if_neg (not_not.mpr rfl),
    field (by decide), hversion, if_neg (not_not.mpr rfl), field (by decide), hop,
    Op.ofCode_code h.op]
  dsimp only
  rw [field (by decide), hflags, if_neg (not_not.mpr rfl), field (by decide), htotal,
    field (by decide), hlength, if_neg (not_not.mpr rfl), if_neg (not_not.mpr hlen),
    field (by decide), hrequest, frame.drop_bytes, UInt64.ofNat_toNat]

/-- What is decoded has the bytes it was decoded from. -/
theorem bytes_of_decodeFrame {bytes : Bytes} {frame : Frame} (h : decodeFrame bytes = .ok frame) :
    frame.bytes = bytes := by
  rw [decodeFrame] at h
  split at h
  next => cases h
  next hlong =>
  split at h
  next => cases h
  next hmagic =>
  split at h
  next => cases h
  next hversion =>
  split at h
  next => cases h
  next op hop =>
  split at h
  next => cases h
  next hflags =>
  split at h
  next => cases h
  next htotal =>
  split at h
  next => cases h
  next hlength =>
  cases h
  have hlong : 28 ≤ bytes.length := Nat.not_lt.mp hlong
  have hpayload : (bytes.drop kWireHeaderBytes).length = getAt bytes 20 4 := by
    rw [List.length_drop]
    omega
  have hrequest : (UInt64.ofNat (getAt bytes 12 8)).toNat = getAt bytes 12 8 := by
    rw [UInt64.toNat_ofNat']
    exact Nat.mod_eq_of_lt (getAt_lt bytes 12 8)
  rw [Frame.bytes, Frame.header]
  dsimp only
  have flags : LittleEndian.encode 4 0 = (bytes.drop 24).take 4 := by
    rw [← encode_getAt (by omega), not_not.mp hflags]
  rw [hpayload, hrequest, Op.code_of_ofCode hop, ← not_not.mp htotal, ← not_not.mp hmagic,
    ← not_not.mp hversion, flags]
  rw [encode_getAt (by omega), encode_getAt (by omega), encode_getAt (by omega),
    encode_getAt (by omega), encode_getAt (by omega), encode_getAt (by omega)]
  have cut : ∀ offset width, (bytes.drop offset).take width ++ bytes.drop (offset + width) =
      bytes.drop offset := by
    intro offset width
    rw [← List.drop_drop]
    exact List.take_append_drop width _
  simp only [List.append_assoc]
  rw [show kWireHeaderBytes = 24 + 4 from rfl, cut 24 4, cut 20 4, cut 12 8, cut 10 2, cut 8 2,
    cut 4 4, cut 0 4, List.drop_zero]

theorem encodeFrame_of_decodeFrame {bytes : Bytes} {frame : Frame}
    (h : decodeFrame bytes = .ok frame) :
    encodeFrame frame = .ok bytes ↔ frame.payload.length ≤ kMaxFrameBytes := by
  rw [encodeFrame_eq_ok_iff]
  exact and_iff_left (bytes_of_decodeFrame h).symm

-- ---------------------------------------------------------------------------
-- A stream of frames
-- ---------------------------------------------------------------------------

/-- The bytes of a list of frames. -/
def streamOf (frames : List Frame) : Bytes := frames.flatMap Frame.bytes

open Classical in
/-- The buffer holds less of the next frame than the reader can decide on. -/
def Waiting (bound : Nat) (buffer : Bytes) : List Frame → Prop
  | [] => True
  | frame :: _ =>
    buffer.length < if frame.Deliverable bound then frame.bytes.length else kWireHeaderBytes

theorem waiting_of_short {bound : Nat} {buffer : Bytes} (frames : List Frame)
    (h : buffer.length < kWireHeaderBytes) : Waiting bound buffer frames := by
  cases frames with
  | nil => trivial
  | cons frame frames =>
    have hlen := frame.length_bytes
    rw [Waiting]
    split <;> omega

namespace FrameReader

theorem drain_short {reader : FrameReader} (h : reader.buffer.length < kWireHeaderBytes) :
    reader.drain = ⟨.ok (), [], reader⟩ := by
  rw [drain, dif_pos h]

section Front

variable {reader : FrameReader} {frame : Frame} {more rest : Bytes} (h : frame.Encodable)
  (hstream : reader.buffer ++ more = frame.bytes ++ rest)
  (hlong : kWireHeaderBytes ≤ reader.buffer.length)

include h hstream hlong

/-- What the loop reads once the header has arrived. -/
theorem getAt_buffer :
    getAt reader.buffer 0 4 = kWireHeaderBytes - 4 + frame.payload.length ∧
      getAt reader.buffer 4 4 = kWireMagic := by
  have field : ∀ {offset width : Nat}, offset + width ≤ kWireHeaderBytes →
      getAt reader.buffer offset width = getAt frame.header offset width := by
    intro offset width hw
    rw [← getAt_append more (hw.trans hlong), hstream, frame.getAt_stream _ hw]
  obtain ⟨htotal, hmagic, -⟩ := Frame.getAt_header h
  rw [field (by decide), field (by decide)]
  exact ⟨htotal, hmagic⟩

theorem drain_whole (hdeliverable : frame.Deliverable reader.maxFrameBytes)
    (hbuffer : reader.buffer = frame.bytes ++ more) :
    reader.drain =
      let fed := drain { reader with buffer := more, frames := reader.frames + 1 }
      { fed with out := frame.bytes :: fed.out } := by
  obtain ⟨htotal, hmagic⟩ := getAt_buffer h hstream hlong
  have hframe : kWireHeaderBytes - 4 + frame.payload.length + 4 = frame.bytes.length := by
    rw [frame.length_bytes]
    unfold kWireHeaderBytes
    omega
  unfold Frame.Deliverable at hdeliverable
  rw [drain, dif_neg (by omega), if_neg (not_not.mpr hmagic), htotal, if_neg (by omega)]
  dsimp only
  rw [hframe, if_neg (by rw [hbuffer, List.length_append]; omega), hbuffer, List.take_left,
    List.drop_left]

theorem drain_partial (hdeliverable : frame.Deliverable reader.maxFrameBytes)
    (hpart : reader.buffer.length < frame.bytes.length) :
    reader.drain = ⟨.ok (), [], reader⟩ := by
  obtain ⟨htotal, hmagic⟩ := getAt_buffer h hstream hlong
  have hlen := frame.length_bytes
  unfold Frame.Deliverable at hdeliverable
  rw [drain, dif_neg (by omega), if_neg (not_not.mpr hmagic), htotal, if_neg (by omega)]
  dsimp only
  rw [if_pos]
  unfold kWireHeaderBytes at hlen ⊢
  omega

theorem drain_refused (hrefused : ¬frame.Deliverable reader.maxFrameBytes) :
    ∃ status, reader.drain.status = .error status := by
  obtain ⟨htotal, hmagic⟩ := getAt_buffer h hstream hlong
  unfold Frame.Deliverable at hrefused
  rw [drain, dif_neg (by omega), if_neg (not_not.mpr hmagic), htotal, if_pos (by omega)]
  exact ⟨_, rfl⟩

end Front

/-- One feed: the reader emits the frames that have arrived and waits in front of
the next one, or refuses a frame. -/
theorem drain_stream {frames : List Frame} (hencodable : ∀ frame ∈ frames, frame.Encodable)
    (reader : FrameReader) (remaining : Bytes)
    (hstream : reader.buffer ++ remaining = streamOf frames) :
    (∃ done rest buffer n, frames = done ++ rest ∧
      (∀ frame ∈ done, frame.Deliverable reader.maxFrameBytes) ∧
      reader.drain = ⟨.ok (), done.map Frame.bytes, { reader with buffer := buffer, frames := n }⟩ ∧
      buffer ++ remaining = streamOf rest ∧ Waiting reader.maxFrameBytes buffer rest) ∨
    (∃ status, reader.drain.status = .error status) ∧
      ∃ frame ∈ frames, ¬frame.Deliverable reader.maxFrameBytes := by
  induction frames generalizing reader with
  | nil =>
    have hbuffer : reader.buffer = [] := (List.append_eq_nil_iff.mp hstream).1
    refine .inl ⟨[], [], reader.buffer, reader.frames, rfl, nofun, ?_, hstream, trivial⟩
    exact drain_short (by rw [hbuffer]; decide)
  | cons frame frames ih =>
    have hframe := hencodable frame List.mem_cons_self
    by_cases hshort : reader.buffer.length < kWireHeaderBytes
    · exact .inl ⟨[], frame :: frames, reader.buffer, reader.frames, rfl, nofun, drain_short hshort,
        hstream, waiting_of_short _ hshort⟩
    have hlong := Nat.not_lt.mp hshort
    have hfront : reader.buffer ++ remaining = frame.bytes ++ streamOf frames := hstream
    by_cases hdeliverable : frame.Deliverable reader.maxFrameBytes
    · by_cases hpart : reader.buffer.length < frame.bytes.length
      · refine .inl ⟨[], frame :: frames, reader.buffer, reader.frames, rfl, nofun,
          drain_partial hframe hfront hlong hdeliverable hpart, hstream, ?_⟩
        rw [Waiting, if_pos hdeliverable]
        exact hpart
      · -- the whole frame is there
        obtain ⟨buffer, hbuffer, hrest⟩ : ∃ buffer, reader.buffer = frame.bytes ++ buffer ∧
            buffer ++ remaining = streamOf frames := by
          refine ⟨reader.buffer.drop frame.bytes.length, ?_, ?_⟩
          · have htake := congrArg (List.take frame.bytes.length) hfront
            rw [List.take_append_of_le_length (Nat.not_lt.mp hpart), List.take_left] at htake
            have hcut := List.take_append_drop frame.bytes.length reader.buffer
            rw [htake] at hcut
            exact hcut.symm
          · have hdrop := congrArg (List.drop frame.bytes.length) hfront
            rwa [List.drop_append_of_le_length (Nat.not_lt.mp hpart), List.drop_left] at hdrop
        have hwhole : reader.buffer ++ buffer = frame.bytes ++ (buffer ++ buffer) := by
          rw [hbuffer, List.append_assoc]
        have hdrain := drain_whole hframe hwhole hlong hdeliverable hbuffer
        rcases ih (fun f hf => hencodable f (List.mem_cons_of_mem _ hf))
            { reader with buffer := buffer, frames := reader.frames + 1 } hrest with
          ⟨done, rest, left, n, rfl, hdone, hfed, hleft, hwaiting⟩ | ⟨⟨status, hstatus⟩, f, hf, hrefused⟩
        · refine .inl ⟨frame :: done, rest, left, n, rfl, ?_, ?_, hleft, hwaiting⟩
          · intro f hf
            rcases List.mem_cons.mp hf with rfl | hf
            · exact hdeliverable
            · exact hdone f hf
          · rw [hdrain, hfed]
            rfl
        · refine .inr ⟨⟨status, ?_⟩, f, List.mem_cons_of_mem _ hf, hrefused⟩
          rw [hdrain]
          exact hstatus
    · exact .inr ⟨drain_refused hframe hfront hlong hdeliverable, frame, List.mem_cons_self,
        hdeliverable⟩

theorem mapM_decodeFrame {frames : List Frame} (hencodable : ∀ frame ∈ frames, frame.Encodable) :
    (frames.map Frame.bytes).mapM decodeFrame = .ok frames := by
  induction frames with
  | nil => rfl
  | cons frame frames ih =>
    rw [List.map_cons, List.mapM_cons, decodeFrame_bytes (hencodable frame List.mem_cons_self),
      ih fun f hf => hencodable f (List.mem_cons_of_mem _ hf)]
    rfl

/-- The invariant of the chunks: what is buffered and what is still to come is
the stream of the frames that are still to come. -/
theorem receive_eq_ok_iff {frames out : List Frame}
    (hencodable : ∀ frame ∈ frames, frame.Encodable) (chunks : List Bytes) (reader : FrameReader)
    (hstream : reader.buffer ++ chunks.flatten = streamOf frames)
    (hwaiting : Waiting reader.maxFrameBytes reader.buffer frames) :
    reader.receive chunks = .ok out ↔
      out = frames ∧ ∀ frame ∈ frames, frame.Deliverable reader.maxFrameBytes := by
  induction chunks generalizing reader frames out with
  | nil =>
    cases frames with
    | nil =>
      constructor
      · intro h
        cases h
        exact ⟨rfl, nofun⟩
      · rintro ⟨rfl, -⟩
        rfl
    | cons frame frames =>
      -- a frame that is waited for would be in the buffer
      have hlen := congrArg List.length hstream
      rw [List.flatten_nil, List.append_nil, streamOf, List.flatMap_cons, List.length_append] at hlen
      have hbytes := frame.length_bytes
      rw [Waiting] at hwaiting
      split at hwaiting <;> omega
  | cons chunk chunks ih =>
    rw [List.flatten_cons, ← List.append_assoc] at hstream
    rw [receive]
    rcases drain_stream hencodable { reader with buffer := reader.buffer ++ chunk } _ hstream with
      ⟨done, rest, buffer, n, rfl, hdone, hfed, hrest, hwait⟩ | ⟨⟨status, hstatus⟩, f, hf, hrefused⟩
    · have hdecode := mapM_decodeFrame fun f hf => hencodable f (List.mem_append_left _ hf)
      have hnext := fun out' => @ih rest out' (fun f hf => hencodable f (List.mem_append_right _ hf))
        { reader with buffer := buffer, frames := n } hrest hwait
      dsimp only [feed]
      rw [hfed]
      dsimp only
      rw [hdecode]
      show ((FrameReader.receive _ chunks >>= fun rest => pure (done ++ rest)) = .ok out) ↔ _
      constructor
      · intro h
        cases hreceive : FrameReader.receive { reader with buffer := buffer, frames := n } chunks with
        | error status =>
          rw [hreceive] at h
          cases h
        | ok out' =>
          rw [hreceive] at h
          cases h
          obtain ⟨rfl, hall⟩ := (hnext out').mp hreceive
          refine ⟨rfl, fun f hf => ?_⟩
          rcases List.mem_append.mp hf with hf | hf
          · exact hdone f hf
          · exact hall f hf
      · rintro ⟨rfl, hall⟩
        rw [(hnext rest).mpr ⟨rfl, fun f hf => hall f (List.mem_append_right _ hf)⟩]
        rfl
    · dsimp only [feed]
      rw [hstatus]
      constructor
      · intro h
        cases h
      · rintro ⟨-, hall⟩
        exact absurd (hall f hf) hrefused

end FrameReader

-- ---------------------------------------------------------------------------
-- The round trip
-- ---------------------------------------------------------------------------

theorem encodable_of_mapM {frames : List Frame} {encodings : List Bytes}
    (hop : ∀ frame ∈ frames, frame.op ≠ .invalid) (h : frames.mapM encodeFrame = .ok encodings) :
    (∀ frame ∈ frames, frame.Encodable) ∧ encodings.flatten = streamOf frames := by
  induction frames generalizing encodings with
  | nil =>
    cases h
    exact ⟨nofun, rfl⟩
  | cons frame frames ih =>
    rw [List.mapM_cons] at h
    cases hframe : encodeFrame frame with
    | error status =>
      rw [hframe] at h
      cases h
    | ok bytes =>
      cases hrest : frames.mapM encodeFrame with
      | error status =>
        rw [hframe, hrest] at h
        cases h
      | ok rest =>
        rw [hframe, hrest] at h
        cases h
        obtain ⟨hbounded, rfl⟩ := encodeFrame_eq_ok_iff.mp hframe
        obtain ⟨hencodable, hflatten⟩ := ih (fun f hf => hop f (List.mem_cons_of_mem _ hf)) hrest
        refine ⟨?_, ?_⟩
        · intro f hf
          rcases List.mem_cons.mp hf with rfl | hf
          · exact ⟨hop f List.mem_cons_self, hbounded⟩
          · exact hencodable f hf
        · rw [List.flatten_cons, hflatten]
          rfl

/-- Encoded frames, cut anywhere, arrive as they were sent exactly when their
headers too fit the bound; a decoded frame is encoded to the bytes it came from
exactly when its payload does. -/
theorem frames_arrive_iff {frames : List Frame} {encodings chunks : List Bytes}
    (hop : ∀ frame ∈ frames, frame.op ≠ .invalid)
    (hencodings : frames.mapM encodeFrame = .ok encodings)
    (hchunks : chunks.flatten = encodings.flatten) :
    (FrameReader.receive { maxFrameBytes := kMaxFrameBytes } chunks = .ok frames ↔
      ∀ frame ∈ frames, kWireHeaderBytes - 4 + frame.payload.length ≤ kMaxFrameBytes) ∧
    ∀ (bytes : Bytes) (frame : Frame), decodeFrame bytes = .ok frame →
      (encodeFrame frame = .ok bytes ↔ frame.payload.length ≤ kMaxFrameBytes) := by
  obtain ⟨hencodable, hstream⟩ := encodable_of_mapM hop hencodings
  refine ⟨?_, fun bytes frame => encodeFrame_of_decodeFrame⟩
  rw [FrameReader.receive_eq_ok_iff hencodable chunks { maxFrameBytes := kMaxFrameBytes }
    (hchunks.trans hstream) (waiting_of_short frames (by decide))]
  exact and_iff_right rfl

/-- A short frame that arrives in two pieces. -/
def helloFrame : Frame := { op := .hello, requestId := 7, payload := txt "dc" }

theorem frames_arrive_hello :
    FrameReader.receive { maxFrameBytes := kMaxFrameBytes }
      [helloFrame.bytes.take 9, [], helloFrame.bytes.drop 9] = .ok [helloFrame] := by
  have hpayload : helloFrame.payload.length = 2 := by decide
  have hencoded : [helloFrame].mapM encodeFrame = .ok [helloFrame.bytes] := by
    rw [List.mapM_cons, encodeFrame_eq_ok_iff.mpr ⟨by rw [hpayload]; decide, rfl⟩]
    rfl
  refine (frames_arrive_iff ?_ hencoded ?_).1.mpr ?_
  · intro frame hframe
    rw [List.mem_singleton.mp hframe]
    decide
  · simp only [List.flatten_cons, List.flatten_nil, List.append_nil, List.nil_append,
      List.take_append_drop]
  · intro frame hframe
    rw [List.mem_singleton.mp hframe, hpayload]
    decide

/-- The largest payload the encoder accepts. -/
def largestFrame : Frame := { op := .reportOutput, payload := List.replicate kMaxFrameBytes 0 }

theorem not_frames_arrive : ¬∀ (frames : List Frame) (encodings chunks : List Bytes),
    (∀ frame ∈ frames, frame.op ≠ .invalid) → frames.mapM encodeFrame = .ok encodings →
    chunks.flatten = encodings.flatten →
    FrameReader.receive { maxFrameBytes := kMaxFrameBytes } chunks = .ok frames := by
  intro h
  have hpayload : largestFrame.payload.length = kMaxFrameBytes := List.length_replicate
  have hop : ∀ frame ∈ [largestFrame], frame.op ≠ .invalid := by
    intro frame hframe
    rw [List.mem_singleton.mp hframe]
    exact Op.noConfusion
  have hencoded : [largestFrame].mapM encodeFrame = .ok [largestFrame.bytes] := by
    rw [List.mapM_cons, encodeFrame_eq_ok_iff.mpr ⟨hpayload.le, rfl⟩]
    rfl
  obtain ⟨hencodable, hstream⟩ := encodable_of_mapM hop hencoded
  have harrives := h _ _ [largestFrame.bytes] hop hencoded rfl
  have hdeliverable := ((FrameReader.receive_eq_ok_iff hencodable [largestFrame.bytes]
    { maxFrameBytes := kMaxFrameBytes } hstream (waiting_of_short _ (by decide))).mp harrives).2 _
      (List.mem_singleton_self _)
  unfold Frame.Deliverable at hdeliverable
  dsimp only at hdeliverable
  rw [hpayload] at hdeliverable
  exact absurd hdeliverable (by decide)

end DistributedCompilation.Wire
