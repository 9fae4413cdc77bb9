import DistributedCompilation.Storage.Journal

/-!
# Distributed Compilation — frames on the wire

`encode_frame` and `decode_frame` of `wire.cpp` and the `FrameReader` of
`net.cpp`. The encoder bounds the payload, the reader bounds the length field,
and the decoder compares the two length fields with each other.
-/

namespace DistributedCompilation

def ErrorCode.protocolViolation : ErrorCode := ⟨12, by decide⟩

def ErrorCode.frameTooLarge : ErrorCode := ⟨93, by decide⟩

namespace Wire

/-- `enum class Op : std::uint16_t`. -/
inductive Op
  | invalid | hello | registerWorker | advertiseToolchain | submitCompilation | query | assign
  | beginCompile | reportOutput | validateOutput | commitArtifact | failAttempt | cancelAttempt
  | cacheQuery | cacheReport | snapshot | audit | shutdown | response | error | heartbeat
  | workerReady | validateResponse
deriving DecidableEq

namespace Op

def all : List Op :=
  [invalid, hello, registerWorker, advertiseToolchain, submitCompilation, query, assign,
   beginCompile, reportOutput, validateOutput, commitArtifact, failAttempt, cancelAttempt,
   cacheQuery, cacheReport, snapshot, audit, shutdown, response, error, heartbeat,
   workerReady, validateResponse]

/-- The underlying value: the position in the declaration. -/
def code (op : Op) : Nat := all.idxOf op

/-- `raw_op == 0 || raw_op > Op::ValidateResponse` is out of domain. -/
def ofCode (raw : Nat) : Option Op := if raw = 0 then none else all[raw]?

theorem code_lt (op : Op) : op.code < 256 ^ 2 := by
  cases op <;> decide

theorem ofCode_code {op : Op} (h : op ≠ .invalid) : ofCode op.code = some op := by
  cases op with
  | invalid => exact absurd rfl h
  | _ => rfl

theorem code_of_ofCode {raw : Nat} {op : Op} (h : ofCode raw = some op) : op.code = raw := by
  rw [ofCode] at h
  split at h
  · cases h
  · obtain ⟨hraw, rfl⟩ := List.getElem?_eq_some_iff.mp h
    have distinct : all.Nodup := by decide
    exact distinct.idxOf_getElem raw hraw

end Op

structure Frame where
  op : Op := .invalid
  requestId : UInt64 := 0
  payload : Bytes := []
deriving DecidableEq

def kWireMagic : Nat := 0x31435044

def kWireHeaderBytes : Nat := 28

def kMaxFrameBytes : Nat := 16 * 1024 * 1024

/-- `DC_PROTOCOL_VERSION`. -/
def protocolVersion : Nat := 1

-- ---------------------------------------------------------------------------
-- Frames
-- ---------------------------------------------------------------------------

namespace Frame

/-- The header `encode_frame` writes. -/
def header (frame : Frame) : Bytes :=
  LittleEndian.encode 4 (kWireHeaderBytes - 4 + frame.payload.length) ++
    LittleEndian.encode 4 kWireMagic ++ LittleEndian.encode 2 protocolVersion ++
    LittleEndian.encode 2 frame.op.code ++ LittleEndian.encode 8 frame.requestId.toNat ++
    LittleEndian.encode 4 frame.payload.length ++ LittleEndian.encode 4 0

def bytes (frame : Frame) : Bytes := frame.header ++ frame.payload

end Frame

def encodeFrame (frame : Frame) : Result Bytes :=
  if kMaxFrameBytes < frame.payload.length then
    failure .frameTooLarge (txt "frame payload exceeds the protocol bound")
  else .ok frame.bytes

def decodeFrame (bytes : Bytes) : Result Frame :=
  if bytes.length < kWireHeaderBytes then
    failure .malformed (txt "frame is shorter than the header")
  else if getAt bytes 4 4 ≠ kWireMagic then
    failure .protocolViolation (txt "frame magic mismatch")
  else if getAt bytes 8 2 ≠ protocolVersion then
    failure .unsupported
      (txt "protocol version " ++ decimal (getAt bytes 8 2) ++ txt " is not supported")
  else match Op.ofCode (getAt bytes 10 2) with
    | none => failure .protocolViolation (txt "op code out of domain")
    | some op =>
      if getAt bytes 24 4 ≠ 0 then
        failure .protocolViolation (txt "reserved frame flags must be zero")
      else if getAt bytes 0 4 ≠ kWireHeaderBytes - 4 + getAt bytes 20 4 then
        failure .protocolViolation (txt "frame length fields disagree")
      else if bytes.length ≠ kWireHeaderBytes + getAt bytes 20 4 then
        failure .malformed (txt "frame body length mismatch")
      else .ok {
        op, requestId := UInt64.ofNat (getAt bytes 12 8), payload := bytes.drop kWireHeaderBytes }

-- ---------------------------------------------------------------------------
-- The reader
-- ---------------------------------------------------------------------------

structure FrameReader where
  maxFrameBytes : Nat
  frames : Nat := 0
  buffer : Bytes := []

namespace FrameReader

/-- What a feed returns, the frames it appends and the reader it leaves. -/
structure Fed where
  status : Result Unit
  out : List Bytes
  reader : FrameReader

/-- The loop of `feed`. -/
def drain (reader : FrameReader) : Fed :=
  if hshort : reader.buffer.length < kWireHeaderBytes then ⟨.ok (), [], reader⟩
  else if getAt reader.buffer 4 4 ≠ kWireMagic then
    ⟨failure .protocolViolation (txt "frame magic mismatch"), [], { reader with buffer := [] }⟩
  else if getAt reader.buffer 0 4 < kWireHeaderBytes - 4 ∨
      reader.maxFrameBytes < getAt reader.buffer 0 4 then
    ⟨failure .frameTooLarge (txt "frame length out of bounds"), [], { reader with buffer := [] }⟩
  else
    let frameBytes := getAt reader.buffer 0 4 + 4
    if reader.buffer.length < frameBytes then ⟨.ok (), [], reader⟩
    else
      let fed := drain { reader with
        buffer := reader.buffer.drop frameBytes, frames := reader.frames + 1 }
      { fed with out := reader.buffer.take frameBytes :: fed.out }
termination_by reader.buffer.length
decreasing_by
  rw [List.length_drop]
  unfold kWireHeaderBytes at hshort
  omega

def feed (reader : FrameReader) (bytes : Bytes) : Fed :=
  drain { reader with buffer := reader.buffer ++ bytes }

/-- A peer that feeds what it receives chunk by chunk and decodes every frame. -/
def receive (reader : FrameReader) : List Bytes → Result (List Frame)
  | [] => pure []
  | chunk :: chunks => do
    let fed := reader.feed chunk
    fed.status
    let frames ← fed.out.mapM decodeFrame
    let rest ← receive fed.reader chunks
    pure (frames ++ rest)

end FrameReader

end Wire

end DistributedCompilation
