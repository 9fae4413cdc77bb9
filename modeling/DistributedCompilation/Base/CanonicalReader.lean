import DistributedCompilation.Base.Canonical
import DistributedCompilation.Lib.Cursor

/-!
# Distributed Compilation — the canonical reader

`CanonicalReader` of `canonical.cpp` as an object: the position, the first error and
the indices each call reads. `remaining` is a difference of two `size_t`; that it does
not wrap is `Respects.bounded`, which every call carries to the next.

The record decoders work on `Reader`, a decoder of the bytes ahead. The `simulates`
lemmas say that each read is its decoder as long as no error is recorded.
-/

namespace DistributedCompilation

/-- `CanonicalLimits`, as the reader uses them. -/
structure CanonicalLimits where
  maxStringBytes : Nat := 1 <<< 20
  maxBlobBytes : Nat := 64 <<< 20
  maxItems : Nat := 262144
  maxDomainTag : Nat := 64

/-- `data_`, `pos_` and `status_`. -/
abbrev CanonicalReader := Cursor Status

namespace CanonicalReader

/-- A member function: its output parameter when it returns true. -/
abbrev Call (α : Type) := Cursor.Call Status α

/-- `CanonicalReader::fail` followed by `return false`. -/
def fail {α : Type} (code : ErrorCode) (detail : Bytes) : Call α := Cursor.Call.fail ⟨code, detail⟩

def truncated : Status := ⟨.malformed, txt "canonical record truncated"⟩

/-- `need` and the bytes it was asked for. -/
def bytes (n : Nat) : Call Bytes := Cursor.Call.take n truncated

def readU8 : Call UInt8 := do
  let raw ← bytes 1
  pure (UInt8.ofNat (LittleEndian.decode raw))

def readBool : Call Bool := do
  let raw ← readU8
  if raw > 1 then fail .malformed (txt "canonical boolean out of domain")
  else pure (raw == 1)

def readU16 : Call UInt16 := do
  let raw ← bytes 2
  pure (UInt16.ofNat (LittleEndian.decode raw))

def readU32 : Call UInt32 := do
  let raw ← bytes 4
  pure (UInt32.ofNat (LittleEndian.decode raw))

def readU64 : Call UInt64 := do
  let raw ← bytes 8
  pure (UInt64.ofNat (LittleEndian.decode raw))

def readI64 : Call Int64 := do
  let raw ← readU64
  pure raw.toInt64

def readF64 : Call UInt64 := readU64

def readStr (limits : CanonicalLimits) : Call Bytes := do
  let length ← readU32
  if length.toNat > limits.maxStringBytes then
    fail .limitExceeded (txt "canonical string exceeds configured limit")
  else bytes length.toNat

def readBlob (limits : CanonicalLimits) : Call Bytes := do
  let length ← readU32
  if length.toNat > limits.maxBlobBytes then
    fail .limitExceeded (txt "canonical blob exceeds configured limit")
  else bytes length.toNat

/-- A digest of the 32 bytes read. -/
def digestOf (raw : Bytes) : Call Digest256 :=
  if h : raw.length = 32 then pure ⟨raw, h⟩
  else fail .malformed (txt "canonical record truncated")

def readDigest : Call Digest256 := do
  let raw ← bytes 32
  digestOf raw

def readList (limits : CanonicalLimits) : Call Nat := do
  let count ← readU32
  if count.toNat > limits.maxItems then
    fail .limitExceeded (txt "canonical collection exceeds configured limit")
  else pure count.toNat

def readPresent : Call Bool := readBool

def readDomain (limits : CanonicalLimits) (expected : Bytes) : Call Unit := do
  let length ← readU8
  if length.toNat > limits.maxDomainTag then fail .malformed (txt "canonical domain tag too long")
  else
    let actual ← bytes length.toNat
    if actual ≠ expected then fail .malformed (txt "canonical domain mismatch") else pure ()

def skip (count : Nat) : Call Unit := Cursor.Call.skip count truncated

/-- `read_handle`: the zero handle is rejected after it was read. -/
def readId (tag : IdTag) : Call (Id tag) := do
  let raw ← readU64
  if raw == 0 then fail .malformed (txt "canonical identity handle is zero")
  else pure ⟨raw.toNat⟩

/-- `read_optional_id`; `decode` refuses nothing but zero. -/
def readOptionalId (tag : IdTag) : Call (Id tag) := do
  let raw ← readU64
  pure ⟨raw.toNat⟩

/-- `read_generation`. -/
def readGen (tag : GenTag) : Call (Gen tag) := do
  let raw ← readU64
  pure ⟨raw.toNat⟩

def readStringList (limits : CanonicalLimits) : Call (List Bytes) := do
  let count ← readList limits
  Cursor.Call.replicate (readStr limits) count

/-- The calls a codec makes on a reader. -/
inductive ReaderCall
  | readU8
  | readBool
  | readU16
  | readU32
  | readU64
  | readI64
  | readF64
  | readStr
  | readBlob
  | readDigest
  | readList
  | readPresent
  | readDomain (expected : Bytes)
  | skip (count : Nat)
  | readId (tag : IdTag)
  | readOptionalId (tag : IdTag)
  | readGen (tag : GenTag)
  | readStringList
  | fail (code : ErrorCode) (detail : Bytes)

/-- What a call returns, and the reader it leaves. -/
def returned {α : Type} (m : Call α) : CanonicalReader → Reads (Bool × CanonicalReader) := fun r => do
  let out ← m r
  pure (out.1.isSome, out.2)

/-- One call. -/
def ReaderCall.run (limits : CanonicalLimits) : ReaderCall → CanonicalReader → Reads (Bool × CanonicalReader)
  | .readU8 => returned CanonicalReader.readU8
  | .readBool => returned CanonicalReader.readBool
  | .readU16 => returned CanonicalReader.readU16
  | .readU32 => returned CanonicalReader.readU32
  | .readU64 => returned CanonicalReader.readU64
  | .readI64 => returned CanonicalReader.readI64
  | .readF64 => returned CanonicalReader.readF64
  | .readStr => returned (CanonicalReader.readStr limits)
  | .readBlob => returned (CanonicalReader.readBlob limits)
  | .readDigest => returned CanonicalReader.readDigest
  | .readList => returned (CanonicalReader.readList limits)
  | .readPresent => returned CanonicalReader.readPresent
  | .readDomain expected => returned (CanonicalReader.readDomain limits expected)
  | .skip count => returned (CanonicalReader.skip count)
  | .readId tag => returned (CanonicalReader.readId tag)
  | .readOptionalId tag => returned (CanonicalReader.readOptionalId tag)
  | .readGen tag => returned (CanonicalReader.readGen tag)
  | .readStringList => returned (CanonicalReader.readStringList limits)
  | .fail code detail => returned (CanonicalReader.fail code detail : Call Unit)

/-- The reader after a row of calls. -/
def after (limits : CanonicalLimits) : List ReaderCall → CanonicalReader → CanonicalReader
  | [], r => r
  | call :: calls, r => after limits calls (call.run limits r).value.2

/-- A reader on a byte string. -/
def start (data : Bytes) : CanonicalReader := { data }

-- ---------------------------------------------------------------------------
-- The calls are sound
-- ---------------------------------------------------------------------------

section Soundness

open Cursor.Call

variable (limits : CanonicalLimits)

theorem bytes_sound (n : Nat) : Sound (bytes n) := .take n truncated

theorem readU8_sound : Sound readU8 := (bytes_sound 1).bind fun _ => .pure _

theorem readBool_sound : Sound readBool := readU8_sound.bind fun _ => .ite (fun _ => .fail _) fun _ => .pure _

theorem readU16_sound : Sound readU16 := (bytes_sound 2).bind fun _ => .pure _

theorem readU32_sound : Sound readU32 := (bytes_sound 4).bind fun _ => .pure _

theorem readU64_sound : Sound readU64 := (bytes_sound 8).bind fun _ => .pure _

theorem readI64_sound : Sound readI64 := readU64_sound.bind fun _ => .pure _

theorem readStr_sound : Sound (readStr limits) :=
  readU32_sound.bind fun _ => .ite (fun _ => .fail _) fun _ => bytes_sound _

theorem readBlob_sound : Sound (readBlob limits) :=
  readU32_sound.bind fun _ => .ite (fun _ => .fail _) fun _ => bytes_sound _

theorem digestOf_sound (raw : Bytes) : Sound (digestOf raw) := by
  unfold digestOf
  split
  · exact .pure _
  · exact .fail _

theorem readDigest_sound : Sound readDigest := (bytes_sound 32).bind digestOf_sound

theorem readList_sound : Sound (readList limits) :=
  readU32_sound.bind fun _ => .ite (fun _ => .fail _) fun _ => .pure _

theorem readDomain_sound (expected : Bytes) : Sound (readDomain limits expected) :=
  readU8_sound.bind fun _ => .ite (fun _ => .fail _) fun _ =>
    (bytes_sound _).bind fun _ => .ite (fun _ => .fail _) fun _ => .pure _

theorem readId_sound (tag : IdTag) : Sound (readId tag) :=
  readU64_sound.bind fun _ => .ite (fun _ => .fail _) fun _ => .pure _

theorem readOptionalId_sound (tag : IdTag) : Sound (readOptionalId tag) := readU64_sound.bind fun _ => .pure _

theorem readGen_sound (tag : GenTag) : Sound (readGen tag) := readU64_sound.bind fun _ => .pure _

theorem readStringList_sound : Sound (readStringList limits) :=
  (readList_sound limits).bind fun count => (readStr_sound limits).replicate count

end Soundness

-- ---------------------------------------------------------------------------
-- The calls stop after an error
-- ---------------------------------------------------------------------------

section Sticky

open Cursor.Call

variable (limits : CanonicalLimits)

theorem bytes_stuck (n : Nat) : Stuck (bytes n) := .take n truncated

theorem readU8_stuck : Stuck readU8 := (bytes_stuck 1).bind

theorem readU32_stuck : Stuck readU32 := (bytes_stuck 4).bind

theorem readU64_stuck : Stuck readU64 := (bytes_stuck 8).bind

theorem readList_stuck : Stuck (readList limits) := readU32_stuck.bind

end Sticky

section Calls

open Cursor.Call

variable {α : Type} {limits : CanonicalLimits} {r : CanonicalReader}

/-- What a call respects, of the call as it returns. -/
structure Safe (r : CanonicalReader) (out : Reads (Bool × CanonicalReader)) : Prop where
  data : out.value.2.data = r.data
  forward : r.pos ≤ out.value.2.pos
  bounded : out.value.2.pos ≤ r.data.length
  within : out.Within r.data.length
  recorded : out.value.1 = false → out.value.2.error.isSome = true

theorem Safe.of_respects {m : Call α} (h : Respects r (m r)) : Safe r (returned m r) where
  data := h.data
  forward := h.forward
  bounded := h.bounded
  within := Reads.within_bind h.within (Reads.within_pure _)
  recorded := fun hfalse => h.recorded (Option.isNone_iff_eq_none.mp (by
    rw [← Option.not_isSome, show (m r).value.1.isSome = false from hfalse]
    rfl))

/-- Every call respects the reader. -/
theorem ReaderCall.run_safe (call : ReaderCall) (h : r.pos ≤ r.data.length) : Safe r (call.run limits r) := by
  cases call with
  | readU8 => exact .of_respects (readU8_sound r h)
  | readBool => exact .of_respects (readBool_sound r h)
  | readU16 => exact .of_respects (readU16_sound r h)
  | readU32 => exact .of_respects (readU32_sound r h)
  | readU64 => exact .of_respects (readU64_sound r h)
  | readI64 => exact .of_respects (readI64_sound r h)
  | readF64 => exact .of_respects (readU64_sound r h)
  | readStr => exact .of_respects (readStr_sound limits r h)
  | readBlob => exact .of_respects (readBlob_sound limits r h)
  | readDigest => exact .of_respects (readDigest_sound r h)
  | readList => exact .of_respects (readList_sound limits r h)
  | readPresent => exact .of_respects (readBool_sound r h)
  | readDomain expected => exact .of_respects (readDomain_sound limits expected r h)
  | skip count => exact .of_respects (Sound.skip count truncated r h)
  | readId tag => exact .of_respects (readId_sound tag r h)
  | readOptionalId tag => exact .of_respects (readOptionalId_sound tag r h)
  | readGen tag => exact .of_respects (readGen_sound tag r h)
  | readStringList => exact .of_respects (readStringList_sound limits r h)
  | fail code detail => exact .of_respects (Sound.fail (⟨code, detail⟩ : Status) r h)

theorem returned_of_stuck {m : Call α} (h : Stuck m) (herror : r.error.isSome = true) :
    returned m r = ⟨(false, r), []⟩ := by
  rw [returned, h r herror]
  rfl

/-- After an error a call returns false and does nothing. -/
theorem ReaderCall.run_of_error (call : ReaderCall) (h : r.error.isSome = true) :
    call.run limits r = ⟨(false, r), []⟩ := by
  cases call with
  | readU8 => exact returned_of_stuck readU8_stuck h
  | readBool => exact returned_of_stuck readU8_stuck.bind h
  | readU16 => exact returned_of_stuck (bytes_stuck 2).bind h
  | readU32 => exact returned_of_stuck readU32_stuck h
  | readU64 => exact returned_of_stuck readU64_stuck h
  | readI64 => exact returned_of_stuck readU64_stuck.bind h
  | readF64 => exact returned_of_stuck readU64_stuck h
  | readStr => exact returned_of_stuck readU32_stuck.bind h
  | readBlob => exact returned_of_stuck readU32_stuck.bind h
  | readDigest => exact returned_of_stuck (bytes_stuck 32).bind h
  | readList => exact returned_of_stuck (readList_stuck limits) h
  | readPresent => exact returned_of_stuck readU8_stuck.bind h
  | readDomain expected => exact returned_of_stuck readU8_stuck.bind h
  | skip count => exact returned_of_stuck (.skip count truncated) h
  | readId tag => exact returned_of_stuck readU64_stuck.bind h
  | readOptionalId tag => exact returned_of_stuck readU64_stuck.bind h
  | readGen tag => exact returned_of_stuck readU64_stuck.bind h
  | readStringList => exact returned_of_stuck (readList_stuck limits).bind h
  | fail code detail => exact returned_of_stuck (.fail (⟨code, detail⟩ : Status)) h

-- ---------------------------------------------------------------------------
-- Runs
-- ---------------------------------------------------------------------------

/-- A reader stays on its data and within it. -/
theorem after_bounded (calls : List ReaderCall) (h : r.pos ≤ r.data.length) :
    (after limits calls r).data = r.data ∧ (after limits calls r).pos ≤ r.data.length := by
  induction calls generalizing r with
  | nil => exact ⟨rfl, h⟩
  | cons call calls ih =>
    have hsafe : Safe r (call.run limits r) := call.run_safe h
    have hnext := ih (r := (call.run limits r).value.2) (by rw [hsafe.data]; exact hsafe.bounded)
    rw [hsafe.data] at hnext
    exact hnext

/-- A reader with an error stays as it is. -/
theorem after_of_error (calls : List ReaderCall) (h : r.error.isSome = true) : after limits calls r = r := by
  induction calls with
  | nil => rfl
  | cons call calls ih =>
    rw [after, call.run_of_error h]
    exact ih

end Calls

/-- In any row of calls on any byte string a call moves the position forward and not
behind the data, and touches nothing outside the data. Once a call has failed an error
is recorded, and whatever is called afterwards, every further call fails and leaves the
reader with its position and its error as the failure left it. -/
theorem reader_safe_sticky (limits : CanonicalLimits) (data : Bytes) (calls : List ReaderCall) (call : ReaderCall) :
    let before := after limits calls (start data)
    let out := call.run limits before
    (before.pos ≤ out.value.2.pos ∧ out.value.2.pos ≤ data.length ∧ out.Within data.length) ∧
    (out.value.1 = false →
      out.value.2.error.isSome = true ∧
      ∀ (later : List ReaderCall) (next : ReaderCall),
        (next.run limits (after limits later out.value.2)).value = (false, out.value.2)) := by
  intro before out
  obtain ⟨hdata, hpos⟩ : before.data = data ∧ before.pos ≤ data.length := after_bounded calls (Nat.zero_le _)
  have hsafe : Safe before out := call.run_safe (hdata ▸ hpos)
  have hlength : before.data.length = data.length := by rw [hdata]
  refine ⟨⟨hsafe.forward, hlength ▸ hsafe.bounded, hlength ▸ hsafe.within⟩, fun hfalse => ?_⟩
  have herror := hsafe.recorded hfalse
  refine ⟨herror, fun later next => ?_⟩
  rw [after_of_error later herror, next.run_of_error herror]

-- ---------------------------------------------------------------------------
-- The decoders of the codecs
-- ---------------------------------------------------------------------------

section Decoders

open Cursor.Call

theorem bytes_simulates (n : Nat) : Simulates (bytes n) (Reader.need n) := .take n truncated

theorem readU8_simulates : Simulates readU8 Reader.readU8 :=
  (bytes_simulates 1).bind (bytes_sound 1) fun _ => .pure _

theorem readBool_simulates : Simulates readBool Reader.readBool :=
  readU8_simulates.bind readU8_sound fun _ => .ite (fun _ => .fail _) fun _ => .pure _

theorem readU16_simulates : Simulates readU16 Reader.readU16 :=
  (bytes_simulates 2).bind (bytes_sound 2) fun _ => .pure _

theorem readU32_simulates : Simulates readU32 Reader.readU32 :=
  (bytes_simulates 4).bind (bytes_sound 4) fun _ => .pure _

theorem readU64_simulates : Simulates readU64 Reader.readU64 :=
  (bytes_simulates 8).bind (bytes_sound 8) fun _ => .pure _

theorem readI64_simulates : Simulates readI64 Reader.readI64 :=
  readU64_simulates.bind readU64_sound fun _ => .pure _

theorem readStr_simulates : Simulates (readStr {}) Reader.readStr :=
  readU32_simulates.bind readU32_sound fun _ => .ite (fun _ => .fail _) fun _ => bytes_simulates _

theorem readDigest_simulates : Simulates readDigest Reader.readDigest := by
  refine (bytes_simulates 32).bind (bytes_sound 32) fun raw => ?_
  unfold digestOf
  split
  · exact .pure _
  · exact .fail _

theorem readList_simulates : Simulates (readList {}) Reader.readList :=
  readU32_simulates.bind readU32_sound fun _ => .ite (fun _ => .fail _) fun _ => .pure _

theorem readDomain_simulates (expected : Bytes) : Simulates (readDomain {} expected) (Reader.readDomain expected) :=
  readU8_simulates.bind readU8_sound fun _ => .ite (fun _ => .fail _) fun _ =>
    (bytes_simulates _).bind (bytes_sound _) fun _ => .ite (fun _ => .fail _) fun _ => .pure _

theorem readId_simulates (tag : IdTag) : Simulates (readId tag) Reader.readId :=
  readU64_simulates.bind readU64_sound fun _ => .ite (fun _ => .fail _) fun _ => .pure _

theorem readOptionalId_simulates (tag : IdTag) : Simulates (readOptionalId tag) Reader.readOptionalId :=
  readU64_simulates.bind readU64_sound fun _ => .pure _

theorem readGen_simulates (tag : GenTag) : Simulates (readGen tag) Reader.readGen :=
  readU64_simulates.bind readU64_sound fun _ => .pure _

theorem readStringList_simulates : Simulates (readStringList {}) Reader.readStringList :=
  readList_simulates.bind (readList_sound {}) fun count => readStr_simulates.replicate (readStr_sound {}) count

end Decoders

end CanonicalReader

end DistributedCompilation
