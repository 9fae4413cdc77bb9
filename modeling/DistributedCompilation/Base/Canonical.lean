import DistributedCompilation.Base.Digest
import DistributedCompilation.Domain.Request
import DistributedCompilation.Lib.Decoder
import DistributedCompilation.Lib.LittleEndian

/-!
# Distributed Compilation — canonical encoding

`canonical.cpp`. What a `CanonicalWriter` receives is the list of its calls
(`Field`), so a record's encoding reads like the body of its encoder;
`Record.bytes` is the buffer those calls leave and `Record.fits` says that no
call throws `std::length_error`.

A `CanonicalReader` is a `Decoder` over bytes that fails with the status of
the first failing read. The `run_*` lemmas say that each read inverts the
write of the same name; they are the simp set with which the record round
trips are computed.
-/

namespace DistributedCompilation

-- ---------------------------------------------------------------------------
-- Writer
-- ---------------------------------------------------------------------------

/-- `CanonicalLimits`. -/
def maxStringBytes : Nat := 1 <<< 20
def maxItems : Nat := 262144
def maxTotalBytes : Nat := 256 <<< 20
def maxDomainTag : Nat := 64

/-- One call on a `CanonicalWriter`. A `handle` is a `u64` whose value is a
64-bit counter of the coordinator; past `2 ^ 64` it has no encoding. A `list`
is the count of the items written next: the code casts it to 32 bits, but that
many items exceed the total limit before the cast could matter. -/
inductive Field
  | domain (tag : Bytes)
  | u8 (value : UInt8)
  | boolean (value : Bool)
  | u16 (value : UInt16)
  | u32 (value : UInt32)
  | u64 (value : UInt64)
  | str (value : Bytes)
  | handle (value : Nat)
  | digest (value : Digest256)
  | list (count : Nat)
deriving DecidableEq

namespace Field

def i64 (value : Int64) : Field := u64 value.toUInt64

/-- `f64` on the bit pattern of a double. -/
def f64 (bits : UInt64) : Field := u64 bits

def id {tag : IdTag} (value : Id tag) : Field := handle value.value

def gen {tag : GenTag} (value : Gen tag) : Field := handle value.value

def enum {α : Type} [DecidableEq α] [WireEnum α] (value : α) : Field := u8 (WireEnum.code value)

/-- `list(static_cast<std::uint32_t>(items.size()))`. -/
def count {α : Type} (items : List α) : Field := list items.length

def bytes : Field → Bytes
  | domain tag => UInt8.ofNat tag.length :: tag
  | u8 value => [value]
  | boolean value => [if value then 1 else 0]
  | u16 value => LittleEndian.encode 2 value.toNat
  | u32 value => LittleEndian.encode 4 value.toNat
  | u64 value => LittleEndian.encode 8 value.toNat
  | handle value => LittleEndian.encode 8 value
  | str value => LittleEndian.encode 4 value.length ++ value
  | digest value => value.bytes
  | list count => LittleEndian.encode 4 count

/-- The per-call limits of the writer. -/
def fits : Field → Bool
  | domain tag => tag.length ≤ maxDomainTag
  | str value => value.length ≤ maxStringBytes
  | list count => count ≤ maxItems
  | handle value => value < 2 ^ 64
  | _ => true

end Field

/-- The calls made on one writer. -/
abbrev Record := List Field

namespace Record

/-- A record written in several parts. -/
def join (parts : List Record) : Record := parts.flatten

/-- The writer's buffer. -/
def bytes (r : Record) : Bytes := r.flatMap Field.bytes

/-- Each call respects its own limit. -/
def eachFits (r : Record) : Bool := r.all Field.fits

/-- No call throws: each respects its own limit and the buffer stays below the
total. -/
def fits (r : Record) : Bool := r.eachFits && r.bytes.length ≤ maxTotalBytes

/-- `CanonicalWriter::hash`. -/
def hash [HashFunction] (r : Record) : Digest256 := sha256 r.bytes

@[simp] theorem join_nil : join [] = [] := rfl

@[simp] theorem join_cons (r : Record) (parts : List Record) : join (r :: parts) = r ++ join parts :=
  List.flatten_cons

@[simp] theorem bytes_nil : bytes [] = [] := rfl

@[simp] theorem bytes_append (r r' : Record) : bytes (r ++ r') = bytes r ++ bytes r' :=
  List.flatMap_append

@[simp] theorem bytes_cons (f : Field) (r : Record) : bytes (f :: r) = f.bytes ++ bytes r := rfl

theorem bytes_flatMap {α : Type} (xs : List α) (encode : α → Record) :
    bytes (xs.flatMap encode) = xs.flatMap fun x => bytes (encode x) := by
  simp only [bytes, List.flatMap_assoc]

@[simp] theorem eachFits_nil : eachFits [] = true := rfl

@[simp] theorem eachFits_cons (f : Field) (r : Record) :
    eachFits (f :: r) = (f.fits && eachFits r) := rfl

@[simp] theorem eachFits_append (r r' : Record) :
    eachFits (r ++ r') = (eachFits r && eachFits r') := List.all_append

@[simp] theorem eachFits_flatMap {α : Type} (xs : List α) (encode : α → Record) :
    eachFits (xs.flatMap encode) = xs.all fun x => eachFits (encode x) := List.all_flatMap

theorem eachFits_of_fits {r : Record} (h : r.fits = true) : r.eachFits = true := by
  rw [fits, Bool.and_eq_true] at h
  exact h.1

end Record

/-- How a call of the program can end early: with a status, or with the
`std::length_error` of a writer. -/
inductive Fault
  | status (status : Status)
  | lengthError
deriving DecidableEq

/-- The throwing calls of a writer filled with `r`. -/
def writes (r : Record) : Except Fault Unit := if r.fits then .ok () else .error .lengthError

/-- `return Status::error(...)`. -/
def refuse {α : Type} (code : ErrorCode) (detail : Bytes) : Except Fault α :=
  .error (.status ⟨code, detail⟩)

/-- `w.list(items.size())` and the calls made for each item. -/
def writeList {α : Type} (items : List α) (write : α → Record) : Record :=
  .count items :: items.flatMap write

/-- `write_string_list`. -/
def writeStringList (items : List Bytes) : Record := writeList items fun item => [.str item]

/-- `write_content_ref` (and `encode_content_ref`). -/
def writeContentRef (ref : ContentRef) : Record := [.digest ref.digest, .u64 ref.size]

-- ---------------------------------------------------------------------------
-- Reader
-- ---------------------------------------------------------------------------

/-- A read on a `CanonicalReader`. -/
abbrev Reader (α : Type) := Decoder UInt8 Status α

namespace Reader

/-- `CanonicalReader::fail` followed by `return false`. -/
def fail {α : Type} (code : ErrorCode) (detail : Bytes) : Reader α := Decoder.fail ⟨code, detail⟩

/-- The bytes of a fixed-width value, checked by `need`. -/
def need (n : Nat) : Reader Bytes := Decoder.take n ⟨.malformed, txt "canonical record truncated"⟩

def readU8 : Reader UInt8 := do
  let raw ← need 1
  pure (UInt8.ofNat (LittleEndian.decode raw))

def readBool : Reader Bool := do
  let raw ← readU8
  if raw > 1 then fail .malformed (txt "canonical boolean out of domain")
  else pure (raw == 1)

def readU16 : Reader UInt16 := do
  let raw ← need 2
  pure (UInt16.ofNat (LittleEndian.decode raw))

def readU32 : Reader UInt32 := do
  let raw ← need 4
  pure (UInt32.ofNat (LittleEndian.decode raw))

def readU64 : Reader UInt64 := do
  let raw ← need 8
  pure (UInt64.ofNat (LittleEndian.decode raw))

def readI64 : Reader Int64 := do
  let raw ← readU64
  pure raw.toInt64

def readF64 : Reader UInt64 := readU64

def readStr : Reader Bytes := do
  let length ← readU32
  if length.toNat > maxStringBytes then
    fail .limitExceeded (txt "canonical string exceeds configured limit")
  else need length.toNat

def readDigest : Reader Digest256 := do
  let raw ← need 32
  if h : raw.length = 32 then pure ⟨raw, h⟩
  else fail .malformed (txt "canonical record truncated")

def readList : Reader Nat := do
  let count ← readU32
  if count.toNat > maxItems then
    fail .limitExceeded (txt "canonical collection exceeds configured limit")
  else pure count.toNat

def readDomain (expected : Bytes) : Reader Unit := do
  let length ← readU8
  if length.toNat > maxDomainTag then fail .malformed (txt "canonical domain tag too long")
  else
    let actual ← need length.toNat
    if actual ≠ expected then fail .malformed (txt "canonical domain mismatch") else pure ()

/-- Decoding rejects the zero handle. -/
def readId {tag : IdTag} : Reader (Id tag) := do
  let raw ← readU64
  if raw == 0 then fail .malformed (txt "canonical identity handle is zero")
  else pure ⟨raw.toNat⟩

/-- The zero handle is a legitimate "absent" marker. -/
def readOptionalId {tag : IdTag} : Reader (Id tag) := do
  let raw ← readU64
  pure ⟨raw.toNat⟩

def readGen {tag : GenTag} : Reader (Gen tag) := do
  let raw ← readU64
  pure ⟨raw.toNat⟩

/-- `read_enum` of `codec.cpp`. -/
def readEnum {α : Type} [DecidableEq α] [WireEnum α] : Reader α := do
  let raw ← readU8
  match WireEnum.ofCode raw with
  | some value => pure value
  | none => fail .malformed (txt "enum value out of domain")

/-- A count and that many items. -/
def readItems {α : Type} (read : Reader α) : Reader (List α) := do
  let count ← readList
  Decoder.replicate read count

def readStringList : Reader (List Bytes) := readItems readStr

/-- The checked cast of a stored failure code. -/
def readCode (subject : String) : Reader ErrorCode := do
  let raw ← readU16
  if inDomain : raw ≤ 94 then pure ⟨raw, inDomain⟩
  else fail .malformed (txt subject ++ txt " failure code out of domain")

/-- `encode_content_ref` read back. -/
def decodeContentRef : Reader ContentRef := do
  let digest ← readDigest
  let size ← readU64
  pure { digest, size }

-- ---------------------------------------------------------------------------
-- Round trips
-- ---------------------------------------------------------------------------

section RoundTrip

open Decoder LittleEndian

variable {α : Type} {rest : Bytes}

theorem run_need (n : Nat) (front : Bytes) (h : front.length = n) :
    (need n).run (front ++ rest) = .ok (front, rest) :=
  run_take_of_length front rest _ h

theorem run_readU8 (v : UInt8) : readU8.run ((Field.u8 v).bytes ++ rest) = .ok (v, rest) := by
  rw [readU8, run_bind_of_run (run_need 1 _ rfl), run_pure]
  simp [Field.bytes, LittleEndian.decode]

theorem run_readU16 (v : UInt16) : readU16.run ((Field.u16 v).bytes ++ rest) = .ok (v, rest) := by
  rw [readU16, Field.bytes, run_bind_of_run (run_need 2 _ (length_encode ..)), run_pure,
    decode_encode_of_lt (by simpa using v.toNat_lt), UInt16.ofNat_toNat]

theorem run_readU32_encode (n : Nat) (h : n < 2 ^ 32) :
    readU32.run (encode 4 n ++ rest) = .ok (UInt32.ofNat n, rest) := by
  rw [readU32, run_bind_of_run (run_need 4 _ (length_encode ..)), run_pure,
    decode_encode_of_lt (by simpa using h)]

theorem run_readU32 (v : UInt32) : readU32.run ((Field.u32 v).bytes ++ rest) = .ok (v, rest) := by
  rw [Field.bytes, run_readU32_encode _ v.toNat_lt, UInt32.ofNat_toNat]

theorem run_readU64 (v : UInt64) : readU64.run ((Field.u64 v).bytes ++ rest) = .ok (v, rest) := by
  rw [readU64, Field.bytes, run_bind_of_run (run_need 8 _ (length_encode ..)), run_pure,
    decode_encode_of_lt (by simpa using v.toNat_lt), UInt64.ofNat_toNat]

theorem run_readU64_handle (n : Nat) (h : (Field.handle n).fits = true) :
    readU64.run ((Field.handle n).bytes ++ rest) = .ok (UInt64.ofNat n, rest) := by
  have hlt : n < 2 ^ 64 := by simpa [Field.fits] using h
  rw [readU64, Field.bytes, run_bind_of_run (run_need 8 _ (length_encode ..)), run_pure,
    decode_encode_of_lt (by simpa using hlt)]

theorem run_readBool (v : Bool) :
    readBool.run ((Field.boolean v).bytes ++ rest) = .ok (v, rest) := by
  have raw : readU8.run ((Field.boolean v).bytes ++ rest) = .ok (if v then 1 else 0, rest) :=
    run_readU8 _
  rw [readBool, run_bind_of_run raw]
  cases v <;> rfl

theorem run_readI64 (v : Int64) : readI64.run ((Field.i64 v).bytes ++ rest) = .ok (v, rest) := by
  rw [readI64, Field.i64, run_bind_of_run (run_readU64 _), run_pure, Int64.toInt64_toUInt64]

theorem run_readStr (v : Bytes) (h : (Field.str v).fits = true) :
    readStr.run ((Field.str v).bytes ++ rest) = .ok (v, rest) := by
  have hle : v.length ≤ maxStringBytes := by simpa [Field.fits] using h
  have hlt : v.length < 2 ^ 32 := lt_of_le_of_lt hle (by decide)
  have hnat : (UInt32.ofNat v.length).toNat = v.length := by
    rw [UInt32.toNat_ofNat', Nat.mod_eq_of_lt hlt]
  rw [Field.bytes, List.append_assoc, readStr, run_bind_of_run (run_readU32_encode _ hlt), hnat,
    if_neg (by omega), run_need _ _ rfl]

theorem run_readDigest (v : Digest256) :
    readDigest.run ((Field.digest v).bytes ++ rest) = .ok (v, rest) := by
  rw [readDigest, Field.bytes, run_bind_of_run (run_need 32 _ v.size_eq), dif_pos v.size_eq,
    run_pure]

theorem run_readList (c : Nat) (h : (Field.list c).fits = true) :
    readList.run ((Field.list c).bytes ++ rest) = .ok (c, rest) := by
  have hle : c ≤ maxItems := by simpa [Field.fits] using h
  have hlt : c < 2 ^ 32 := lt_of_le_of_lt hle (by decide)
  have raw : readU32.run ((Field.list c).bytes ++ rest) = .ok (UInt32.ofNat c, rest) :=
    run_readU32_encode _ hlt
  have hnat : (UInt32.ofNat c).toNat = c := by rw [UInt32.toNat_ofNat', Nat.mod_eq_of_lt hlt]
  rw [readList, run_bind_of_run raw, hnat, if_neg (by omega), run_pure]

theorem run_readEnum [DecidableEq α] [WireEnum α] (v : α) :
    readEnum.run ((Field.enum v).bytes ++ rest) = .ok (v, rest) := by
  rw [readEnum, Field.enum, run_bind_of_run (run_readU8 _), WireEnum.ofCode_code]
  rfl

theorem run_readGen {tag : GenTag} (v : Gen tag) (h : (Field.gen v).fits = true) :
    readGen.run ((Field.gen v).bytes ++ rest) = .ok (v, rest) := by
  have hlt : v.value < 2 ^ 64 := by simpa [Field.gen, Field.fits] using h
  have raw : readU64.run ((Field.gen v).bytes ++ rest) = .ok (UInt64.ofNat v.value, rest) :=
    run_readU64_handle _ h
  rw [readGen, run_bind_of_run raw, run_pure, UInt64.toNat_ofNat', Nat.mod_eq_of_lt hlt]

theorem run_readOptionalId {tag : IdTag} (v : Id tag) (h : (Field.id v).fits = true) :
    readOptionalId.run ((Field.id v).bytes ++ rest) = .ok (v, rest) := by
  have hlt : v.value < 2 ^ 64 := by simpa [Field.id, Field.fits] using h
  have raw : readU64.run ((Field.id v).bytes ++ rest) = .ok (UInt64.ofNat v.value, rest) :=
    run_readU64_handle _ h
  rw [readOptionalId, run_bind_of_run raw, run_pure, UInt64.toNat_ofNat', Nat.mod_eq_of_lt hlt]

theorem run_readDomain (tag : Bytes) (h : (Field.domain tag).fits = true) :
    (readDomain tag).run ((Field.domain tag).bytes ++ rest) = .ok ((), rest) := by
  have hle : tag.length ≤ maxDomainTag := by simpa [Field.fits] using h
  have hlt : tag.length < 2 ^ 8 := lt_of_le_of_lt hle (by decide)
  have hnat : (UInt8.ofNat tag.length).toNat = tag.length := by
    rw [UInt8.toNat_ofNat', Nat.mod_eq_of_lt hlt]
  have raw : readU8.run ((Field.domain tag).bytes ++ rest) =
      .ok (UInt8.ofNat tag.length, tag ++ rest) := run_readU8 _
  rw [readDomain, run_bind_of_run raw, hnat, if_neg (by omega), run_bind_of_run (run_need _ _ rfl),
    if_neg (by simp), run_pure]

end RoundTrip

-- ---------------------------------------------------------------------------
-- Acceptance, read by read
-- ---------------------------------------------------------------------------

section Acceptance

open Decoder

variable {α β : Type} {rest : Bytes}

@[simp] theorem parse_refused (code : ErrorCode) (detail : Bytes) (input : Bytes) :
    (Reader.fail code detail : Reader α).parse input = none := rfl

@[simp] theorem parse_readU8 (v : UInt8) (f : UInt8 → Reader β) :
    (readU8 >>= f).parse ((Field.u8 v).bytes ++ rest) = (f v).parse rest :=
  parse_bind_of_parse (parse_of_run (run_readU8 v))

@[simp] theorem parse_readBool (v : Bool) (f : Bool → Reader β) :
    (readBool >>= f).parse ((Field.boolean v).bytes ++ rest) = (f v).parse rest :=
  parse_bind_of_parse (parse_of_run (run_readBool v))

@[simp] theorem parse_readU16 (v : UInt16) (f : UInt16 → Reader β) :
    (readU16 >>= f).parse ((Field.u16 v).bytes ++ rest) = (f v).parse rest :=
  parse_bind_of_parse (parse_of_run (run_readU16 v))

@[simp] theorem parse_readU32 (v : UInt32) (f : UInt32 → Reader β) :
    (readU32 >>= f).parse ((Field.u32 v).bytes ++ rest) = (f v).parse rest :=
  parse_bind_of_parse (parse_of_run (run_readU32 v))

@[simp] theorem parse_readU64 (v : UInt64) (f : UInt64 → Reader β) :
    (readU64 >>= f).parse ((Field.u64 v).bytes ++ rest) = (f v).parse rest :=
  parse_bind_of_parse (parse_of_run (run_readU64 v))

@[simp] theorem parse_readF64 (v : UInt64) (f : UInt64 → Reader β) :
    (readF64 >>= f).parse ((Field.f64 v).bytes ++ rest) = (f v).parse rest :=
  parse_bind_of_parse (parse_of_run (run_readU64 v))

@[simp] theorem parse_readI64 (v : Int64) (f : Int64 → Reader β) :
    (readI64 >>= f).parse ((Field.i64 v).bytes ++ rest) = (f v).parse rest :=
  parse_bind_of_parse (parse_of_run (run_readI64 v))

@[simp] theorem parse_readDigest (v : Digest256) (f : Digest256 → Reader β) :
    (readDigest >>= f).parse ((Field.digest v).bytes ++ rest) = (f v).parse rest :=
  parse_bind_of_parse (parse_of_run (run_readDigest v))

@[simp] theorem parse_readEnum [DecidableEq α] [WireEnum α] (v : α) (f : α → Reader β) :
    (readEnum >>= f).parse ((Field.enum v).bytes ++ rest) = (f v).parse rest :=
  parse_bind_of_parse (parse_of_run (run_readEnum v))

@[simp] theorem parse_readStr (v : Bytes) (h : (Field.str v).fits = true) (f : Bytes → Reader β) :
    (readStr >>= f).parse ((Field.str v).bytes ++ rest) = (f v).parse rest :=
  parse_bind_of_parse (parse_of_run (run_readStr v h))

@[simp] theorem parse_readGen {tag : GenTag} (v : Gen tag) (h : (Field.gen v).fits = true)
    (f : Gen tag → Reader β) :
    (readGen >>= f).parse ((Field.gen v).bytes ++ rest) = (f v).parse rest :=
  parse_bind_of_parse (parse_of_run (run_readGen v h))

@[simp] theorem parse_readOptionalId {tag : IdTag} (v : Id tag) (h : (Field.id v).fits = true)
    (f : Id tag → Reader β) :
    (readOptionalId >>= f).parse ((Field.id v).bytes ++ rest) = (f v).parse rest :=
  parse_bind_of_parse (parse_of_run (run_readOptionalId v h))

theorem parse_readId_self {tag : IdTag} (v : Id tag) (h : (Field.id v).fits = true) :
    readId.parse ((Field.id v).bytes ++ rest) =
      if v.isZero = false then some (v, rest) else none := by
  have hlt : v.value < 2 ^ 64 := by simpa [Field.id, Field.fits] using h
  have raw : readU64.run ((Field.id v).bytes ++ rest) = .ok (UInt64.ofNat v.value, rest) :=
    run_readU64_handle _ h
  have hzero : (UInt64.ofNat v.value == 0) = v.isZero := by
    rw [Id.isZero, Bool.eq_iff_iff, beq_iff_eq, beq_iff_eq, ← UInt64.toNat_inj, UInt64.toNat_ofNat',
      Nat.mod_eq_of_lt hlt]
    rfl
  rw [readId, parse_bind_of_parse (parse_of_run raw), hzero]
  cases hz : v.isZero
  · rw [if_neg (by simp), if_pos rfl, parse_pure, UInt64.toNat_ofNat', Nat.mod_eq_of_lt hlt]
  · rfl

@[simp] theorem parse_readId {tag : IdTag} (v : Id tag) (h : (Field.id v).fits = true)
    (f : Id tag → Reader β) :
    (readId >>= f).parse ((Field.id v).bytes ++ rest) =
      if v.isZero = false then (f v).parse rest else none :=
  parse_bind_of_guard (parse_readId_self v h)

@[simp] theorem parse_readCode (subject : String) (v : ErrorCode) (f : ErrorCode → Reader β) :
    (readCode subject >>= f).parse ((Field.u16 v.value).bytes ++ rest) = (f v).parse rest := by
  refine parse_bind_of_parse ?_
  rw [readCode, parse_bind_of_parse (parse_of_run (run_readU16 v.value)), dif_pos v.inDomain,
    parse_pure]

@[simp] theorem parse_readList {γ : Type} (items : List γ) (h : (Field.count items).fits = true)
    (f : Nat → Reader β) :
    (readList >>= f).parse ((Field.count items).bytes ++ rest) = (f items.length).parse rest :=
  parse_bind_of_parse (parse_of_run (run_readList _ h))

@[simp] theorem parse_readDomain (tag : Bytes) (h : (Field.domain tag).fits = true)
    (f : Unit → Reader β) :
    (readDomain tag >>= f).parse ((Field.domain tag).bytes ++ rest) = (f ()).parse rest :=
  parse_bind_of_parse (parse_of_run (run_readDomain tag h))

/-- The items of a written list are accepted when each of them is. -/
theorem parse_items {d : Reader α} {write : α → Record} {ok : α → Prop} [DecidablePred ok]
    (items : List α) (f : List α → Reader β)
    (h : ∀ x ∈ items, ∀ rest, d.parse ((write x).bytes ++ rest) =
      if ok x then some (x, rest) else none) :
    (replicate d items.length >>= f).parse (Record.bytes (items.flatMap write) ++ rest) =
      if ∀ x ∈ items, ok x then (f items).parse rest else none := by
  rw [Record.bytes_flatMap]
  exact parse_bind_of_guard (parse_replicate_flatMap items rest h)

theorem parse_readItems {d : Reader α} {write : α → Record} (ok : α → Prop) [DecidablePred ok]
    (items : List α) (f : List α → Reader β) (hcount : (Field.count items).fits = true)
    (h : ∀ x ∈ items, ∀ rest, d.parse ((write x).bytes ++ rest) =
      if ok x then some (x, rest) else none) :
    (readItems d >>= f).parse ((writeList items write).bytes ++ rest) =
      if ∀ x ∈ items, ok x then (f items).parse rest else none := by
  refine parse_bind_of_guard ?_
  rw [readItems, writeList, Record.bytes_cons, List.append_assoc, parse_readList _ hcount,
    Record.bytes_flatMap, parse_replicate_flatMap items rest h]

/-- The items of a written list are read back one by one. -/
theorem parse_readItems_mapM {d : Reader α} {γ : Type} {write : γ → Record}
    (reread : γ → Option α) (items : List γ) (f : List α → Reader β)
    (hcount : (Field.count items).fits = true)
    (h : ∀ x ∈ items, ∀ rest, d.parse ((write x).bytes ++ rest) = (reread x).map (·, rest)) :
    (readItems d >>= f).parse ((writeList items write).bytes ++ rest) =
      (items.mapM reread).bind fun items => (f items).parse rest := by
  refine parse_bind_of_map ?_
  rw [readItems, writeList, Record.bytes_cons, List.append_assoc, parse_readList _ hcount,
    Record.bytes_flatMap, parse_replicate_mapM items rest h]

end Acceptance

end Reader

end DistributedCompilation
