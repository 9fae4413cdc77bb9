import DistributedCompilation.Base.Types

/-!
# Distributed Compilation — SHA-256

`digest.cpp` as a streaming object: eight state words, a partial block and a
bit count. `Sha256.update` feeds the block buffer and compresses every time it
holds 64 bytes, `Sha256.finish` pads.

Everything above this module depends on the hash only through the class
`HashFunction`, so a theorem about identities holds for every hash and can
state which collisions it rules out. The instance at the end is the hash the
program uses.
-/

namespace DistributedCompilation

/-- The hash behind every identity digest. -/
class HashFunction where
  sha256 : Bytes → Digest256

export HashFunction (sha256)

namespace Sha256

def kSha256K : List UInt32 := [
  0x428a2f98, 0x71374491, 0xb5c0fbcf, 0xe9b5dba5, 0x3956c25b, 0x59f111f1, 0x923f82a4, 0xab1c5ed5,
  0xd807aa98, 0x12835b01, 0x243185be, 0x550c7dc3, 0x72be5d74, 0x80deb1fe, 0x9bdc06a7, 0xc19bf174,
  0xe49b69c1, 0xefbe4786, 0x0fc19dc6, 0x240ca1cc, 0x2de92c6f, 0x4a7484aa, 0x5cb0a9dc, 0x76f988da,
  0x983e5152, 0xa831c66d, 0xb00327c8, 0xbf597fc7, 0xc6e00bf3, 0xd5a79147, 0x06ca6351, 0x14292967,
  0x27b70a85, 0x2e1b2138, 0x4d2c6dfc, 0x53380d13, 0x650a7354, 0x766a0abb, 0x81c2c92e, 0x92722c85,
  0xa2bfe8a1, 0xa81a664b, 0xc24b8b70, 0xc76c51a3, 0xd192e819, 0xd6990624, 0xf40e3585, 0x106aa070,
  0x19a4c116, 0x1e376c08, 0x2748774c, 0x34b0bcb5, 0x391c0cb3, 0x4ed8aa4a, 0x5b9cca4f, 0x682e6ff3,
  0x748f82ee, 0x78a5636f, 0x84c87814, 0x8cc70208, 0x90befffa, 0xa4506ceb, 0xbef9a3f7, 0xc67178f2]

def rotr (value bits : UInt32) : UInt32 := (value >>> bits) ||| (value <<< (32 - bits))

/-- The eight chaining words. -/
structure Words where
  a : UInt32 := 0x6a09e667
  b : UInt32 := 0xbb67ae85
  c : UInt32 := 0x3c6ef372
  d : UInt32 := 0xa54ff53a
  e : UInt32 := 0x510e527f
  f : UInt32 := 0x9b05688c
  g : UInt32 := 0x1f83d9ab
  h : UInt32 := 0x5be0cd19
deriving DecidableEq

def loadBe32 : Bytes → List UInt32
  | p0 :: p1 :: p2 :: p3 :: rest =>
    ((p0.toUInt32 <<< 24) ||| (p1.toUInt32 <<< 16) ||| (p2.toUInt32 <<< 8) ||| p3.toUInt32)
      :: loadBe32 rest
  | _ => []

def storeBe32 (value : UInt32) : Bytes :=
  [(value >>> 24).toUInt8, (value >>> 16).toUInt8, (value >>> 8).toUInt8, value.toUInt8]

/-- The message schedule, latest word first: `n` more words on top of `w`. -/
def schedule : Nat → List UInt32 → List UInt32
  | 0, w => w
  | n + 1, w =>
    let w15 := w.getD 14 0
    let w2 := w.getD 1 0
    let s0 := rotr w15 7 ^^^ rotr w15 18 ^^^ (w15 >>> 3)
    let s1 := rotr w2 17 ^^^ rotr w2 19 ^^^ (w2 >>> 10)
    schedule n ((w.getD 15 0 + s0 + w.getD 6 0 + s1) :: w)

def round (s : Words) (kw : UInt32 × UInt32) : Words :=
  let s1 := rotr s.e 6 ^^^ rotr s.e 11 ^^^ rotr s.e 25
  let ch := (s.e &&& s.f) ^^^ ((~~~ s.e) &&& s.g)
  let temp1 := s.h + s1 + ch + kw.1 + kw.2
  let s0 := rotr s.a 2 ^^^ rotr s.a 13 ^^^ rotr s.a 22
  let maj := (s.a &&& s.b) ^^^ (s.a &&& s.c) ^^^ (s.b &&& s.c)
  let temp2 := s0 + maj
  { a := temp1 + temp2, b := s.a, c := s.b, d := s.c, e := s.d + temp1, f := s.e, g := s.f, h := s.g }

def compress (s : Words) (block : Bytes) : Words :=
  let w := (schedule 48 (loadBe32 block).reverse).reverse
  let r := (kSha256K.zip w).foldl round s
  { a := s.a + r.a, b := s.b + r.b, c := s.c + r.c, d := s.d + r.d
    e := s.e + r.e, f := s.f + r.f, g := s.g + r.g, h := s.h + r.h }

end Sha256

/-- The streaming object. -/
structure Sha256 where
  state : Sha256.Words := {}
  buffer : Bytes := []
  bitCount : UInt64 := 0
deriving DecidableEq

namespace Sha256

/-- The copy loop of `update`: fill the buffer, compress when it holds 64
bytes. Every round either drains `data` or empties a full buffer, so the
length of `data` plus one bounds the number of rounds. -/
def feed : Nat → Sha256 → Bytes → Sha256
  | 0, h, _ => h
  | fuel + 1, h, data =>
    if data.isEmpty then h else
      let take := min data.length (64 - h.buffer.length)
      let buffer := h.buffer ++ data.take take
      let h := if buffer.length == 64 then { h with state := compress h.state buffer, buffer := [] }
        else { h with buffer := buffer }
      feed fuel h (data.drop take)

def update (h : Sha256) (data : Bytes) : Sha256 :=
  feed (data.length + 1) { h with bitCount := h.bitCount + UInt64.ofNat data.length * 8 } data

/-- `while (buffer_len_ != 56) update(&zero, 1)`: at most 64 rounds. -/
def padZero : Nat → Sha256 → Sha256
  | 0, h => h
  | fuel + 1, h => if h.buffer.length == 56 then h else padZero fuel (h.update [0])

def lengthBytes (bits : UInt64) : Bytes :=
  [(bits >>> 56).toUInt8, (bits >>> 48).toUInt8, (bits >>> 40).toUInt8, (bits >>> 32).toUInt8,
   (bits >>> 24).toUInt8, (bits >>> 16).toUInt8, (bits >>> 8).toUInt8, bits.toUInt8]

def Words.store (s : Words) : Bytes :=
  storeBe32 s.a ++ storeBe32 s.b ++ storeBe32 s.c ++ storeBe32 s.d ++
    storeBe32 s.e ++ storeBe32 s.f ++ storeBe32 s.g ++ storeBe32 s.h

def finish (h : Sha256) : Digest256 :=
  let h' := (padZero 64 (h.update [0x80])).update (lengthBytes h.bitCount)
  ⟨h'.state.store, rfl⟩

end Sha256

/-- The program's own hash. -/
instance : HashFunction where
  sha256 data := (({} : Sha256).update data).finish

/-- The test vector for the empty string. -/
example : (sha256 []).bytes.take 4 = [0xe3, 0xb0, 0xc4, 0x42] := by decide +kernel

end DistributedCompilation
