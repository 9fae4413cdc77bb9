import Mathlib

/-!
# SHA-256

The hash function as it is specified, on byte strings: words of 32 bits, constants
that are the fractions of roots of primes, a schedule given by its recurrence, and
blocks that are indexed rather than streamed. Words and blocks are big-endian.
-/

namespace Sha2

abbrev Word := BitVec 32

-- ---------------------------------------------------------------------------
-- Functions and constants
-- ---------------------------------------------------------------------------

def ch (x y z : Word) : Word := (x &&& y) ^^^ (~~~x &&& z)

def maj (x y z : Word) : Word := (x &&& y) ^^^ (x &&& z) ^^^ (y &&& z)

def bigSigma0 (x : Word) : Word := x.rotateRight 2 ^^^ x.rotateRight 13 ^^^ x.rotateRight 22

def bigSigma1 (x : Word) : Word := x.rotateRight 6 ^^^ x.rotateRight 11 ^^^ x.rotateRight 25

def smallSigma0 (x : Word) : Word := x.rotateRight 7 ^^^ x.rotateRight 18 ^^^ (x >>> 3)

def smallSigma1 (x : Word) : Word := x.rotateRight 17 ^^^ x.rotateRight 19 ^^^ (x >>> 10)

/-- The first 64 primes. -/
def primes : List Nat := (List.range 312).filter fun p => 2 ≤ p && (List.range p).all fun d => d < 2 || p % d != 0

/-- The first 32 bits of the fraction of a square root. -/
def squareRootWord (p : Nat) : Word := BitVec.ofNat 32 (Nat.sqrt (p * 2 ^ 64))

/-- The first 32 bits of the fraction of a cube root. -/
def cubeRootWord (p : Nat) : Word := BitVec.ofNat 32 (Nat.nthRoot 3 (p * 2 ^ 96))

/-- The constants of the rounds. -/
def constants : List Word := primes.map cubeRootWord

/-- The eight words of a hash value. -/
structure Hash where
  a : Word
  b : Word
  c : Word
  d : Word
  e : Word
  f : Word
  g : Word
  h : Word
deriving DecidableEq

/-- The hash value to start from. -/
def initial : Hash :=
  let root (i : Nat) := squareRootWord (primes.getD i 0)
  ⟨root 0, root 1, root 2, root 3, root 4, root 5, root 6, root 7⟩

-- ---------------------------------------------------------------------------
-- Compression
-- ---------------------------------------------------------------------------

/-- The message schedule of a block. -/
def schedule (message : Nat → Word) (t : Nat) : Word :=
  if t < 16 then message t
  else smallSigma1 (schedule message (t - 2)) + schedule message (t - 7) +
    smallSigma0 (schedule message (t - 15)) + schedule message (t - 16)

/-- One round, with its constant and its word of the schedule. -/
def round (s : Hash) (k w : Word) : Hash :=
  let t1 := s.h + bigSigma1 s.e + ch s.e s.f s.g + k + w
  let t2 := bigSigma0 s.a + maj s.a s.b s.c
  ⟨t1 + t2, s.a, s.b, s.c, s.d + t1, s.e, s.f, s.g⟩

def Hash.add (s s' : Hash) : Hash :=
  ⟨s.a + s'.a, s.b + s'.b, s.c + s'.c, s.d + s'.d, s.e + s'.e, s.f + s'.f, s.g + s'.g, s.h + s'.h⟩

/-- The hash value after one more block. -/
def compress (s : Hash) (message : Nat → Word) : Hash :=
  s.add ((List.range 64).foldl (fun r t => round r (constants.getD t 0) (schedule message t)) s)

-- ---------------------------------------------------------------------------
-- Messages
-- ---------------------------------------------------------------------------

/-- The word at an offset. -/
def word (bytes : List UInt8) (offset : Nat) : Word :=
  let byte (i : Nat) : BitVec 8 := (bytes.getD (offset + i) 0).toBitVec
  byte 0 ++ byte 1 ++ byte 2 ++ byte 3

/-- The zero bytes of the padding: as few as leave eight bytes of the last block. -/
def zeros (length : Nat) : Nat := (119 - length % 64) % 64

/-- The length in bits, in eight bytes. -/
def lengthField (length : Nat) : List UInt8 := (List.range 8).map fun i => UInt8.ofNat (8 * length / 256 ^ (7 - i))

/-- A one, zeros and the length. -/
def pad (message : List UInt8) : List UInt8 :=
  message ++ 0x80 :: List.replicate (zeros message.length) 0 ++ lengthField message.length

/-- The words of block `i` of a padded message. -/
def block (padded : List UInt8) (i t : Nat) : Word := word padded (64 * i + 4 * t)

/-- The bytes of a word. -/
def bytesOf (w : Word) : List UInt8 := [24, 16, 8, 0].map fun i => ⟨w.extractLsb' i 8⟩

def Hash.bytes (s : Hash) : List UInt8 := [s.a, s.b, s.c, s.d, s.e, s.f, s.g, s.h].flatMap bytesOf

/-- SHA-256. -/
def hash (message : List UInt8) : List UInt8 :=
  let padded := pad message
  ((List.range (padded.length / 64)).foldl (fun s i => compress s (block padded i)) initial).bytes

-- ---------------------------------------------------------------------------
-- Facts
-- ---------------------------------------------------------------------------

theorem length_pad (message : List UInt8) : (pad message).length = message.length + zeros message.length + 9 := by
  simp [pad, lengthField]
  omega

/-- A padded message is made of whole blocks. -/
theorem length_pad_mod (message : List UInt8) : (pad message).length % 64 = 0 := by
  rw [length_pad]
  unfold zeros
  omega

/-- A word of a block is a word of the message the block is cut from. -/
theorem word_take_drop (bytes : List UInt8) {start offset n : Nat} (h : offset + 4 ≤ n) :
    word ((bytes.drop start).take n) offset = word bytes (start + offset) := by
  have hget (i : Nat) (hi : i < 4) :
      ((bytes.drop start).take n).getD (offset + i) 0 = bytes.getD (start + offset + i) 0 := by
    rw [List.getD_eq_getElem?_getD, List.getD_eq_getElem?_getD, List.getElem?_take_of_lt (by omega), List.getElem?_drop,
      Nat.add_assoc]
  unfold word
  simp only [hget 0 (by omega), hget 1 (by omega), hget 2 (by omega), hget 3 (by omega)]

/-- The schedule is made from the first sixteen words. -/
theorem schedule_congr {message message' : Nat → Word} (h : ∀ t < 16, message t = message' t) (t : Nat) :
    schedule message t = schedule message' t := by
  induction t using Nat.strong_induction_on with
  | _ t ih =>
    rw [schedule.eq_def message t, schedule.eq_def message' t]
    split
    next hlt => exact h t hlt
    next hlate => rw [ih (t - 2) (by omega), ih (t - 7) (by omega), ih (t - 15) (by omega), ih (t - 16) (by omega)]

theorem compress_congr {message message' : Nat → Word} (h : ∀ t < 16, message t = message' t) (s : Hash) :
    compress s message = compress s message' := by
  unfold compress
  simp only [schedule_congr h]

end Sha2
