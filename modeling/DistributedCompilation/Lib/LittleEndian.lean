import Mathlib

/-!
# Little-endian naturals

Fixed-width little-endian encodings of natural numbers as byte lists, and the
arithmetic that inverts them.
-/

namespace LittleEndian

/-- The `width` low-order bytes of `n`, least significant first. -/
def encode : Nat → Nat → List UInt8
  | 0, _ => []
  | width + 1, n => UInt8.ofNat n :: encode width (n / 256)

/-- The number whose little-endian digits are the given bytes. -/
def decode : List UInt8 → Nat
  | [] => 0
  | b :: bs => b.toNat + 256 * decode bs

@[simp] theorem length_encode (width n : Nat) : (encode width n).length = width := by
  induction width generalizing n with
  | zero => rfl
  | succ width ih => simp [encode, ih]

/-- Decoding what was encoded keeps the low-order digits. -/
theorem decode_encode (width n : Nat) : decode (encode width n) = n % 256 ^ width := by
  induction width generalizing n with
  | zero => simp [encode, decode, Nat.mod_one]
  | succ width ih =>
    have digit : (UInt8.ofNat n).toNat = n % 256 := by simp
    rw [encode, decode, ih, digit, Nat.pow_succ, Nat.mul_comm (256 ^ width), Nat.mod_mul]

theorem decode_encode_of_lt {width n : Nat} (h : n < 256 ^ width) :
    decode (encode width n) = n := by
  rw [decode_encode, Nat.mod_eq_of_lt h]

/-- A number of `n` digits. -/
theorem decode_lt (bytes : List UInt8) : decode bytes < 256 ^ bytes.length := by
  induction bytes with
  | nil => exact Nat.one_pos
  | cons b bs ih =>
    have hb := b.toNat_lt
    rw [decode, List.length_cons, Nat.pow_succ]
    omega

/-- The digits of a number are the bytes it was read from. -/
theorem encode_decode (bytes : List UInt8) : encode bytes.length (decode bytes) = bytes := by
  induction bytes with
  | nil => rfl
  | cons b bs ih =>
    have hdigit : UInt8.ofNat (b.toNat + 256 * decode bs) = b := by
      apply UInt8.toNat_inj.mp
      have := b.toNat_lt
      simp
    have hrest : (b.toNat + 256 * decode bs) / 256 = decode bs := by
      have := b.toNat_lt
      omega
    rw [List.length_cons, encode, decode, hdigit, hrest, ih]

end LittleEndian
