import Mathlib

/-!
# Reflected cyclic redundancy checks

A register of `w` bits takes in a message bit by bit, least significant first:
the bit that leaves it and the bit of the message decide whether the polynomial is
added. The register is linear in what it takes in, so several bits can be taken in
at once (`foldl_clock`) and the shifts of a whole byte can be tabulated
(`clockByte_eq`).
-/

namespace ReflectedCrc

variable {w : Nat} (poly : BitVec w)

/-- The register moves down by one place. -/
def shift (c : BitVec w) : BitVec w := if c.getLsbD 0 then (c >>> 1) ^^^ poly else c >>> 1

/-- The register takes in one bit of the message. -/
def clock (c : BitVec w) (bit : Bool) : BitVec w :=
  if (c.getLsbD 0 ^^ bit) = true then (c >>> 1) ^^^ poly else c >>> 1

/-- The bits of a byte, least significant first. -/
def bits (byte : BitVec 8) : List Bool := (List.range 8).map byte.getLsbD

/-- The register after a message. -/
def register (start : BitVec w) (message : List (BitVec 8)) : BitVec w :=
  (message.flatMap bits).foldl (clock poly) start

/-- The check value: the register starts from ones and is inverted at the end. -/
def checksum (message : List (BitVec 8)) : BitVec w :=
  register poly (BitVec.allOnes w) message ^^^ BitVec.allOnes w

-- ---------------------------------------------------------------------------
-- Linearity
-- ---------------------------------------------------------------------------

theorem shift_xor (a b : BitVec w) : shift poly (a ^^^ b) = shift poly a ^^^ shift poly b := by
  have cancel (x y : BitVec w) : x ^^^ poly ^^^ (y ^^^ poly) = x ^^^ y := by
    rw [BitVec.xor_assoc, BitVec.xor_comm y, ← BitVec.xor_assoc poly, BitVec.xor_self, BitVec.zero_xor]
  unfold shift
  rw [BitVec.getLsbD_xor, BitVec.ushiftRight_xor_distrib]
  cases a.getLsbD 0 <;> cases b.getLsbD 0
  · rfl
  · simp [BitVec.xor_assoc]
  · simp only [Bool.xor_false, if_true, Bool.false_eq_true, if_false]
    rw [BitVec.xor_assoc, BitVec.xor_assoc, BitVec.xor_comm poly]
  · simpa using (cancel _ _).symm

theorem iterate_shift_xor (n : Nat) (a b : BitVec w) :
    (shift poly)^[n] (a ^^^ b) = (shift poly)^[n] a ^^^ (shift poly)^[n] b := by
  induction n generalizing a b with
  | zero => rfl
  | succ n ih => rw [Function.iterate_succ_apply, shift_xor, ih, ← Function.iterate_succ_apply,
      ← Function.iterate_succ_apply]

/-- Zeros leave the register as they are shifted out. -/
theorem iterate_shift_of_clear {n : Nat} {c : BitVec w} (clear : ∀ i < n, c.getLsbD i = false) :
    (shift poly)^[n] c = c >>> n := by
  induction n with
  | zero => simp
  | succ n ih =>
    have hbit : (c >>> n).getLsbD 0 = false := by
      rw [BitVec.getLsbD_ushiftRight, Nat.add_zero]
      exact clear n (Nat.lt_succ_self n)
    rw [Function.iterate_succ_apply', ih fun i hi => clear i (Nat.lt_succ_of_lt hi), shift, hbit,
      if_neg Bool.false_ne_true, BitVec.shiftRight_add]

-- ---------------------------------------------------------------------------
-- Several bits at once
-- ---------------------------------------------------------------------------

/-- The word with the given low bits. -/
def lift : List Bool → BitVec w
  | [] => 0
  | bit :: rest => (lift rest <<< 1) ||| (BitVec.ofBool bit).setWidth w

theorem getLsbD_lift (message : List Bool) (i : Nat) :
    (lift message : BitVec w).getLsbD i = (decide (i < w) && message.getD i false) := by
  induction message generalizing i with
  | nil => simp [lift]
  | cons bit rest ih =>
    rw [lift, BitVec.getLsbD_or, BitVec.getLsbD_shiftLeft, BitVec.getLsbD_setWidth]
    cases i with
    | zero => cases bit <;> simp
    | succ i =>
      rw [Nat.add_sub_cancel, ih]
      by_cases hi : i + 1 < w
      · have hlow : i < w := by omega
        simp [hi, hlow]
      · simp [hi]

/-- Bits taken in one by one are a word added at once and shifted out. -/
theorem foldl_clock {message : List Bool} (room : message.length ≤ w) (c : BitVec w) :
    message.foldl (clock poly) c = (shift poly)^[message.length] (c ^^^ lift message) := by
  induction message generalizing c with
  | nil => simp [lift]
  | cons bit rest ih =>
    have hroom : rest.length + 1 ≤ w := room
    have hclock : clock poly c bit = shift poly (c ^^^ (BitVec.ofBool bit).setWidth w) := by
      have hw : 0 < w := by omega
      have hhigh : ((BitVec.ofBool bit).setWidth w) >>> 1 = 0#w := by
        ext i hi
        cases bit <;> simp
      unfold clock shift
      rw [BitVec.getLsbD_xor, BitVec.ushiftRight_xor_distrib, hhigh, BitVec.xor_zero]
      simp [hw]
    have hsplit : (lift (bit :: rest) : BitVec w) = (BitVec.ofBool bit).setWidth w ^^^ (lift rest <<< 1) := by
      ext i hi
      rw [← BitVec.getLsbD_eq_getElem, ← BitVec.getLsbD_eq_getElem]
      rw [lift, BitVec.getLsbD_or, BitVec.getLsbD_xor, BitVec.getLsbD_shiftLeft, BitVec.getLsbD_setWidth]
      cases i <;> cases bit <;> simp
    have hrest : shift poly (lift rest <<< 1 : BitVec w) = lift rest := by
      have hbit : (lift rest <<< 1 : BitVec w).getLsbD 0 = false := by simp
      rw [shift, hbit, if_neg Bool.false_ne_true]
      ext i hi
      rw [← BitVec.getLsbD_eq_getElem, ← BitVec.getLsbD_eq_getElem, BitVec.getLsbD_ushiftRight,
        BitVec.getLsbD_shiftLeft, getLsbD_lift, getLsbD_lift]
      by_cases hlast : 1 + i < w
      · simp [hlast, hi]
      · have hnone : rest.length ≤ i := by omega
        simp [hlast, hnone]
    rw [List.foldl_cons, ih (by omega), List.length_cons, Function.iterate_succ_apply, hclock, hsplit,
      ← BitVec.xor_assoc, shift_xor poly _ (lift rest <<< 1), hrest]

theorem lift_bits (byte : BitVec 8) : (lift (bits byte) : BitVec w) = byte.setWidth w := by
  ext i hi
  rw [← BitVec.getLsbD_eq_getElem, ← BitVec.getLsbD_eq_getElem, getLsbD_lift, BitVec.getLsbD_setWidth]
  by_cases hbyte : i < 8
  · simp [bits, hi, hbyte]
  · simp [bits, hbyte, BitVec.getLsbD_of_ge byte i (Nat.not_lt.mp hbyte)]

/-- The shifts of a byte that has been added to the register. -/
def clockByte (c : BitVec w) (byte : BitVec 8) : BitVec w := (shift poly)^[8] (c ^^^ byte.setWidth w)

theorem register_eq_foldl (room : 8 ≤ w) (start : BitVec w) (message : List (BitVec 8)) :
    register poly start message = message.foldl (clockByte poly) start := by
  unfold register
  induction message generalizing start with
  | nil => rfl
  | cons byte message ih =>
    have hbits : (bits byte).length = 8 := rfl
    rw [List.flatMap_cons, List.foldl_append, ih, foldl_clock poly (by rw [hbits]; exact room), hbits, lift_bits]
    rfl

/-- The shifts of the low byte can be looked up; the rest of the register only moves
down. -/
theorem clockByte_eq (c : BitVec w) (byte : BitVec 8) :
    clockByte poly c byte =
      (shift poly)^[8] ((c ^^^ byte.setWidth w) &&& (BitVec.ofNat w 255)) ^^^ (c >>> 8) := by
  have low (i : Nat) : (BitVec.ofNat w 255).getLsbD i = (decide (i < w) && decide (i < 8)) := by
    rw [BitVec.getLsbD_ofNat, show (255 : Nat) = 2 ^ 8 - 1 from rfl, Nat.testBit_two_pow_sub_one]
  have hsplit (x : BitVec w) : x = (x &&& BitVec.ofNat w 255) ^^^ (x &&& ~~~BitVec.ofNat w 255) := by
    ext i hi
    simp only [BitVec.getElem_xor, BitVec.getElem_and, BitVec.getElem_not]
    cases x[i] <;> cases (BitVec.ofNat w 255)[i] <;> rfl
  have hclear : ∀ i < 8, ((c ^^^ byte.setWidth w) &&& ~~~BitVec.ofNat w 255).getLsbD i = false := by
    intro i hi
    rw [BitVec.getLsbD_and, BitVec.getLsbD_not, low]
    by_cases hw : i < w
    · simp [hi, hw]
    · simp [hw]
  have hhigh : ((c ^^^ byte.setWidth w) &&& ~~~BitVec.ofNat w 255) >>> 8 = c >>> 8 := by
    apply BitVec.eq_of_getLsbD_eq
    intro i hi
    rw [BitVec.getLsbD_ushiftRight, BitVec.getLsbD_ushiftRight, BitVec.getLsbD_and, BitVec.getLsbD_not, low,
      BitVec.getLsbD_xor, BitVec.getLsbD_setWidth]
    by_cases hw : 8 + i < w
    · simp [hw]
    · simp [hw, BitVec.getLsbD_of_ge c (8 + i) (by omega)]
  unfold clockByte
  conv_lhs => rw [hsplit (c ^^^ byte.setWidth w)]
  rw [iterate_shift_xor, iterate_shift_of_clear poly hclear, hhigh]

end ReflectedCrc
