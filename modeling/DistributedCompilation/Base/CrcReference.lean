import DistributedCompilation.Base.Crc
import DistributedCompilation.Lib.ReflectedCrc

/-!
# Distributed Compilation — what the CRC computes

The table of `crc32` against a register that takes in its message bit by bit, and
checksums that are continued.
-/

namespace DistributedCompilation

namespace Crc

/-- The static `table`. -/
def table : List UInt32 := (List.range 256).map fun i => entry (UInt32.ofNat i)

/-- One round of the loop over the bytes. -/
def lookup (crc : UInt32) (byte : UInt8) : UInt32 :=
  table.getD ((crc ^^^ byte.toUInt32) &&& 0xFF).toNat 0 ^^^ (crc >>> 8)

/-- The polynomial. -/
def polynomial : BitVec 32 := 0xEDB88320#32

theorem getD_table {i : UInt32} (h : i.toNat < 256) : table.getD i.toNat 0 = entry i := by
  rw [table, List.getD_eq_getElem?_getD, List.getElem?_map, List.getElem?_range h, Option.map_some,
    Option.getD_some, UInt32.ofNat_toNat]

theorem lookup_eq (crc : UInt32) (byte : UInt8) : lookup crc byte = step crc byte := by
  have hlt : ((crc ^^^ byte.toUInt32) &&& 0xFF).toNat < 256 := by
    rw [UInt32.toNat_and]
    exact Nat.lt_succ_of_le Nat.and_le_right
  rw [lookup, step, getD_table hlt]

theorem shift_toBitVec (c : UInt32) : (shift c).toBitVec = ReflectedCrc.shift polynomial c.toBitVec := by
  have hbit : (c &&& 1) = 1 ↔ c.toBitVec.getLsbD 0 = true := by
    rw [← UInt32.toBitVec_inj, UInt32.toBitVec_and]
    show c.toBitVec &&& 1#32 = 1#32 ↔ _
    rw [BitVec.and_one_eq_setWidth_ofBool_getLsbD]
    cases c.toBitVec.getLsbD 0 <;> decide
  unfold shift ReflectedCrc.shift
  by_cases h : (c &&& 1) = 1
  · rw [if_pos h, if_pos (hbit.mp h)]
    exact BitVec.xor_comm _ _
  · rw [if_neg h, if_neg fun hc => h (hbit.mpr hc)]
    rfl

theorem entry_toBitVec (c : UInt32) : (entry c).toBitVec = (ReflectedCrc.shift polynomial)^[8] c.toBitVec := by
  unfold entry
  simp only [shift_toBitVec]
  rfl

/-- A byte through the table is a byte through the register. -/
theorem step_toBitVec (crc : UInt32) (byte : UInt8) :
    (step crc byte).toBitVec = ReflectedCrc.clockByte polynomial crc.toBitVec byte.toBitVec := by
  rw [ReflectedCrc.clockByte_eq, step, UInt32.toBitVec_xor, entry_toBitVec]
  rfl

theorem foldl_step_toBitVec (bytes : Bytes) (crc : UInt32) :
    (bytes.foldl step crc).toBitVec =
      ReflectedCrc.register polynomial crc.toBitVec (bytes.map UInt8.toBitVec) := by
  rw [ReflectedCrc.register_eq_foldl polynomial (by decide)]
  induction bytes generalizing crc with
  | nil => rfl
  | cons byte bytes ih => rw [List.foldl_cons, List.map_cons, List.foldl_cons, ih, step_toBitVec]

/-- The inversions at the end and at the start of the next part cancel. -/
theorem crc32_append (a b : Bytes) (seed : UInt32) : crc32 b (crc32 a seed) = crc32 (a ++ b) seed := by
  unfold crc32
  rw [List.foldl_append, UInt32.xor_assoc, UInt32.xor_self, UInt32.xor_zero]

/-- The checksum of the code is looked up in its table, it is the check value of the
bitwise register, and it can be continued. -/
theorem crc32_reference (a b : Bytes) :
    crc32 a 0 = a.foldl lookup 0xFFFFFFFF ^^^ 0xFFFFFFFF ∧
      (crc32 a 0).toBitVec = ReflectedCrc.checksum polynomial (a.map UInt8.toBitVec) ∧
      crc32 b (crc32 a 0) = crc32 (a ++ b) 0 := by
  have hlookup : lookup = step := funext fun crc => funext fun byte => lookup_eq crc byte
  refine ⟨?_, ?_, crc32_append a b 0⟩
  · rw [hlookup]
    rfl
  · unfold crc32
    rw [UInt32.toBitVec_xor, foldl_step_toBitVec]
    rfl

end Crc

end DistributedCompilation
