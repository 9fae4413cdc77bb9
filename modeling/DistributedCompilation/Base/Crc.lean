import DistributedCompilation.Base.Types

/-!
# Distributed Compilation — CRC-32

`crc32` of `digest.cpp`: one table lookup for each byte.
-/

namespace DistributedCompilation

namespace Crc

/-- One step of the loop that fills the table. -/
def shift (c : UInt32) : UInt32 := if (c &&& 1) = 1 then (0xEDB88320 : UInt32) ^^^ (c >>> 1) else c >>> 1

/-- `table[i]`. -/
def entry (i : UInt32) : UInt32 :=
  shift (shift (shift (shift (shift (shift (shift (shift i)))))))

/-- The table, as the function it tabulates. -/
def step (crc : UInt32) (byte : UInt8) : UInt32 :=
  entry ((crc ^^^ byte.toUInt32) &&& 0xFF) ^^^ (crc >>> 8)

end Crc

/-- `crc32`. -/
def crc32 (bytes : Bytes) (seed : UInt32) : UInt32 :=
  bytes.foldl Crc.step (seed ^^^ 0xFFFFFFFF) ^^^ 0xFFFFFFFF

/-- The check value of the CRC. -/
example : crc32 (txt "123456789") 0 = 0xCBF43926 := by decide +kernel

end DistributedCompilation
