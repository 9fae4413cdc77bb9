import DistributedCompilation.Base.Streaming
import DistributedCompilation.Lib.Sha2Arith

/-!
# Distributed Compilation — evaluating the hash

The program's hash in the arithmetic of natural numbers, which a run on a fixed input
evaluates in a fraction of the time. A check of such a run unfolds its input and
replaces the one by the other (`hashFunction_eq`).
-/

namespace DistributedCompilation

namespace Sha256

/-- The constants of the rounds, as numbers. -/
def roundNumbers : List Nat := [
  0x428a2f98, 0x71374491, 0xb5c0fbcf, 0xe9b5dba5, 0x3956c25b, 0x59f111f1, 0x923f82a4, 0xab1c5ed5,
  0xd807aa98, 0x12835b01, 0x243185be, 0x550c7dc3, 0x72be5d74, 0x80deb1fe, 0x9bdc06a7, 0xc19bf174,
  0xe49b69c1, 0xefbe4786, 0x0fc19dc6, 0x240ca1cc, 0x2de92c6f, 0x4a7484aa, 0x5cb0a9dc, 0x76f988da,
  0x983e5152, 0xa831c66d, 0xb00327c8, 0xbf597fc7, 0xc6e00bf3, 0xd5a79147, 0x06ca6351, 0x14292967,
  0x27b70a85, 0x2e1b2138, 0x4d2c6dfc, 0x53380d13, 0x650a7354, 0x766a0abb, 0x81c2c92e, 0x92722c85,
  0xa2bfe8a1, 0xa81a664b, 0xc24b8b70, 0xc76c51a3, 0xd192e819, 0xd6990624, 0xf40e3585, 0x106aa070,
  0x19a4c116, 0x1e376c08, 0x2748774c, 0x34b0bcb5, 0x391c0cb3, 0x4ed8aa4a, 0x5b9cca4f, 0x682e6ff3,
  0x748f82ee, 0x78a5636f, 0x84c87814, 0x8cc70208, 0x90befffa, 0xa4506ceb, 0xbef9a3f7, 0xc67178f2]

theorem roundNumbers_eq : roundNumbers = (kSha256K.map UInt32.toBitVec).map BitVec.toNat := by decide +kernel

/-- Goes on with the first chaining words. -/
def first (next : Sha2.Arith.Chain Bytes) : Bytes :=
  next 0x6a09e667 0xbb67ae85 0x3c6ef372 0xa54ff53a 0x510e527f 0x9b05688c 0x1f83d9ab 0x5be0cd19

theorem first_eq (next : Sha2.Arith.Chain Bytes) : first next = next.on Sha2.initial := by
  rw [← hash_initial]
  rfl

theorem hash_eq (message : Bytes) : Sha2.Arith.hash roundNumbers first message = Sha2.hash message := by
  rw [roundNumbers_eq]
  exact Sha2.Arith.hash_eq constants_eq rfl first_eq message

theorem length_hash (message : Bytes) : (Sha2.hash message).length = 32 := rfl

/-- The hash of the program, by numbers. -/
@[reducible] def numeric : HashFunction where
  sha256 message := ⟨Sha2.Arith.hash roundNumbers first message, by rw [hash_eq]; exact length_hash message⟩

end Sha256

theorem hashFunction_eq : instHashFunction = Sha256.numeric := by
  have hsha256 : instHashFunction.sha256 = Sha256.numeric.sha256 := by
    funext message
    refine Digest256.ext ?_
    show (sha256 message : Digest256).bytes = Sha2.Arith.hash Sha256.roundNumbers Sha256.first message
    rw [Sha256.hash_eq]
    exact (Sha256.Absorbed.empty.update message).finish
  exact congrArg HashFunction.mk hsha256

end DistributedCompilation
