import DistributedCompilation.Base.Digest
import DistributedCompilation.Lib.Sha2
import DistributedCompilation.Lib.Splitter

/-!
# Distributed Compilation — what the streaming hash computes

`Sha256` against SHA-256 as it is specified. The object compresses a block as soon
as its buffer holds one, so its state is a fold over the whole blocks of what it
was fed and its buffer is what they leave (`Sha256.Absorbed`); the two updates of
the padding complete the last block.
-/

namespace DistributedCompilation

namespace Sha256

-- ---------------------------------------------------------------------------
-- Words
-- ---------------------------------------------------------------------------

/-- The chaining words as a hash value. -/
def Words.hash (s : Words) : Sha2.Hash :=
  ⟨s.a.toBitVec, s.b.toBitVec, s.c.toBitVec, s.d.toBitVec, s.e.toBitVec, s.f.toBitVec, s.g.toBitVec, s.h.toBitVec⟩

/-- The constants of the code are the fractions they stand for. -/
theorem constants_eq : Sha2.constants = kSha256K.map UInt32.toBitVec := by decide +kernel

theorem hash_initial : ({} : Words).hash = Sha2.initial := by decide +kernel

/-- Four bytes, most significant first. -/
theorem or_shift_eq_append (b0 b1 b2 b3 : BitVec 8) :
    (b0.setWidth 32 <<< 24) ||| (b1.setWidth 32 <<< 16) ||| (b2.setWidth 32 <<< 8) ||| b3.setWidth 32 =
      b0 ++ b1 ++ b2 ++ b3 := by
  have high (b : BitVec 8) {i : Nat} (hi : 8 ≤ i) : b.getLsbD i = false := BitVec.getLsbD_of_ge b i hi
  have cut (i j k : Nat) : i - (j + k) = i - j - k := (Nat.sub_sub i j k).symm
  apply BitVec.eq_of_getLsbD_eq
  intro i hi
  simp only [BitVec.getLsbD_or, BitVec.getLsbD_shiftLeft, BitVec.getLsbD_setWidth, BitVec.getLsbD_append]
  by_cases h8 : i < 8
  · simp [h8, show i < 16 by omega, show i < 24 by omega, show i < 32 by omega]
  · rw [high b3 (by omega)]
    by_cases h16 : i - 8 < 8
    · simp [h8, h16, hi, show i < 16 by omega, show i < 24 by omega, show i - 8 < 32 by omega]
    · rw [high b2 (by omega)]
      by_cases h24 : i - 8 - 8 < 8
      · simp [h8, h16, h24, hi, show ¬i < 16 by omega, show i < 24 by omega, show i - 8 - 8 < 32 by omega, cut i 8 8]
      · rw [high b1 (by omega)]
        simp [h8, h16, h24, hi, show ¬i < 16 by omega, show ¬i < 24 by omega,
          show i - 8 - 8 - 8 < 32 by omega, cut i 16 8, cut i 8 8]

/-- The words of a block. -/
theorem loadBe32_eq (count : Nat) (bytes : Bytes) (h : bytes.length = 4 * count) :
    loadBe32 bytes = (List.range count).map fun t => ⟨Sha2.word bytes (4 * t)⟩ := by
  induction count generalizing bytes with
  | zero =>
    obtain rfl : bytes = [] := List.eq_nil_of_length_eq_zero h
    rfl
  | succ count ih =>
    match bytes, h with
    | p0 :: p1 :: p2 :: p3 :: rest, h =>
      have hrest : rest.length = 4 * count := by
        simp only [List.length_cons] at h
        omega
      have hword : (p0.toUInt32 <<< 24) ||| (p1.toUInt32 <<< 16) ||| (p2.toUInt32 <<< 8) ||| p3.toUInt32 =
          (⟨Sha2.word (p0 :: p1 :: p2 :: p3 :: rest) (4 * 0)⟩ : UInt32) :=
        UInt32.toBitVec_inj.mp (or_shift_eq_append p0.toBitVec p1.toBitVec p2.toBitVec p3.toBitVec)
      rw [loadBe32, hword, ih rest hrest, List.range_succ_eq_map, List.map_cons, List.map_map]
      rfl

-- ---------------------------------------------------------------------------
-- Compression
-- ---------------------------------------------------------------------------

section Schedule

variable (message : Nat → Sha2.Word)

/-- A word of the schedule. -/
def scheduled (t : Nat) : UInt32 := ⟨Sha2.schedule message t⟩

/-- The words before the first `k`, latest first. -/
theorem getD_reverse_range {k j : Nat} (h : j < k) :
    (((List.range k).map (scheduled message)).reverse).getD j 0 = scheduled message (k - 1 - j) := by
  rw [List.getD_eq_getElem?_getD, List.getElem?_reverse (by simpa using h)]
  simp [show k - 1 - j < k by omega]

/-- One more word of the schedule. -/
theorem scheduled_next {k : Nat} (h : 16 ≤ k) :
    scheduled message (k - 16) +
        (rotr (scheduled message (k - 15)) 7 ^^^ rotr (scheduled message (k - 15)) 18 ^^^ (scheduled message (k - 15) >>> 3)) +
      scheduled message (k - 7) +
      (rotr (scheduled message (k - 2)) 17 ^^^ rotr (scheduled message (k - 2)) 19 ^^^ (scheduled message (k - 2) >>> 10)) =
    scheduled message k := by
  apply UInt32.toBitVec_inj.mp
  have hnext : Sha2.schedule message k = Sha2.smallSigma1 (Sha2.schedule message (k - 2)) +
      Sha2.schedule message (k - 7) + Sha2.smallSigma0 (Sha2.schedule message (k - 15)) +
      Sha2.schedule message (k - 16) := by
    rw [Sha2.schedule, if_neg (by omega)]
  show Sha2.schedule message (k - 16) + Sha2.smallSigma0 (Sha2.schedule message (k - 15)) +
    Sha2.schedule message (k - 7) + Sha2.smallSigma1 (Sha2.schedule message (k - 2)) = Sha2.schedule message k
  rw [hnext]
  ac_rfl

theorem schedule_eq (n : Nat) {k : Nat} (h : 16 ≤ k) :
    schedule n ((List.range k).map (scheduled message)).reverse =
      ((List.range (k + n)).map (scheduled message)).reverse := by
  induction n generalizing k with
  | zero => rfl
  | succ n ih =>
    have hcons : scheduled message k :: ((List.range k).map (scheduled message)).reverse =
        ((List.range (k + 1)).map (scheduled message)).reverse := by
      rw [List.range_succ, List.map_append, List.reverse_append]
      rfl
    rw [schedule]
    rw [getD_reverse_range message (by omega), getD_reverse_range message (by omega),
      getD_reverse_range message (by omega), getD_reverse_range message (by omega),
      show k - 1 - 14 = k - 15 by omega, show k - 1 - 1 = k - 2 by omega,
      show k - 1 - 15 = k - 16 by omega, show k - 1 - 6 = k - 7 by omega, scheduled_next message h, hcons,
      ih (by omega), show k + 1 + n = k + (n + 1) by omega]

end Schedule

/-- The words of the message that a block begins. -/
def blockWords (block : Bytes) (t : Nat) : Sha2.Word := Sha2.word block (4 * t)

theorem hash_compress (s : Words) {block : Bytes} (h : block.length = 64) :
    (compress s block).hash = Sha2.compress s.hash (blockWords block) := by
  have hload : loadBe32 block = (List.range 16).map (scheduled (blockWords block)) := by
    rw [loadBe32_eq 16 block (by omega)]
    refine List.map_congr_left fun t ht => ?_
    have hlt : t < 16 := List.mem_range.mp ht
    rw [scheduled, Sha2.schedule, if_pos hlt]
    rfl
  have hwords : (schedule 48 (loadBe32 block).reverse).reverse = (List.range 64).map (scheduled (blockWords block)) := by
    rw [hload, schedule_eq _ 48 (Nat.le_refl 16), List.reverse_reverse]
  have hconstants : kSha256K = (List.range 64).map fun t => kSha256K.getD t 0 := by decide +kernel
  have hrounds : ((kSha256K.zip ((List.range 64).map (scheduled (blockWords block)))).foldl round s).hash =
      (List.range 64).foldl (fun r t => Sha2.round r (Sha2.constants.getD t 0)
        (Sha2.schedule (blockWords block) t)) s.hash := by
    rw [hconstants, List.zip_map', List.foldl_map, constants_eq]
    refine (List.foldl_hom Words.hash fun r t => ?_).symm
    have hget : (kSha256K.map UInt32.toBitVec).getD t 0 = (kSha256K.getD t 0).toBitVec := by
      rw [List.getD_eq_getElem?_getD, List.getD_eq_getElem?_getD, List.getElem?_map]
      cases kSha256K[t]? <;> rfl
    rw [hget]
    rfl
  unfold compress Sha2.compress
  rw [hwords, ← hrounds]
  rfl

-- ---------------------------------------------------------------------------
-- Streaming
-- ---------------------------------------------------------------------------

/-- The blocks of a message. -/
def blocks (message : Bytes) : List Bytes × Except Empty Bytes :=
  (Splitter.blocks UInt8 (show 0 < 64 by decide)).pieces message

/-- What the object holds after a message: its state has taken in the whole blocks, its
buffer is what they leave. -/
structure Absorbed (h : Sha256) (message : Bytes) : Prop where
  state : h.state = (blocks message).1.foldl compress {}
  buffer : (blocks message).2 = .ok h.buffer
  bitCount : h.bitCount = UInt64.ofNat message.length * 8

theorem Absorbed.empty : Absorbed {} [] := by
  have hnone : blocks [] = ([], .ok []) := Splitter.pieces_blocks_short (by decide)
  exact ⟨by rw [hnone]; rfl, by rw [hnone], rfl⟩

/-- What is left of a message. -/
theorem Absorbed.length_buffer {h : Sha256} {message : Bytes} (absorbed : Absorbed h message) :
    h.buffer.length = message.length % 64 := by
  obtain ⟨rest, hrest, hlength⟩ : ∃ rest, (blocks message).2 = .ok rest ∧ rest.length = message.length % 64 :=
    Splitter.pieces_blocks_rest message
  obtain rfl := Except.ok.inj (absorbed.buffer.symm.trans hrest)
  exact hlength

/-- The buffer never holds a block. -/
theorem Absorbed.length_lt {h : Sha256} {message : Bytes} (absorbed : Absorbed h message) : h.buffer.length < 64 := by
  rw [absorbed.length_buffer]
  exact Nat.mod_lt _ (by decide)

/-- The copy loop compresses the blocks of the buffer and the data. -/
theorem feed_eq {fuel : Nat} {h : Sha256} {data : Bytes} (enough : data.length ≤ fuel) (short : h.buffer.length < 64) :
    (feed fuel h data).state = (blocks (h.buffer ++ data)).1.foldl compress h.state ∧
      (blocks (h.buffer ++ data)).2 = .ok (feed fuel h data).buffer ∧
      (feed fuel h data).bitCount = h.bitCount := by
  have drained (h : Sha256) (short : h.buffer.length < 64) : h.state = (blocks (h.buffer ++ [])).1.foldl compress h.state ∧
      (blocks (h.buffer ++ [])).2 = .ok h.buffer ∧ h.bitCount = h.bitCount := by
    have hnone : blocks (h.buffer ++ []) = ([], .ok h.buffer) := by
      rw [List.append_nil]
      exact Splitter.pieces_blocks_short short
    exact ⟨by rw [hnone]; rfl, by rw [hnone], rfl⟩
  induction fuel generalizing h data with
  | zero =>
    obtain rfl : data = [] := List.eq_nil_of_length_eq_zero (Nat.le_zero.mp enough)
    exact drained h short
  | succ fuel ih =>
    cases data with
    | nil => exact drained h short
    | cons c data =>
      rw [feed]
      simp only [List.isEmpty_cons, Bool.false_eq_true, if_false]
      generalize htake : min (c :: data).length (64 - h.buffer.length) = take
      have hpos : 0 < take := by
        rw [← htake, List.length_cons]
        omega
      have hfuel : ((c :: data).drop take).length ≤ fuel := by
        rw [List.length_drop, List.length_cons] at *
        omega
      have hsplit : h.buffer ++ (c :: data) = (h.buffer ++ (c :: data).take take) ++ (c :: data).drop take := by
        rw [List.append_assoc, List.take_append_drop]
      have hlength : (h.buffer ++ (c :: data).take take).length = h.buffer.length + take := by
        rw [List.length_append, List.length_take]
        omega
      split
      next hfull =>
        have hwhole : (h.buffer ++ (c :: data).take take).length = 64 := beq_iff_eq.mp hfull
        have hblocks : blocks (h.buffer ++ (c :: data)) =
            ((h.buffer ++ (c :: data).take take) :: (blocks ([] ++ (c :: data).drop take)).1,
              (blocks ([] ++ (c :: data).drop take)).2) := by
          rw [hsplit, List.nil_append]
          have hlong : 64 ≤ ((h.buffer ++ (c :: data).take take) ++ (c :: data).drop take).length := by
            rw [List.length_append]
            omega
          refine (Splitter.pieces_blocks_long hlong).trans ?_
          rw [List.take_left' hwhole, List.drop_left' hwhole]
          rfl
        have hrest := @ih { h with
          state := compress h.state (h.buffer ++ (c :: data).take take)
          buffer := [] } ((c :: data).drop take) hfuel (Nat.succ_pos 63)
        rw [hblocks]
        exact hrest
      next hpart =>
        have hne : (h.buffer ++ (c :: data).take take).length ≠ 64 := fun heq => hpart (beq_iff_eq.mpr heq)
        have hrest := @ih { h with buffer := h.buffer ++ (c :: data).take take } ((c :: data).drop take) hfuel (by
          show (h.buffer ++ (c :: data).take take).length < 64
          omega)
        rw [hsplit]
        exact hrest

/-- An update absorbs its data. -/
theorem Absorbed.update {h : Sha256} {message : Bytes} (absorbed : Absorbed h message) (data : Bytes) :
    Absorbed (h.update data) (message ++ data) := by
  obtain ⟨hstate, hbuffer, hbits⟩ := @feed_eq (data.length + 1) { h with
    bitCount := h.bitCount + UInt64.ofNat data.length * 8 } data (Nat.le_succ _) absorbed.length_lt
  have happend := Splitter.pieces_append (s := Splitter.blocks UInt8 (show 0 < 64 by decide)) message data
  have hmessage : ((Splitter.blocks UInt8 (show 0 < 64 by decide)).pieces message).2 = .ok h.buffer := absorbed.buffer
  rw [hmessage] at happend
  have happend : blocks (message ++ data) = ((blocks message).1 ++ (blocks (h.buffer ++ data)).1,
      (blocks (h.buffer ++ data)).2) := happend
  refine ⟨?_, ?_, ?_⟩
  · rw [happend, List.foldl_append, ← absorbed.state]
    exact hstate
  · rw [happend]
    exact hbuffer
  · rw [List.length_append, UInt64.ofNat_add, UInt64.add_mul, ← absorbed.bitCount]
    exact hbits

theorem Absorbed.updates {h : Sha256} {message : Bytes} (absorbed : Absorbed h message) (chunks : List Bytes) :
    Absorbed (chunks.foldl Sha256.update h) (message ++ chunks.flatten) := by
  induction chunks generalizing h message with
  | nil =>
    rw [List.flatten_nil, List.append_nil]
    exact absorbed
  | cons chunk chunks ih =>
    rw [List.flatten_cons, ← List.append_assoc]
    exact ih (absorbed.update chunk)

-- ---------------------------------------------------------------------------
-- Padding
-- ---------------------------------------------------------------------------

/-- The zero bytes up to the last eight of a block. -/
theorem Absorbed.padZero {fuel : Nat} {h : Sha256} {message : Bytes} (absorbed : Absorbed h message)
    (enough : (120 - message.length % 64) % 64 ≤ fuel) :
    Absorbed (padZero fuel h) (message ++ List.replicate ((120 - message.length % 64) % 64) 0) := by
  have hbuffer := absorbed.length_buffer
  induction fuel generalizing h message with
  | zero =>
    rw [Nat.le_zero.mp enough, List.replicate_zero, List.append_nil]
    exact absorbed
  | succ fuel ih =>
    rw [Sha256.padZero]
    by_cases hdone : h.buffer.length = 56
    · have hgap : (120 - message.length % 64) % 64 = 0 := by omega
      rw [if_pos (beq_iff_eq.mpr hdone), hgap, List.replicate_zero, List.append_nil]
      exact absorbed
    · have hlength : (message ++ [0]).length = message.length + 1 := List.length_append
      have hgap : (120 - message.length % 64) % 64 = (120 - (message ++ [0]).length % 64) % 64 + 1 := by
        rw [hlength]
        omega
      have hnext := absorbed.update [0]
      have hpadded := ih hnext (by omega) hnext.length_buffer
      rw [if_neg fun heq => hdone (beq_iff_eq.mp heq), hgap, List.replicate_succ]
      rw [List.append_assoc] at hpadded
      exact hpadded

/-- The bytes of the bit count. -/
theorem lengthBytes_eq (length : Nat) : lengthBytes (UInt64.ofNat length * 8) = Sha2.lengthField length := by
  have hbits : (UInt64.ofNat length * 8).toNat = 8 * length % 2 ^ 64 := by
    rw [UInt64.toNat_mul, UInt64.toNat_ofNat']
    show length % 2 ^ 64 * 8 % 2 ^ 64 = _
    omega
  have byte (shift : UInt64) (k : Nat) (hk : k < 8) (hshift : shift.toNat = 8 * k) :
      ((UInt64.ofNat length * 8) >>> shift).toUInt8 = UInt8.ofNat (8 * length / 256 ^ k) := by
    have hpow : 256 ^ k = 2 ^ (8 * k) := by rw [show 256 = 2 ^ 8 from rfl, ← pow_mul]
    have hsplit : 2 ^ 64 = 2 ^ (8 * k) * 2 ^ (64 - 8 * k) := by rw [← pow_add, Nat.add_sub_cancel' (by omega)]
    have hbyte : 2 ^ 8 ∣ 2 ^ (64 - 8 * k) := pow_dvd_pow 2 (by omega)
    apply UInt8.toNat_inj.mp
    rw [UInt64.toNat_toUInt8, UInt64.toNat_shiftRight, hbits, hshift, Nat.shiftRight_eq_div_pow, UInt8.toNat_ofNat',
      Nat.mod_eq_of_lt (show 8 * k < 64 by omega), hpow, hsplit, Nat.mod_mul_right_div_self, Nat.mod_mod_of_dvd _ hbyte]
  have hlast : (UInt64.ofNat length * 8).toUInt8 = UInt8.ofNat (8 * length / 256 ^ 0) := byte 0 0 (by decide) rfl
  unfold lengthBytes
  rw [byte 56 7 (by decide) rfl, byte 48 6 (by decide) rfl, byte 40 5 (by decide) rfl, byte 32 4 (by decide) rfl,
    byte 24 3 (by decide) rfl, byte 16 2 (by decide) rfl, byte 8 1 (by decide) rfl, hlast]
  rfl

-- ---------------------------------------------------------------------------
-- The hash
-- ---------------------------------------------------------------------------

theorem hash_foldl {blocks : List Bytes} (whole : ∀ block ∈ blocks, block.length = 64) (s : Words) :
    (blocks.foldl compress s).hash = blocks.foldl (fun r block => Sha2.compress r (blockWords block)) s.hash := by
  induction blocks generalizing s with
  | nil => rfl
  | cons block blocks ih =>
    rw [List.foldl_cons, List.foldl_cons, ih fun b hb => whole b (List.mem_cons_of_mem _ hb),
      hash_compress s (whole block (List.mem_cons_self ..))]

/-- An object that has absorbed whole blocks holds their hash value. -/
theorem Absorbed.hash_state {h : Sha256} {message : Bytes} (absorbed : Absorbed h message)
    (whole : message.length % 64 = 0) :
    h.state.hash = (List.range (message.length / 64)).foldl (fun s i => Sha2.compress s (Sha2.block message i))
      Sha2.initial := by
  have hlength : message.length = 64 * (message.length / 64) := by omega
  have hblocks : blocks message = _ := Splitter.pieces_blocks_whole (message.length / 64) hlength
  have hsizes (block : Bytes) (hblock : block ∈ (blocks message).1) : block.length = 64 := by
    rw [hblocks] at hblock
    obtain ⟨i, hi, rfl⟩ := List.mem_map.mp hblock
    have hlt := List.mem_range.mp hi
    rw [List.length_take, List.length_drop]
    omega
  rw [absorbed.state, hash_foldl hsizes, hblocks, List.foldl_map, hash_initial]
  refine List.foldl_ext _ _ _ fun s i _ => Sha2.compress_congr (fun t ht => ?_) s
  exact Sha2.word_take_drop message (by omega)

theorem store_eq (s : Words) : s.store = s.hash.bytes := rfl

/-- Finishing pads the message. -/
theorem Absorbed.finish {h : Sha256} {message : Bytes} (absorbed : Absorbed h message) :
    h.finish.bytes = Sha2.hash message := by
  have hone : (message ++ [0x80]).length = message.length + 1 := List.length_append
  have hzeros : (120 - (message ++ [0x80]).length % 64) % 64 = Sha2.zeros message.length := by
    rw [hone, Sha2.zeros]
    omega
  have hzeroed : Absorbed (Sha256.padZero 64 (h.update [0x80])) _ := (absorbed.update [0x80]).padZero (by omega)
  have hpadded := hzeroed.update (lengthBytes h.bitCount)
  rw [hzeros, absorbed.bitCount, lengthBytes_eq] at hpadded
  have hpad : Sha2.pad message = message ++ [0x80] ++ List.replicate (Sha2.zeros message.length) 0 ++
      Sha2.lengthField message.length := by
    simp [Sha2.pad]
  rw [← hpad] at hpadded
  unfold Sha256.finish Sha2.hash
  dsimp only
  rw [absorbed.bitCount, lengthBytes_eq, store_eq, hpadded.hash_state (Sha2.length_pad_mod message)]

/-- However a message is split into updates, finishing gives its SHA-256, which is what
the one-shot function returns. -/
theorem streaming_reference (chunks : List Bytes) :
    (chunks.foldl Sha256.update {}).finish.bytes = Sha2.hash chunks.flatten ∧
      (chunks.foldl Sha256.update {}).finish = sha256 chunks.flatten := by
  have hstream : (chunks.foldl Sha256.update {}).finish.bytes = Sha2.hash chunks.flatten :=
    (Absorbed.empty.updates chunks).finish
  have honeshot : (sha256 chunks.flatten : Digest256).bytes = Sha2.hash chunks.flatten :=
    (Absorbed.empty.update chunks.flatten).finish
  refine ⟨hstream, ?_⟩
  exact Digest256.ext (hstream.trans honeshot.symm)

end Sha256

end DistributedCompilation
