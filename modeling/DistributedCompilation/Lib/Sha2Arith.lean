import DistributedCompilation.Lib.Sha2

/-!
# SHA-256 in the arithmetic of natural numbers

The hash function of `Sha2` once more, as additions, shifts and exclusive ors of
natural numbers that are handed on one by one: an evaluation by definitional
unfolding meets nothing but numerals. A word is rotated by shifting the word
written twice, and only what is kept of a round is reduced to 32 bits.
-/

namespace Sha2.Arith

-- ---------------------------------------------------------------------------
-- Words
-- ---------------------------------------------------------------------------

/-- Hands on the value of `n`: the recursion has to know it. -/
def force {α : Type} (n : Nat) (next : Nat → α) : α := Nat.rec (next 0) (fun m _ => next (Nat.succ m)) n

theorem force_eq {α : Type} (n : Nat) (next : Nat → α) : force n next = next n := by
  cases n <;> rfl

/-- A word written twice, `m` bits further right. -/
def rotr (x m : Nat) : Nat := Nat.shiftRight (Nat.mul x 4294967297) m

def bigSigma0 (x : Nat) : Nat := Nat.xor (Nat.xor (rotr x 2) (rotr x 13)) (rotr x 22)

def bigSigma1 (x : Nat) : Nat := Nat.xor (Nat.xor (rotr x 6) (rotr x 11)) (rotr x 25)

def smallSigma0 (x : Nat) : Nat := Nat.xor (Nat.xor (rotr x 7) (rotr x 18)) (Nat.shiftRight x 3)

def smallSigma1 (x : Nat) : Nat := Nat.xor (Nat.xor (rotr x 17) (rotr x 19)) (Nat.shiftRight x 10)

def ch (x y z : Nat) : Nat := Nat.xor z (Nat.land x (Nat.xor y z))

def maj (x y z : Nat) : Nat := Nat.xor y (Nat.land (Nat.xor x y) (Nat.xor y z))

/-- What a number counts for as a word. -/
def reduce (n : Nat) : Nat := Nat.mod n 4294967296

theorem reduce_eq (n : Nat) : reduce n = (BitVec.ofNat 32 n).toNat := (BitVec.toNat_ofNat n 32).symm

theorem ofNat_toNat (x : Word) : BitVec.ofNat 32 x.toNat = x := by
  rw [BitVec.ofNat_toNat, BitVec.setWidth_eq]

theorem testBit_twice (x : Word) (i : Nat) :
    (x.toNat * 4294967297).testBit i = (x.getLsbD i || (decide (32 ≤ i) && x.getLsbD (i - 32))) := by
  have htwice : x.toNat * 4294967297 = x.toNat <<< 32 ||| x.toNat := by
    rw [← Nat.shiftLeft_add_eq_or_of_lt x.isLt, Nat.shiftLeft_eq]
    omega
  rw [htwice, Nat.testBit_or, Nat.testBit_shiftLeft, Bool.or_comm]
  rfl

/-- Shifting the word written twice rotates. -/
theorem ofNat_rotr (x : Word) {m : Nat} (h : m < 32) : BitVec.ofNat 32 (rotr x.toNat m) = x.rotateRight m := by
  apply BitVec.eq_of_getLsbD_eq
  intro i hi
  have hshift : (rotr x.toNat m).testBit i = (x.toNat * 4294967297).testBit (m + i) := Nat.testBit_shiftRight _
  rw [BitVec.getLsbD_ofNat, hshift, testBit_twice, BitVec.getLsbD_rotateRight, Nat.mod_eq_of_lt h]
  by_cases hlow : i < 32 - m
  · simp [hi, hlow, show ¬32 ≤ m + i by omega]
  · simp [hi, hlow, show 32 ≤ m + i by omega, show m + i - 32 = i - (32 - m) by omega]

theorem ofNat_shiftRight (x : Word) (m : Nat) : BitVec.ofNat 32 (Nat.shiftRight x.toNat m) = x >>> m := by
  have hshift : Nat.shiftRight x.toNat m = (x >>> m).toNat := (BitVec.toNat_ushiftRight x m).symm
  rw [hshift, ofNat_toNat]

theorem ofNat_xor (m n : Nat) : BitVec.ofNat 32 (Nat.xor m n) = BitVec.ofNat 32 m ^^^ BitVec.ofNat 32 n :=
  BitVec.ofNat_xor

theorem ofNat_add (m n : Nat) : BitVec.ofNat 32 (Nat.add m n) = BitVec.ofNat 32 m + BitVec.ofNat 32 n :=
  BitVec.ofNat_add m n

theorem ofNat_bigSigma0 (x : Word) : BitVec.ofNat 32 (bigSigma0 x.toNat) = Sha2.bigSigma0 x := by
  rw [bigSigma0, ofNat_xor, ofNat_xor, ofNat_rotr x (by omega), ofNat_rotr x (by omega), ofNat_rotr x (by omega)]
  rfl

theorem ofNat_bigSigma1 (x : Word) : BitVec.ofNat 32 (bigSigma1 x.toNat) = Sha2.bigSigma1 x := by
  rw [bigSigma1, ofNat_xor, ofNat_xor, ofNat_rotr x (by omega), ofNat_rotr x (by omega), ofNat_rotr x (by omega)]
  rfl

theorem ofNat_smallSigma0 (x : Word) : BitVec.ofNat 32 (smallSigma0 x.toNat) = Sha2.smallSigma0 x := by
  rw [smallSigma0, ofNat_xor, ofNat_xor, ofNat_rotr x (by omega), ofNat_rotr x (by omega), ofNat_shiftRight]
  rfl

theorem ofNat_smallSigma1 (x : Word) : BitVec.ofNat 32 (smallSigma1 x.toNat) = Sha2.smallSigma1 x := by
  rw [smallSigma1, ofNat_xor, ofNat_xor, ofNat_rotr x (by omega), ofNat_rotr x (by omega), ofNat_shiftRight]
  rfl

theorem ofNat_ch (x y z : Word) : BitVec.ofNat 32 (ch x.toNat y.toNat z.toNat) = Sha2.ch x y z := by
  have hword : ch x.toNat y.toNat z.toNat = (z ^^^ (x &&& (y ^^^ z))).toNat := by
    simp only [BitVec.toNat_xor, BitVec.toNat_and]
    rfl
  rw [hword, ofNat_toNat, Sha2.ch]
  apply BitVec.eq_of_getLsbD_eq
  intro i hi
  simp only [BitVec.getLsbD_xor, BitVec.getLsbD_and, BitVec.getLsbD_not, hi, decide_true, Bool.true_and]
  cases x.getLsbD i <;> cases y.getLsbD i <;> cases z.getLsbD i <;> rfl

theorem ofNat_maj (x y z : Word) : BitVec.ofNat 32 (maj x.toNat y.toNat z.toNat) = Sha2.maj x y z := by
  have hword : maj x.toNat y.toNat z.toNat = (y ^^^ ((x ^^^ y) &&& (y ^^^ z))).toNat := by
    simp only [BitVec.toNat_xor, BitVec.toNat_and]
    rfl
  rw [hword, ofNat_toNat, Sha2.maj]
  apply BitVec.eq_of_getLsbD_eq
  intro i _
  simp only [BitVec.getLsbD_xor, BitVec.getLsbD_and]
  cases x.getLsbD i <;> cases y.getLsbD i <;> cases z.getLsbD i <;> rfl

-- ---------------------------------------------------------------------------
-- Compression
-- ---------------------------------------------------------------------------

/-- What is done with the eight words of a hash value. -/
abbrev Chain (α : Type) := Nat → Nat → Nat → Nat → Nat → Nat → Nat → Nat → α

/-- What is done with a hash value and the sixteen words of the schedule that are
ahead of it. -/
abbrev Window (α : Type) :=
  Nat → Nat → Nat → Nat → Nat → Nat → Nat → Nat →
  Nat → Nat → Nat → Nat → Nat → Nat → Nat → Nat → Nat → Nat → Nat → Nat → Nat → Nat → Nat → Nat → α

/-- One round, which brings the schedule one word forward. -/
def step {α : Type} (k : Nat) (next : Window α) : Window α :=
  fun a b c d e f g h w0 w1 w2 w3 w4 w5 w6 w7
      w8 w9 w10 w11 w12 w13 w14 w15 =>
  force (Nat.add (Nat.add (Nat.add (Nat.add h (bigSigma1 e)) (ch e f g)) k) w0) fun t1 =>
  force (reduce (Nat.add t1 (Nat.add (bigSigma0 a) (maj a b c)))) fun a' =>
  force (reduce (Nat.add d t1)) fun e' =>
  force (reduce (Nat.add (Nat.add (Nat.add (smallSigma1 w14) w9) (smallSigma0 w1)) w0)) fun w16 =>
  next a' a b c e' e f g w1 w2 w3 w4 w5 w6 w7 w8
    w9 w10 w11 w12 w13 w14 w15 w16

/-- Adds a hash value to the outcome of the rounds. -/
def sum {α : Type} (next : Chain α) (a b c d e f g h : Nat) : Window α :=
  fun a' b' c' d' e' f' g' h' _ _ _ _ _ _ _ _ _ _ _ _ _ _ _ _ =>
  force (reduce (Nat.add a a')) fun a =>
  force (reduce (Nat.add b b')) fun b =>
  force (reduce (Nat.add c c')) fun c =>
  force (reduce (Nat.add d d')) fun d =>
  force (reduce (Nat.add e e')) fun e =>
  force (reduce (Nat.add f f')) fun f =>
  force (reduce (Nat.add g g')) fun g =>
  force (reduce (Nat.add h h')) fun h => next a b c d e f g h

/-- All rounds, with their constants. -/
def compress {α : Type} (ks : List Nat) (next : Chain α) : Window α :=
  fun a b c d e f g h => ks.foldr step (sum next a b c d e f g h) a b c d e f g h

/-- Goes on with a hash value. -/
def Chain.on {α : Type} (next : Chain α) (s : Hash) : α :=
  next s.a.toNat s.b.toNat s.c.toNat s.d.toNat s.e.toNat s.f.toNat s.g.toNat s.h.toNat

/-- Goes on with a hash value and the words of a schedule from `t` on. -/
def Window.on {α : Type} (next : Window α) (s : Hash) (w : Nat → Word) (t : Nat) : α :=
  next s.a.toNat s.b.toNat s.c.toNat s.d.toNat s.e.toNat s.f.toNat s.g.toNat s.h.toNat
    (w t).toNat (w (t + 1)).toNat (w (t + 2)).toNat (w (t + 3)).toNat (w (t + 4)).toNat (w (t + 5)).toNat
    (w (t + 6)).toNat (w (t + 7)).toNat (w (t + 8)).toNat (w (t + 9)).toNat (w (t + 10)).toNat
    (w (t + 11)).toNat (w (t + 12)).toNat (w (t + 13)).toNat (w (t + 14)).toNat (w (t + 15)).toNat

variable {α : Type}

theorem schedule_add_sixteen (message : Nat → Word) (t : Nat) :
    schedule message (t + 16) = Sha2.smallSigma1 (schedule message (t + 14)) + schedule message (t + 9) +
      Sha2.smallSigma0 (schedule message (t + 1)) + schedule message t := by
  rw [schedule, if_neg (by omega)]
  rfl

theorem step_on (k : Word) (next : Window α) (s : Hash) (message : Nat → Word) (t : Nat) :
    (step k.toNat next).on s (schedule message) t =
      next.on (round s k (schedule message t)) (schedule message) (t + 1) := by
  unfold Window.on step
  simp only [force_eq, reduce_eq, ofNat_add, ofNat_bigSigma0, ofNat_bigSigma1, ofNat_smallSigma0, ofNat_smallSigma1,
    ofNat_ch, ofNat_maj, ofNat_toNat]
  rw [← schedule_add_sixteen]
  rfl

theorem foldr_step_on (ks : List Word) (next : Window α) (s : Hash) (message : Nat → Word) (t : Nat) :
    ((ks.map BitVec.toNat).foldr step next).on s (schedule message) t =
      next.on ((List.range ks.length).foldl (fun r i => round r (ks.getD i 0) (schedule message (t + i))) s)
        (schedule message) (t + ks.length) := by
  induction ks generalizing s t with
  | nil => rfl
  | cons k ks ih =>
    have hshift (i : Nat) : t + i.succ = t + 1 + i := by omega
    rw [List.map_cons, List.foldr_cons, step_on, ih, List.length_cons, List.range_succ_eq_map, List.foldl_cons,
      List.foldl_map, Nat.add_comm ks.length 1, ← Nat.add_assoc]
    congr 1
    refine List.foldl_ext _ _ _ fun r i _ => ?_
    rw [hshift i]
    rfl

theorem sum_on (next : Chain α) (s r : Hash) (w : Nat → Word) (t : Nat) :
    (sum next s.a.toNat s.b.toNat s.c.toNat s.d.toNat s.e.toNat s.f.toNat s.g.toNat s.h.toNat).on r w t =
      next.on (s.add r) := by
  unfold Window.on sum
  simp only [force_eq, reduce_eq, ofNat_add, ofNat_toNat]
  rfl

/-- The rounds compute what a block does to a hash value. -/
theorem compress_on {ks : List Word} (known : constants = ks) (count : ks.length = 64) (next : Chain α) (s : Hash)
    (message : Nat → Word) :
    (compress (ks.map BitVec.toNat) next).on s (schedule message) 0 = next.on (Sha2.compress s message) := by
  have hrounds := foldr_step_on ks
    (sum next s.a.toNat s.b.toNat s.c.toNat s.d.toNat s.e.toNat s.f.toNat s.g.toNat s.h.toNat) s message 0
  rw [sum_on, count] at hrounds
  simp only [Nat.zero_add] at hrounds
  unfold Sha2.compress
  rw [known]
  exact hrounds

-- ---------------------------------------------------------------------------
-- Messages
-- ---------------------------------------------------------------------------

/-- Hands on the first word of some bytes and the bytes behind it. -/
def word : List UInt8 → (Nat → List UInt8 → α) → α
  | p0 :: p1 :: p2 :: p3 :: rest, next =>
    force (Nat.add (Nat.add (Nat.mul p0.toNat 16777216) (Nat.mul p1.toNat 65536))
      (Nat.add (Nat.mul p2.toNat 256) p3.toNat)) fun w => next w rest
  | _, next => next 0 []

theorem toNat_append {m n : Nat} (x : BitVec m) (y : BitVec n) : (x ++ y).toNat = x.toNat * 2 ^ n + y.toNat := by
  rw [BitVec.toNat_append, ← Nat.shiftLeft_add_eq_or_of_lt y.isLt, Nat.shiftLeft_eq]

/-- The first word of some bytes. -/
theorem word_eq (next : Nat → List UInt8 → α) {bytes : List UInt8} (h : 4 ≤ bytes.length) :
    word bytes next = next (Sha2.word bytes 0).toNat (bytes.drop 4) := by
  match bytes, h with
  | p0 :: p1 :: p2 :: p3 :: rest, _ =>
    have hword : (Sha2.word (p0 :: p1 :: p2 :: p3 :: rest) 0).toNat =
        ((p0.toNat * 256 + p1.toNat) * 256 + p2.toNat) * 256 + p3.toNat := by
      show (p0.toBitVec ++ p1.toBitVec ++ p2.toBitVec ++ p3.toBitVec).toNat = _
      rw [toNat_append, toNat_append, toNat_append]
      rfl
    have hvalue : Nat.add (Nat.add (Nat.mul p0.toNat 16777216) (Nat.mul p1.toNat 65536))
        (Nat.add (Nat.mul p2.toNat 256) p3.toNat) =
        ((p0.toNat * 256 + p1.toNat) * 256 + p2.toNat) * 256 + p3.toNat := by
      simp only [Nat.add_eq, Nat.mul_eq]
      omega
    rw [word, force_eq, hword, hvalue]
    rfl

theorem word_drop (bytes : List UInt8) (n offset : Nat) :
    Sha2.word (bytes.drop n) offset = Sha2.word bytes (n + offset) := by
  unfold Sha2.word
  simp only [List.getD_eq_getElem?_getD, List.getElem?_drop, Nat.add_assoc]

/-- Hands on the sixteen words of the first block, behind a hash value. -/
def load (bytes : List UInt8) (next : List UInt8 → Window α) : Chain α := fun a b c d e f g h =>
  word bytes fun w0 bytes => word bytes fun w1 bytes => word bytes fun w2 bytes => word bytes fun w3 bytes =>
  word bytes fun w4 bytes => word bytes fun w5 bytes => word bytes fun w6 bytes => word bytes fun w7 bytes =>
  word bytes fun w8 bytes => word bytes fun w9 bytes => word bytes fun w10 bytes => word bytes fun w11 bytes =>
  word bytes fun w12 bytes => word bytes fun w13 bytes => word bytes fun w14 bytes => word bytes fun w15 bytes =>
  next bytes a b c d e f g h w0 w1 w2 w3 w4 w5 w6 w7 w8 w9 w10 w11 w12 w13 w14 w15

theorem load_on (next : List UInt8 → Window α) (s : Hash) {bytes : List UInt8} (h : 64 ≤ bytes.length) :
    (load bytes next).on s = (next (bytes.drop 64)).on s (fun t => Sha2.word bytes (4 * t)) 0 := by
  unfold Chain.on load
  rw [word_eq _ (by omega)]
  simp (disch := simp only [List.length_drop]; omega) only [word_eq, List.drop_drop, word_drop, Nat.reduceAdd]
  rfl

/-- Takes in some blocks. -/
def blocks (ks : List Nat) (next : Chain α) : Nat → List UInt8 → Chain α
  | 0, _ => next
  | n + 1, bytes => load bytes fun rest => compress ks (blocks ks next n rest)

theorem on_congr (next : Window α) (s : Hash) {w w' : Nat → Word} (h : ∀ t < 16, w t = w' t) :
    next.on s w 0 = next.on s w' 0 := by
  unfold Window.on
  simp only [Nat.zero_add, h 0 (by omega), h 1 (by omega), h 2 (by omega), h 3 (by omega), h 4 (by omega),
    h 5 (by omega), h 6 (by omega), h 7 (by omega), h 8 (by omega), h 9 (by omega), h 10 (by omega), h 11 (by omega),
    h 12 (by omega), h 13 (by omega), h 14 (by omega), h 15 (by omega)]

/-- The blocks of a message are taken in one after the other. -/
theorem blocks_on {ks : List Word} (known : constants = ks) (count : ks.length = 64) (next : Chain α) (n : Nat)
    (s : Hash) {bytes : List UInt8} (h : 64 * n ≤ bytes.length) :
    (blocks (ks.map BitVec.toNat) next n bytes).on s =
      next.on ((List.range n).foldl (fun s i => Sha2.compress s (Sha2.block bytes i)) s) := by
  induction n generalizing s bytes with
  | zero => rfl
  | succ n ih =>
    have hfirst (t : Nat) (ht : t < 16) : Sha2.word bytes (4 * t) = schedule (Sha2.block bytes 0) t := by
      rw [schedule, if_pos ht, Sha2.block, Nat.mul_zero, Nat.zero_add]
    have hrest : Sha2.block (bytes.drop 64) = fun i => Sha2.block bytes (i + 1) := by
      funext i t
      rw [Sha2.block, Sha2.block, word_drop]
      congr 1
      omega
    rw [blocks, load_on _ s (by omega), on_congr _ s hfirst, compress_on known count, ih _ (by rw [List.length_drop]; omega),
      List.range_succ_eq_map, List.foldl_cons, List.foldl_map, hrest]

/-- The bytes of a word. -/
def bytesOf (w : Nat) : List UInt8 :=
  [UInt8.ofNat (Nat.shiftRight w 24), UInt8.ofNat (Nat.shiftRight w 16), UInt8.ofNat (Nat.shiftRight w 8), UInt8.ofNat w]

def digest : Chain (List UInt8) := fun a b c d e f g h =>
  bytesOf a ++ (bytesOf b ++ (bytesOf c ++ (bytesOf d ++ (bytesOf e ++ (bytesOf f ++ (bytesOf g ++ bytesOf h))))))

theorem bytesOf_eq (w : Word) : bytesOf w.toNat = Sha2.bytesOf w := rfl

theorem digest_on (s : Hash) : digest.on s = s.bytes := by
  unfold Chain.on digest Hash.bytes
  simp only [bytesOf_eq, List.flatMap_cons, List.flatMap_nil, List.append_nil]

/-- SHA-256, from the numbers that stand for the first hash value. -/
def hash (ks : List Nat) (first : Chain (List UInt8) → List UInt8) (message : List UInt8) : List UInt8 :=
  first (blocks ks digest ((pad message).length / 64) (pad message))

theorem hash_eq {ks : List Word} (known : constants = ks) (count : ks.length = 64)
    {first : Chain (List UInt8) → List UInt8} (starts : ∀ next : Chain (List UInt8), first next = next.on initial)
    (message : List UInt8) : hash (ks.map BitVec.toNat) first message = Sha2.hash message := by
  unfold hash
  rw [starts, blocks_on known count _ _ _ (by omega), digest_on]
  rfl

end Sha2.Arith
