import DistributedCompilation.Lib.Decoder
import DistributedCompilation.Lib.Reads

/-!
# Cursors

A position in a byte string that moves forward and an error that sticks. A call
returns a value or fails; a call that consumes anything asks for room first, and
there is none once an error is recorded.

`Sound` says what every call respects, `Stuck` that a call does nothing after an
error. A call that is not preceded by one is a decoder on the bytes ahead
(`Simulates`).
-/

structure Cursor (ε : Type) where
  data : List UInt8
  pos : Nat := 0
  error : Option ε := none

namespace Cursor

/-- A call with the indices it reads: a value or failure, and the cursor it leaves. -/
def Call (ε α : Type) := Cursor ε → Reads (Option α × Cursor ε)

namespace Call

variable {ε α β : Type}

/-- Goes on after a value, stops after a failure. -/
def next (f : α → Call ε β) : Option α × Cursor ε → Reads (Option β × Cursor ε)
  | (some a, c) => f a c
  | (none, c) => pure (none, c)

instance : Monad (Call ε) where
  pure a := fun c => pure (some a, c)
  bind m f := fun c => m c >>= next f

/-- Fails; the first error is kept. -/
def fail (e : ε) : Call ε α := fun c => pure (none, { c with error := c.error.or (some e) })

/-- Asks for the room of `n` bytes. -/
def need (n : Nat) (e : ε) : Call ε Unit := fun c =>
  if c.error.isSome then pure (none, c)
  else if c.data.length - c.pos < n then fail e c
  else pure (some (), c)

/-- Reads and passes `n` bytes, which are there. -/
def advance (n : Nat) : Call ε (List UInt8) := fun c => do
  let bytes ← Reads.span c.data c.pos n
  pure (some bytes, { c with pos := c.pos + n })

/-- Passes `n` bytes, which are there. -/
def move (n : Nat) : Call ε Unit := fun c => pure (some (), { c with pos := c.pos + n })

/-- The next `n` bytes. -/
def take (n : Nat) (e : ε) : Call ε (List UInt8) := do
  need n e
  advance n

/-- Moves over `n` bytes. -/
def skip (n : Nat) (e : ε) : Call ε Unit := do
  need n e
  move n

/-- `n` values in a row. -/
def replicate (m : Call ε α) : Nat → Call ε (List α)
  | 0 => pure []
  | n + 1 => do
    let a ← m
    let as ← replicate m n
    pure (a :: as)

variable {m : Call ε α} {f : α → Call ε β} {c : Cursor ε}

theorem bind_apply : (m >>= f) c = m c >>= next f := rfl

theorem bind_of_none (h : (m c).value.1 = none) : ((m >>= f) c).value = (none, (m c).value.2) := by
  show (next f ((m c).value.1, (m c).value.2)).value = _
  rw [h]
  rfl

theorem bind_of_some {a : α} (h : (m c).value.1 = some a) :
    ((m >>= f) c).value = (f a (m c).value.2).value := by
  show (next f ((m c).value.1, (m c).value.2)).value = _
  rw [h]
  rfl

/-- What the second part of a sequence makes of the first part's outcome. -/
theorem next_of_some {a : α} (h : (m c).value.1 = some a) : next f (m c).value = f a (m c).value.2 := by
  show next f ((m c).value.1, (m c).value.2) = _
  rw [h]
  rfl

theorem next_of_none (h : (m c).value.1 = none) : next f (m c).value = pure (none, (m c).value.2) := by
  show next f ((m c).value.1, (m c).value.2) = _
  rw [h]
  rfl

theorem need_of_error {n : Nat} {e : ε} (h : c.error.isSome = true) : need n e c = pure (none, c) := if_pos h

theorem need_of_short {n : Nat} {e : ε} (h : c.error = none) (short : c.data.length - c.pos < n) :
    need n e c = fail e c := by
  rw [need, if_neg (by rw [h]; exact Bool.false_ne_true), if_pos short]

theorem need_of_room {n : Nat} {e : ε} (h : c.error = none) (room : ¬c.data.length - c.pos < n) :
    need n e c = pure (some (), c) := by
  rw [need, if_neg (by rw [h]; exact Bool.false_ne_true), if_neg room]

-- ---------------------------------------------------------------------------
-- Soundness
-- ---------------------------------------------------------------------------

/-- What a call makes of a cursor within its data. -/
structure Respects (c : Cursor ε) (out : Reads (Option α × Cursor ε)) : Prop where
  data : out.value.2.data = c.data
  forward : c.pos ≤ out.value.2.pos
  bounded : out.value.2.pos ≤ c.data.length
  within : out.Within c.data.length
  recorded : out.value.1 = none → out.value.2.error.isSome = true
  kept : ∀ e, c.error = some e → out.value.2.error = some e

/-- The cursor stays within its data and does not move back, nothing else is read, a
failure is recorded and the first error is kept. -/
def Sound (m : Call ε α) : Prop := ∀ c : Cursor ε, c.pos ≤ c.data.length → Respects c (m c)

theorem Sound.pure (a : α) : Sound (pure a : Call ε α) := by
  intro c hc
  refine ⟨rfl, Nat.le_refl _, hc, Reads.within_pure _, fun hnone => ?_, fun _ he => he⟩
  cases hnone

theorem Sound.bind (first : Sound m) (rest : ∀ a, Sound (f a)) : Sound (m >>= f) := by
  intro c hc
  have hm := first c hc
  cases hout : (m c).value.1 with
  | none =>
    have hvalue := bind_of_none (f := f) hout
    refine ⟨?_, ?_, ?_, ?_, ?_, ?_⟩
    · rw [hvalue]
      exact hm.data
    · rw [hvalue]
      exact hm.forward
    · rw [hvalue]
      exact hm.bounded
    · rw [bind_apply]
      refine Reads.within_bind hm.within ?_
      rw [next_of_none hout]
      exact Reads.within_pure _
    · rw [hvalue]
      exact fun _ => hm.recorded hout
    · rw [hvalue]
      exact hm.kept
  | some a =>
    have hvalue := bind_of_some (f := f) hout
    have hf := rest a (m c).value.2 (hm.data ▸ hm.bounded)
    refine ⟨?_, ?_, ?_, ?_, ?_, ?_⟩
    · rw [hvalue]
      exact hf.data.trans hm.data
    · rw [hvalue]
      exact hm.forward.trans hf.forward
    · rw [hvalue]
      exact hm.data ▸ hf.bounded
    · rw [bind_apply]
      refine Reads.within_bind hm.within ?_
      rw [next_of_some hout, ← hm.data]
      exact hf.within
    · rw [hvalue]
      exact hf.recorded
    · rw [hvalue]
      exact fun e he => hf.kept e (hm.kept e he)

theorem Sound.fail (e : ε) : Sound (fail e : Call ε α) := by
  intro c hc
  refine ⟨rfl, Nat.le_refl _, hc, Reads.within_pure _, fun _ => ?_, fun first hfirst => ?_⟩
  · show (c.error.or (some e)).isSome = true
    cases c.error <;> rfl
  · show c.error.or (some e) = some first
    rw [hfirst]
    rfl

theorem Sound.ite {p : Prop} [Decidable p] {m' : Call ε α} (yes : p → Sound m) (no : ¬p → Sound m') :
    Sound (if p then m else m') := by
  split
  · exact yes ‹_›
  · exact no ‹_›

/-- Moving behind a check of the room. -/
theorem Sound.need_bind {n : Nat} {e : ε} {m : Call ε α}
    (rest : ∀ c : Cursor ε, c.pos + n ≤ c.data.length → Respects c (m c)) :
    Sound (need n e >>= fun _ => m) := by
  intro c hc
  cases herror : c.error with
  | some first =>
    have hvalue : (need n e >>= fun _ => m) c = Reads.mk (none, c) [] := by
      rw [bind_apply, need_of_error (by rw [herror]; rfl)]
      rfl
    rw [hvalue]
    exact ⟨rfl, Nat.le_refl _, hc, fun _ h => (nomatch h), fun _ => by rw [herror]; rfl, fun _ he => he⟩
  | none =>
    by_cases hshort : c.data.length - c.pos < n
    · have hvalue : (need n e >>= fun _ => m) c = Reads.mk (none, { c with error := some e }) [] := by
        rw [bind_apply, need_of_short herror hshort, Call.fail, herror]
        rfl
      rw [hvalue]
      exact ⟨rfl, Nat.le_refl _, hc, fun _ h => (nomatch h), fun _ => rfl, fun first hfirst => by
        rw [herror] at hfirst
        cases hfirst⟩
    · have hvalue : (need n e >>= fun _ => m) c = m c := by
        rw [bind_apply, need_of_room herror hshort]
        rfl
      rw [hvalue]
      exact rest c (by omega)

theorem Sound.take (n : Nat) (e : ε) : Sound (take n e) :=
  .need_bind fun _ hroom => ⟨rfl, Nat.le_add_right _ _, hroom,
    Reads.within_bind (Reads.within_span hroom) (Reads.within_pure _), fun h => (nomatch h), fun _ he => he⟩

theorem Sound.skip (n : Nat) (e : ε) : Sound (skip n e) :=
  .need_bind fun _ hroom => ⟨rfl, Nat.le_add_right _ _, hroom, Reads.within_pure _, fun h => (nomatch h), fun _ he => he⟩

theorem Sound.replicate (h : Sound m) (n : Nat) : Sound (replicate m n) := by
  induction n with
  | zero => exact .pure []
  | succ n ih => exact .bind h fun a => .bind ih fun as => .pure _

-- ---------------------------------------------------------------------------
-- After an error
-- ---------------------------------------------------------------------------

/-- After an error the call fails and does nothing. -/
def Stuck (m : Call ε α) : Prop := ∀ c : Cursor ε, c.error.isSome = true → m c = Reads.mk (none, c) []

theorem Stuck.bind (first : Stuck m) : Stuck (m >>= f) := by
  intro c hc
  rw [bind_apply, first c hc]
  rfl

theorem Stuck.need (n : Nat) (e : ε) : Stuck (need n e) := fun _ hc => need_of_error hc

theorem Stuck.take (n : Nat) (e : ε) : Stuck (take n e) := .bind (.need n e)

theorem Stuck.skip (n : Nat) (e : ε) : Stuck (skip n e) := .bind (.need n e)

theorem Stuck.fail (e : ε) : Stuck (fail e : Call ε α) := by
  intro c hc
  obtain ⟨first, hfirst⟩ := Option.isSome_iff_exists.mp hc
  have herror : c.error.or (some e) = c.error := by
    rw [hfirst]
    rfl
  show Reads.mk (none, { c with error := c.error.or (some e) }) [] = _
  rw [herror]

-- ---------------------------------------------------------------------------
-- Decoders
-- ---------------------------------------------------------------------------

/-- Before any error the call is a decoder on the bytes ahead. -/
def Simulates (m : Call ε α) (d : Decoder UInt8 ε α) : Prop :=
  ∀ c : Cursor ε, c.error = none → c.pos ≤ c.data.length →
    match d.run (c.data.drop c.pos) with
    | .ok (a, rest) => (m c).value.1 = some a ∧ (m c).value.2.error = none ∧
        c.data.drop (m c).value.2.pos = rest
    | .error e => (m c).value.1 = none ∧ (m c).value.2.error = some e

theorem Simulates.pure (a : α) : Simulates (pure a : Call ε α) (pure a) := fun _ herror _ => ⟨rfl, herror, rfl⟩

theorem Simulates.fail (e : ε) : Simulates (fail e : Call ε α) (Decoder.fail e) := by
  intro c herror _
  refine ⟨rfl, ?_⟩
  show c.error.or (some e) = some e
  rw [herror]
  rfl

theorem Simulates.bind {d : Decoder UInt8 ε α} {g : α → Decoder UInt8 ε β} (sound : Sound m) (first : Simulates m d)
    (rest : ∀ a, Simulates (f a) (g a)) : Simulates (m >>= f) (d >>= g) := by
  intro c herror hc
  have hm := first c herror hc
  have hsound := sound c hc
  rw [Decoder.run_bind]
  cases hrun : d.run (c.data.drop c.pos) with
  | error e =>
    rw [hrun] at hm
    obtain ⟨hnone, he⟩ := hm
    have hvalue := bind_of_none (f := f) hnone
    exact ⟨by rw [hvalue], by rw [hvalue]; exact he⟩
  | ok out =>
    obtain ⟨a, tail⟩ := out
    rw [hrun] at hm
    obtain ⟨hsome, hnone, hdrop⟩ := hm
    have hvalue := bind_of_some (f := f) hsome
    have hf := rest a (m c).value.2 hnone (hsound.data ▸ hsound.bounded)
    rw [hsound.data, hdrop] at hf
    dsimp only
    rw [hvalue]
    exact hf

theorem Simulates.ite {p : Prop} [Decidable p] {m' : Call ε α} {d d' : Decoder UInt8 ε α}
    (yes : p → Simulates m d) (no : ¬p → Simulates m' d') :
    Simulates (if p then m else m') (if p then d else d') := by
  split
  · exact yes ‹_›
  · exact no ‹_›

theorem Simulates.take (n : Nat) (e : ε) : Simulates (take n e) (Decoder.take n e) := by
  intro c herror hc
  have hlength : (c.data.drop c.pos).length = c.data.length - c.pos := List.length_drop
  by_cases hshort : c.data.length - c.pos < n
  · have hrun : (Decoder.take n e).run (c.data.drop c.pos) = .error e := if_pos (hlength ▸ hshort)
    have hneed : (need n e c).value = (none, { c with error := some e }) := by
      rw [need_of_short herror hshort, Call.fail, herror]
      rfl
    have htake : (Call.take n e c).value = (none, { c with error := some e }) := by
      rw [Call.take, bind_of_none (by rw [hneed]), hneed]
    rw [hrun, htake]
    exact ⟨rfl, rfl⟩
  · have hrun : (Decoder.take n e).run (c.data.drop c.pos) =
        .ok ((c.data.drop c.pos).take n, (c.data.drop c.pos).drop n) := if_neg (hlength ▸ hshort)
    have hneed : (need n e c).value = (some (), c) := by
      rw [need_of_room herror hshort]
      rfl
    have htake : (Call.take n e c).value = (some ((c.data.drop c.pos).take n), { c with pos := c.pos + n }) := by
      rw [Call.take, bind_of_some (a := ()) (by rw [hneed]), hneed]
      rfl
    rw [hrun, htake]
    exact ⟨rfl, herror, by rw [List.drop_drop]⟩

theorem Simulates.replicate {d : Decoder UInt8 ε α} (sound : Sound m) (h : Simulates m d) (n : Nat) :
    Simulates (replicate m n) (Decoder.replicate d n) := by
  induction n with
  | zero => exact .pure []
  | succ n ih => exact .bind sound h fun a => .bind (.replicate sound n) ih fun as => .pure _

end Call

end Cursor
