import Mathlib

/-!
# Splitters

A stream is cut into pieces by looking at its front: the front is a piece, or it
is refused, or too little of it has arrived to say. A verdict once given stands
whatever arrives afterwards, so how the stream is chunked does not matter
(`feeds_eq`). Blocks of a fixed length are the simplest case.
-/

/-- What the front of a buffer says: wait for more, a piece of that many tokens, or an
error. -/
inductive Cut (ε : Type)
  | wait
  | emit (n : Nat)
  | refuse (e : ε)

/-- How a stream of tokens `τ` is cut, with errors `ε`. -/
structure Splitter (τ ε : Type) where
  verdict : List τ → Cut ε
  /-- A piece is in the buffer, and it is not empty. -/
  emits : ∀ {buffer : List τ} {n : Nat}, verdict buffer = .emit n → 0 < n ∧ n ≤ buffer.length
  /-- A verdict stands. -/
  stable : ∀ {buffer : List τ} (more : List τ), verdict buffer ≠ .wait → verdict (buffer ++ more) = verdict buffer

namespace Splitter

variable {τ ε : Type} (s : Splitter τ ε)

/-- The pieces of a buffer, and what is left of it or the error. -/
def pieces (buffer : List τ) : List (List τ) × Except ε (List τ) :=
  match _hverdict : s.verdict buffer with
  | .wait => ([], .ok buffer)
  | .refuse e => ([], .error e)
  | .emit n => (buffer.take n :: (pieces (buffer.drop n)).1, (pieces (buffer.drop n)).2)
termination_by buffer.length
decreasing_by
  all_goals
    have hpiece := s.emits _hverdict
    rw [List.length_drop]
    omega

variable {s} {buffer : List τ}

theorem pieces_wait (h : s.verdict buffer = .wait) : s.pieces buffer = ([], .ok buffer) := by
  rw [pieces]
  split <;> simp_all

theorem pieces_refuse {e : ε} (h : s.verdict buffer = .refuse e) : s.pieces buffer = ([], .error e) := by
  rw [pieces]
  split <;> simp_all

theorem pieces_emit {n : Nat} (h : s.verdict buffer = .emit n) :
    s.pieces buffer = (buffer.take n :: (s.pieces (buffer.drop n)).1, (s.pieces (buffer.drop n)).2) := by
  rw [pieces]
  split <;> simp_all

/-- Every piece leaves a shorter buffer. -/
theorem pieces_induction {P : List τ → Prop}
    (wait : ∀ buffer, s.verdict buffer = .wait → P buffer)
    (refuse : ∀ buffer e, s.verdict buffer = .refuse e → P buffer)
    (emit : ∀ buffer n, s.verdict buffer = .emit n → P (buffer.drop n) → P buffer) (buffer : List τ) : P buffer := by
  induction hlength : buffer.length using Nat.strong_induction_on generalizing buffer with
  | _ length ih =>
    cases h : s.verdict buffer with
    | wait => exact wait buffer h
    | refuse e => exact refuse buffer e h
    | emit n =>
      obtain ⟨hpos, hle⟩ := s.emits h
      exact emit buffer n h (ih _ (by rw [List.length_drop]; omega) _ rfl)

/-- What is left waits for more. -/
theorem verdict_rest {rest : List τ} (h : (s.pieces buffer).2 = .ok rest) : s.verdict rest = .wait := by
  induction buffer using pieces_induction (s := s) with
  | wait buffer hwait =>
    rw [pieces_wait hwait] at h
    exact Except.ok.inj h ▸ hwait
  | refuse buffer e hrefuse =>
    rw [pieces_refuse hrefuse] at h
    cases h
  | emit buffer n hemit ih =>
    rw [pieces_emit hemit] at h
    exact ih h

/-- The pieces and what is left are the buffer. -/
theorem flatten_pieces {rest : List τ} (h : (s.pieces buffer).2 = .ok rest) :
    (s.pieces buffer).1.flatten ++ rest = buffer := by
  induction buffer using pieces_induction (s := s) with
  | wait buffer hwait =>
    rw [pieces_wait hwait] at h ⊢
    exact (Except.ok.inj h).symm
  | refuse buffer e hrefuse =>
    rw [pieces_refuse hrefuse] at h
    cases h
  | emit buffer n hemit ih =>
    rw [pieces_emit hemit] at h ⊢
    rw [List.flatten_cons, List.append_assoc, ih h, List.take_append_drop]

/-- A piece is what some front was cut to. -/
theorem verdict_of_mem_pieces {piece : List τ} (h : piece ∈ (s.pieces buffer).1) :
    ∃ front n, s.verdict front = .emit n ∧ piece = front.take n := by
  induction buffer using pieces_induction (s := s) with
  | wait buffer hwait =>
    rw [pieces_wait hwait] at h
    cases h
  | refuse buffer e hrefuse =>
    rw [pieces_refuse hrefuse] at h
    cases h
  | emit buffer n hemit ih =>
    rw [pieces_emit hemit] at h
    rcases List.mem_cons.mp h with rfl | htail
    · exact ⟨buffer, n, hemit, rfl⟩
    · exact ih htail

/-- More tokens at the end change nothing about the pieces already cut. -/
theorem pieces_append (buffer more : List τ) :
    s.pieces (buffer ++ more) =
      match (s.pieces buffer).2 with
      | .ok rest => ((s.pieces buffer).1 ++ (s.pieces (rest ++ more)).1, (s.pieces (rest ++ more)).2)
      | .error e => ((s.pieces buffer).1, .error e) := by
  induction buffer using pieces_induction (s := s) with
  | wait buffer hwait => rw [pieces_wait hwait]; rfl
  | refuse buffer e hrefuse =>
    have hstands : s.verdict (buffer ++ more) = .refuse e := by
      rw [s.stable more (by rw [hrefuse]; nofun), hrefuse]
    rw [pieces_refuse hrefuse, pieces_refuse hstands]
  | emit buffer n hemit ih =>
    have hstands : s.verdict (buffer ++ more) = .emit n := by
      rw [s.stable more (by rw [hemit]; nofun), hemit]
    have hle := (s.emits hemit).2
    rw [pieces_emit hemit, pieces_emit hstands, List.take_append_of_le_length hle,
      List.drop_append_of_le_length hle, ih]
    dsimp only
    cases (s.pieces (buffer.drop n)).2 with
    | ok rest => rfl
    | error e => rfl

variable (s) in
/-- Chunks that arrive one after the other, up to the first error. -/
def feeds (buffer : List τ) : List (List τ) → List (List τ) × Except ε (List τ)
  | [] => ([], .ok buffer)
  | chunk :: chunks =>
    match (s.pieces (buffer ++ chunk)).2 with
    | .ok rest => ((s.pieces (buffer ++ chunk)).1 ++ (feeds rest chunks).1, (feeds rest chunks).2)
    | .error e => ((s.pieces (buffer ++ chunk)).1, .error e)

/-- Chunks give what their concatenation gives. -/
theorem feeds_eq (waits : s.verdict buffer = .wait) (chunks : List (List τ)) :
    s.feeds buffer chunks = s.pieces (buffer ++ chunks.flatten) := by
  induction chunks generalizing buffer with
  | nil => rw [List.flatten_nil, List.append_nil, pieces_wait waits, feeds]
  | cons chunk chunks ih =>
    rw [List.flatten_cons, ← List.append_assoc, pieces_append, feeds]
    cases hrest : (s.pieces (buffer ++ chunk)).2 with
    | error e => rfl
    | ok rest => simp only [ih (verdict_rest hrest)]

-- ---------------------------------------------------------------------------
-- Blocks
-- ---------------------------------------------------------------------------

/-- Pieces of one length. -/
def blocks (τ : Type) {n : Nat} (pos : 0 < n) : Splitter τ Empty where
  verdict buffer := if buffer.length < n then .wait else .emit n
  emits h := by
    split at h
    · cases h
    · cases h
      omega
  stable more h := by
    split at h
    · exact absurd rfl h
    · rw [List.length_append, if_neg (by omega), if_neg (by omega)]

variable {n : Nat} {pos : 0 < n}

theorem pieces_blocks_short (h : buffer.length < n) : (blocks τ pos).pieces buffer = ([], .ok buffer) :=
  pieces_wait (if_pos h)

theorem pieces_blocks_long (h : n ≤ buffer.length) :
    (blocks τ pos).pieces buffer =
      (buffer.take n :: ((blocks τ pos).pieces (buffer.drop n)).1, ((blocks τ pos).pieces (buffer.drop n)).2) :=
  pieces_emit (if_neg (Nat.not_lt.mpr h))

/-- What is left is the remainder. -/
theorem pieces_blocks_rest (buffer : List τ) :
    ∃ rest, ((blocks τ pos).pieces buffer).2 = .ok rest ∧ rest.length = buffer.length % n := by
  induction hlength : buffer.length using Nat.strong_induction_on generalizing buffer with
  | _ length ih =>
    by_cases hshort : buffer.length < n
    · refine ⟨buffer, by rw [pieces_blocks_short hshort], ?_⟩
      rw [← hlength, Nat.mod_eq_of_lt hshort]
    · have hlong : n ≤ buffer.length := Nat.not_lt.mp hshort
      have hdrop : (buffer.drop n).length = length - n := by rw [List.length_drop, hlength]
      obtain ⟨rest, hrest, hmod⟩ := ih (length - n) (by omega) (buffer.drop n) hdrop
      refine ⟨rest, by rw [pieces_blocks_long hlong, hrest], ?_⟩
      rw [hmod]
      exact (Nat.mod_eq_sub_mod (hlength ▸ hlong)).symm

/-- Whole blocks leave nothing. -/
theorem pieces_blocks_whole (count : Nat) (h : buffer.length = n * count) :
    (blocks τ pos).pieces buffer = ((List.range count).map fun i => (buffer.drop (n * i)).take n, .ok []) := by
  induction count generalizing buffer with
  | zero =>
    obtain rfl : buffer = [] := List.eq_nil_of_length_eq_zero h
    exact pieces_blocks_short pos
  | succ count ih =>
    rw [Nat.mul_succ] at h
    rw [pieces_blocks_long (by omega), ih (by rw [List.length_drop]; omega), List.range_succ_eq_map,
      List.map_cons, List.map_map]
    simp [Function.comp_def, Nat.mul_succ, Nat.add_comm]

end Splitter
