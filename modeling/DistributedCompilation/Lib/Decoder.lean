import Mathlib

/-!
# Decoders

A decoder consumes a prefix of a token list or fails with an error. Decoders
compose sequentially; `take` and `replicate` are the two ways in which a
decoder's progress depends on a number it read before.

A round trip is an equation `d.run (encoding ++ rest) = .ok (value, rest)`:
stated with an arbitrary `rest`, it composes (`run_bind_of_run`), so the round
trip of a record follows field by field.
-/

/-- A decoder over tokens `τ` with errors `ε`. -/
def Decoder (τ ε α : Type) : Type := List τ → Except ε (α × List τ)

namespace Decoder

variable {τ ε α β : Type}

/-- Runs a decoder on the remaining input. -/
def run (d : Decoder τ ε α) (input : List τ) : Except ε (α × List τ) := d input

instance : Monad (Decoder τ ε) where
  pure a := fun input => .ok (a, input)
  bind d f := fun input =>
    match d input with
    | .ok (a, rest) => f a rest
    | .error e => .error e

/-- Fails without consuming anything. -/
def fail (e : ε) : Decoder τ ε α := fun _ => .error e

/-- The next `n` tokens, or `e` when fewer are left. -/
def take (n : Nat) (e : ε) : Decoder τ ε (List τ) := fun input =>
  if input.length < n then .error e else .ok (input.take n, input.drop n)

/-- Whether the input is exhausted. -/
def atEnd : Decoder τ ε Bool := fun input => .ok (input.isEmpty, input)

/-- Renames the reasons of refusals. -/
def mapError (g : ε → ε) (d : Decoder τ ε α) : Decoder τ ε α := fun input =>
  (d input).mapError g

/-- `n` values in a row. -/
def replicate (d : Decoder τ ε α) : Nat → Decoder τ ε (List α)
  | 0 => pure []
  | n + 1 => do
    let a ← d
    let as ← replicate d n
    pure (a :: as)

@[simp] theorem run_pure (a : α) (input : List τ) :
    (pure a : Decoder τ ε α).run input = .ok (a, input) := rfl

@[simp] theorem run_fail (e : ε) (input : List τ) :
    (fail e : Decoder τ ε α).run input = .error e := rfl

@[simp] theorem run_fail_bind (e : ε) (f : α → Decoder τ ε β) (input : List τ) :
    ((fail e : Decoder τ ε α) >>= f).run input = .error e := rfl

@[simp] theorem run_atEnd_bind (f : Bool → Decoder τ ε β) (input : List τ) :
    ((atEnd : Decoder τ ε Bool) >>= f).run input = (f input.isEmpty).run input := rfl

theorem run_bind (d : Decoder τ ε α) (f : α → Decoder τ ε β) (input : List τ) :
    (d >>= f).run input =
      match d.run input with
      | .ok (a, rest) => (f a).run rest
      | .error e => .error e := rfl

/-- Sequencing on an input whose front the first decoder accepts. -/
theorem run_bind_of_run {d : Decoder τ ε α} {f : α → Decoder τ ε β} {input rest : List τ} {a : α}
    (h : d.run input = .ok (a, rest)) : (d >>= f).run input = (f a).run rest := by
  rw [run_bind, h]

/-- What a successful sequence did. -/
theorem run_bind_eq_ok {d : Decoder τ ε α} {f : α → Decoder τ ε β} {input rest : List τ} {b : β} :
    (d >>= f).run input = .ok (b, rest) ↔
      ∃ a mid, d.run input = .ok (a, mid) ∧ (f a).run mid = .ok (b, rest) := by
  rw [run_bind]
  cases h : d.run input with
  | error e => simp
  | ok p => obtain ⟨a, mid⟩ := p; simp

theorem run_take_append (front rest : List τ) (e : ε) :
    (take front.length e : Decoder τ ε (List τ)).run (front ++ rest) = .ok (front, rest) := by
  show (if (front ++ rest).length < front.length then _ else _) = _
  rw [if_neg (by simp), List.take_left, List.drop_left]

theorem run_take_of_length {n : Nat} (front rest : List τ) (e : ε) (h : front.length = n) :
    (take n e : Decoder τ ε (List τ)).run (front ++ rest) = .ok (front, rest) := by
  subst h
  exact run_take_append front rest e

-- ---------------------------------------------------------------------------
-- Acceptance
-- ---------------------------------------------------------------------------

/-- The outcome of a decoder without the reason of a refusal. -/
def parse (d : Decoder τ ε α) (input : List τ) : Option (α × List τ) := (d.run input).toOption

@[simp] theorem parse_pure (a : α) (input : List τ) :
    (pure a : Decoder τ ε α).parse input = some (a, input) := rfl

@[simp] theorem parse_fail (e : ε) (input : List τ) :
    (fail e : Decoder τ ε α).parse input = none := rfl

@[simp] theorem parse_ite (c : Prop) [Decidable c] (d d' : Decoder τ ε α) (input : List τ) :
    (if c then d else d').parse input = if c then d.parse input else d'.parse input := by
  split <;> rfl

theorem parse_bind (d : Decoder τ ε α) (f : α → Decoder τ ε β) (input : List τ) :
    (d >>= f).parse input = (d.parse input).bind fun p => (f p.1).parse p.2 := by
  rw [parse, parse, run_bind]
  cases d.run input <;> rfl

@[simp] theorem parse_mapError (g : ε → ε) (d : Decoder τ ε α) (input : List τ) :
    (mapError g d).parse input = d.parse input := by
  show ((d input).mapError g).toOption = (d input).toOption
  cases d input <;> rfl

theorem parse_of_run {d : Decoder τ ε α} {input rest : List τ} {a : α}
    (h : d.run input = .ok (a, rest)) : d.parse input = some (a, rest) := by
  rw [parse, h]
  rfl

theorem run_of_parse {d : Decoder τ ε α} {input rest : List τ} {a : α}
    (h : d.parse input = some (a, rest)) : d.run input = .ok (a, rest) := by
  rw [parse] at h
  cases hr : d.run input with
  | error e => rw [hr] at h; cases h
  | ok p => rw [hr] at h; cases h; rfl

theorem parse_bind_of_parse {d : Decoder τ ε α} {f : α → Decoder τ ε β} {input rest : List τ}
    {a : α} (h : d.parse input = some (a, rest)) : (d >>= f).parse input = (f a).parse rest := by
  rw [parse_bind, h]
  rfl

/-- Sequencing on an input of which the first decoder accepts exactly the
front, provided `c`. -/
theorem parse_bind_of_guard {d : Decoder τ ε α} {f : α → Decoder τ ε β} {input rest : List τ}
    {a : α} {c : Prop} [Decidable c] (h : d.parse input = if c then some (a, rest) else none) :
    (d >>= f).parse input = if c then (f a).parse rest else none := by
  rw [parse_bind, h]
  split <;> rfl

/-- Sequencing on an input whose front the first decoder turns into `a?`. -/
theorem parse_bind_of_map {d : Decoder τ ε α} {f : α → Decoder τ ε β} {input rest : List τ}
    {a? : Option α} (h : d.parse input = a?.map (·, rest)) :
    (d >>= f).parse input = a?.bind fun a => (f a).parse rest := by
  rw [parse_bind, h]
  cases a? <;> rfl

/-- A list of values is read back value by value. -/
theorem parse_replicate_mapM {d : Decoder τ ε α} {γ : Type} {encode : γ → List τ}
    {reread : γ → Option α} (as : List γ) (rest : List τ)
    (h : ∀ a ∈ as, ∀ rest, d.parse (encode a ++ rest) = (reread a).map (·, rest)) :
    (replicate d as.length).parse (as.flatMap encode ++ rest) =
      (as.mapM reread).map (·, rest) := by
  induction as with
  | nil => rfl
  | cons a as ih =>
    have hrest := ih fun b hb => h b (List.mem_cons_of_mem _ hb)
    rw [List.flatMap_cons, List.append_assoc, List.length_cons, replicate,
      parse_bind_of_map (h a List.mem_cons_self _), List.mapM_cons]
    cases reread a with
    | none => rfl
    | some a' =>
      rw [Option.bind_some, parse_bind_of_map hrest]
      cases List.mapM reread as <;> rfl

/-- A list of values is accepted when each of its members is. -/
theorem parse_replicate_flatMap {d : Decoder τ ε α} {encode : α → List τ} {ok : α → Prop}
    [DecidablePred ok] (as : List α) (rest : List τ)
    (h : ∀ a ∈ as, ∀ rest, d.parse (encode a ++ rest) = if ok a then some (a, rest) else none) :
    (replicate d as.length).parse (as.flatMap encode ++ rest) =
      if ∀ a ∈ as, ok a then some (as, rest) else none := by
  induction as with
  | nil => simp [replicate]
  | cons a as ih =>
    have hrest := ih fun b hb => h b (List.mem_cons_of_mem _ hb)
    rw [List.flatMap_cons, List.append_assoc, List.length_cons, replicate,
      parse_bind_of_guard (h a List.mem_cons_self _), parse_bind_of_guard hrest, parse_pure]
    by_cases ha : ok a <;> by_cases has : ∀ b ∈ as, ok b <;> simp [ha, has]

/-- A list encoded element by element comes back whole. -/
theorem run_replicate_flatMap {d : Decoder τ ε α} {encode : α → List τ} (as : List α)
    (rest : List τ) (h : ∀ a ∈ as, ∀ rest, d.run (encode a ++ rest) = .ok (a, rest)) :
    (replicate d as.length).run (as.flatMap encode ++ rest) = .ok (as, rest) := by
  induction as with
  | nil => rfl
  | cons a as ih =>
    have hrest := ih fun b hb => h b (List.mem_cons_of_mem _ hb)
    rw [List.flatMap_cons, List.append_assoc, List.length_cons, replicate,
      run_bind_of_run (h a List.mem_cons_self _), run_bind_of_run hrest, run_pure]

end Decoder
