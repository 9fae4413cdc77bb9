import Mathlib

/-!
# Programs over a state with early return

`Program σ ε α` is an imperative procedure on a state `σ` that returns a value
or leaves early with `ε`. What it wrote before leaving stays written, so every
exit has to be accounted for.

`Program.wp m Q s` says that running `m` from `s` ends in a state satisfying
`Q`, which sees the outcome. The rules below compute it through sequencing,
branching and loops; `Keeps I m` is the special case "every exit of `m`
re-establishes `I`".
-/

/-- Procedures over the state `σ` that may leave early with `ε`. -/
def Program (σ ε α : Type) : Type := σ → Except ε α × σ

namespace Program

variable {σ ε α β : Type}

def run (m : Program σ ε α) (s : σ) : Except ε α × σ := m s

instance : Monad (Program σ ε) where
  pure a := fun s => (.ok a, s)
  bind m f := fun s =>
    match m s with
    | (.ok a, s') => f a s'
    | (.error e, s') => (.error e, s')

/-- What follows a program, from what the program ended in. -/
def andThen (f : α → Program σ ε β) : Except ε α × σ → Except ε β × σ
  | (.ok a, s) => f a s
  | (.error e, s) => (.error e, s)

theorem bind_apply (m : Program σ ε α) (f : α → Program σ ε β) (s : σ) :
    (m >>= f) s = andThen f (m s) := by
  simp only [bind]
  split <;> simp_all [andThen]

theorem bind_pure_self (m : Program σ ε α) : (m >>= fun a => pure a) = m := by
  funext s
  show andThen (fun a => pure a) (m s) = m s
  rcases m s with ⟨_ | _, _⟩ <;> rfl

theorem bind_assoc (m : Program σ ε α) (f : α → Program σ ε β) (g : β → Program σ ε γ) :
    (m >>= f >>= g) = m >>= fun a => f a >>= g := by
  funext s
  simp only [bind_apply]
  rcases m s with ⟨_ | _, _⟩ <;> simp only [andThen, bind_apply]

instance : LawfulMonad (Program σ ε) :=
  LawfulMonad.mk' _ bind_pure_self (fun _ _ => rfl) bind_assoc

/-- Reads the state. -/
def read : Program σ ε σ := fun s => (.ok s, s)

/-- Updates the state. -/
def update (f : σ → σ) : Program σ ε Unit := fun s => (.ok (), f s)

/-- Leaves the procedure. -/
def leave (e : ε) : Program σ ε α := fun s => (.error e, s)

/-- `for (x : xs) body(x)`. -/
def forEach : List β → (β → Program σ ε Unit) → Program σ ε Unit
  | [], _ => pure ()
  | x :: xs, body => do
    body x
    forEach xs body

/-- Collects the results of a loop body in order. -/
def collect : List β → (β → Program σ ε (List α)) → Program σ ε (List α)
  | [], _ => pure []
  | x :: xs, body => do
    let out ← body x
    let rest ← collect xs body
    pure (out ++ rest)

/-- Weakest precondition: the run from `s` ends with `Q outcome final`. -/
def wp (m : Program σ ε α) (Q : Except ε α → σ → Prop) (s : σ) : Prop :=
  Q (m.run s).1 (m.run s).2

-- ---------------------------------------------------------------------------
-- The rules of `wp`
-- ---------------------------------------------------------------------------

section Rules

variable {Q : Except ε α → σ → Prop} {s : σ}

@[simp] theorem wp_pure (a : α) : wp (pure a : Program σ ε α) Q s ↔ Q (.ok a) s := Iff.rfl

@[simp] theorem wp_leave (e : ε) : wp (leave e : Program σ ε α) Q s ↔ Q (.error e) s := Iff.rfl

@[simp] theorem wp_read {Q : Except ε σ → σ → Prop} :
    wp (read : Program σ ε σ) Q s ↔ Q (.ok s) s := Iff.rfl

@[simp] theorem wp_update {Q : Except ε Unit → σ → Prop} (f : σ → σ) :
    wp (update f : Program σ ε Unit) Q s ↔ Q (.ok ()) (f s) := Iff.rfl

theorem wp_bind (m : Program σ ε β) (f : β → Program σ ε α) :
    wp (m >>= f) Q s ↔
      wp m (fun r s' => match r with
        | .ok b => wp (f b) Q s'
        | .error e => Q (.error e) s') s := by
  show Q ((m >>= f) s).1 ((m >>= f) s).2 ↔ _
  simp only [bind, wp, run]
  split <;> simp_all

@[simp] theorem wp_read_bind (f : σ → Program σ ε α) : wp (read >>= f) Q s ↔ wp (f s) Q s :=
  Iff.rfl

@[simp] theorem wp_update_bind (g : σ → σ) (f : Unit → Program σ ε α) :
    wp (update g >>= f) Q s ↔ wp (f ()) Q (g s) := Iff.rfl

@[simp] theorem wp_pure_bind (b : β) (f : β → Program σ ε α) :
    wp ((pure b : Program σ ε β) >>= f) Q s ↔ wp (f b) Q s := Iff.rfl

@[simp] theorem wp_leave_bind (e : ε) (f : β → Program σ ε α) :
    wp ((leave e : Program σ ε β) >>= f) Q s ↔ Q (.error e) s := Iff.rfl

theorem wp_mono {m : Program σ ε α} {Q' : Except ε α → σ → Prop}
    (h : wp m Q s) (hQ : ∀ r s', Q r s' → Q' r s') : wp m Q' s := hQ _ _ h

/-- Sequencing through an intermediate assertion. -/
theorem wp_seq {m : Program σ ε β} {f : β → Program σ ε α} (R : Except ε β → σ → Prop)
    (hm : wp m R s) (hok : ∀ b s', R (.ok b) s' → wp (f b) Q s')
    (herr : ∀ e s', R (.error e) s' → Q (.error e) s') : wp (m >>= f) Q s := by
  rw [wp_bind]
  refine wp_mono hm fun r s' hr => ?_
  cases r with
  | ok b => exact hok b s' hr
  | error e => exact herr e s' hr

/-- Runs end once, so what is known of the end adds up. -/
theorem wp_and {m : Program σ ε α} {Q' : Except ε α → σ → Prop} (h : wp m Q s) (h' : wp m Q' s) :
    wp m (fun r s' => Q r s' ∧ Q' r s') s := ⟨h, h'⟩

end Rules

-- ---------------------------------------------------------------------------
-- Invariants
-- ---------------------------------------------------------------------------

/-- Every exit of `m` re-establishes `I`. -/
def Keeps (I : σ → Prop) (m : Program σ ε α) : Prop := ∀ s, I s → wp m (fun _ s' => I s') s

namespace Keeps

variable {I : σ → Prop}

@[grind ←] theorem pure (a : α) : Keeps I (Pure.pure a : Program σ ε α) := fun _ h => h

@[grind ←] theorem leave (e : ε) : Keeps I (Program.leave e : Program σ ε α) := fun _ h => h

@[grind ←] theorem read : Keeps I (Program.read : Program σ ε σ) := fun _ h => h

theorem update {f : σ → σ} (h : ∀ s, I s → I (f s)) :
    Keeps I (Program.update f : Program σ ε Unit) := h

@[grind ←] theorem bind {m : Program σ ε β} {f : β → Program σ ε α} (hm : Keeps I m)
    (hf : ∀ b, Keeps I (f b)) : Keeps I (m >>= f) := fun s hs =>
  wp_seq (fun _ s' => I s') (hm s hs) (fun b s' hs' => hf b s' hs') fun _ _ hs' => hs'

theorem ite {c : Prop} [Decidable c] {m m' : Program σ ε α} (hm : c → Keeps I m)
    (hm' : ¬c → Keeps I m') : Keeps I (if c then m else m') := by
  split
  · exact hm ‹_›
  · exact hm' ‹_›

/-- A loop keeps what its body keeps. -/
@[grind ←] theorem forEach {body : β → Program σ ε Unit} (xs : List β)
    (h : ∀ x ∈ xs, Keeps I (body x)) : Keeps I (Program.forEach xs body) := by
  induction xs with
  | nil => exact pure ()
  | cons x xs ih =>
    exact bind (h x List.mem_cons_self) fun _ => ih fun y hy => h y (List.mem_cons_of_mem _ hy)

@[grind ←] theorem collect {body : β → Program σ ε (List α)} (xs : List β)
    (h : ∀ x ∈ xs, Keeps I (body x)) : Keeps I (Program.collect xs body) := by
  induction xs with
  | nil => exact pure []
  | cons x xs ih =>
    refine bind (h x List.mem_cons_self) fun _ => ?_
    exact bind (ih fun y hy => h y (List.mem_cons_of_mem _ hy)) fun _ => pure _

end Keeps

-- ---------------------------------------------------------------------------
-- Results of loops
-- ---------------------------------------------------------------------------

/-- What holds of a result, if there is one. -/
def Returned (P : α → Prop) : Except ε (Option α) → Prop
  | .ok (some a) => P a
  | .ok none | .error _ => True

/-- What holds of everything a loop collected. -/
def Collected (P : α → Prop) : Except ε (List α) → Prop
  | .ok out => ∀ a ∈ out, P a
  | .error _ => True

/-- A loop that collects, with what holds of the results and stays so. -/
theorem wp_collect {I : σ → Prop} {P : α → σ → Prop}
    {body : β → Program σ ε (List α)} (xs : List β)
    (results : ∀ x s, I s → wp (body x) (fun r s' => I s' ∧ Collected (P · s') r) s)
    (keeps : ∀ a x, Keeps (P a) (body x)) {s : σ} (hs : I s) :
    wp (Program.collect xs body) (fun r s' => I s' ∧ Collected (P · s') r) s := by
  induction xs generalizing s with
  | nil => exact ⟨hs, fun _ h => absurd h List.not_mem_nil⟩
  | cons x xs ih =>
    refine wp_seq _ (results x s hs) ?_ fun _ _ h => ⟨h.1, trivial⟩
    rintro first t ⟨ht, hfirst⟩
    -- what the first round returned stays through the others
    have hstays : ∀ a ∈ first, wp (Program.collect xs body) (fun _ s' => P a s') t :=
      fun a ha => Keeps.collect xs (fun y _ => keeps a y) t (hfirst a ha)
    refine wp_seq (fun r s' => (I s' ∧ Collected (P · s') r) ∧ ∀ a ∈ first, P a s')
      ⟨ih ht, hstays⟩ ?_ fun _ _ h => ⟨h.1.1, trivial⟩
    rintro rest u ⟨⟨hu, hrest⟩, hfirst⟩
    refine ⟨hu, fun a ha => ?_⟩
    rcases List.mem_append.mp ha with ha | ha
    · exact hfirst a ha
    · exact hrest a ha

/-- One element of a loop establishes what the others keep. -/
theorem wp_forEach_of_mem {I J : σ → Prop} {body : β → Program σ ε Unit}
    {xs : List β} {x : β} (hx : x ∈ xs) (keeps : ∀ y, Keeps I (body y)) (stays : ∀ y, Keeps J (body y))
    (makes : ∀ s, I s → wp (body x) (fun r s' => r = .ok () → J s') s) {s : σ} (hs : I s) :
    wp (Program.forEach xs body) (fun r s' => r = .ok () → J s') s := by
  induction xs generalizing s with
  | nil => cases hx
  | cons y ys ih =>
    rcases List.mem_cons.mp hx with rfl | hx
    · refine wp_seq _ (makes s hs) (fun _ s' hs' => ?_) fun _ _ _ => nofun
      exact wp_mono (Keeps.forEach ys (fun y _ => stays y) s' (hs' rfl)) fun _ _ h _ => h
    · exact wp_seq _ (keeps y s hs) (fun _ s' hs' => ih hx hs') fun _ _ _ => nofun

end Program
