import DistributedCompilation.Lib.Program

/-!
# Outcomes of programs

`caught` turns the early exit of a program into a value, the way a caller looks
at the status a call returned. `Yields m P` says of every value `m` can return
that `P` holds, whatever state it starts from: a property of the text of a
program, composed along its sequencing.
-/

namespace Program

variable {σ ε α β : Type}

/-- Runs a program and hands on how it ended. -/
def caught (m : Program σ ε α) : Program σ ε (Except ε α) := fun s => (.ok (m.run s).1, (m.run s).2)

@[simp] theorem wp_caught {m : Program σ ε α} {Q : Except ε (Except ε α) → σ → Prop} {s : σ} :
    wp (caught m) Q s ↔ wp m (fun r s' => Q (.ok r) s') s := Iff.rfl

theorem Keeps.caught {I : σ → Prop} {m : Program σ ε α} (h : Keeps I m) : Keeps I (Program.caught m) :=
  fun s hs => wp_caught.mpr (h s hs)

/-- Whatever the program returns satisfies `P`. -/
def Yields (m : Program σ ε α) (P : α → Prop) : Prop := ∀ s, wp m (fun r _ => ∀ a, r = .ok a → P a) s

namespace Yields

variable {P : α → Prop} {Q : β → Prop}

theorem pure {a : α} (h : P a) : Yields (Pure.pure a : Program σ ε α) P := by
  intro s b hb
  cases hb
  exact h

theorem leave (e : ε) : Yields (Program.leave e : Program σ ε α) P := by
  intro s a ha
  cases ha

theorem trivial (m : Program σ ε α) : Yields m fun _ => True := fun _ _ _ => True.intro

theorem mono {P' : α → Prop} {m : Program σ ε α} (h : Yields m P) (weaker : ∀ a, P a → P' a) : Yields m P' :=
  fun s => wp_mono (h s) fun _ _ hr a ha => weaker a (hr a ha)

/-- What follows only sees values the first part returns. -/
theorem bind {m : Program σ ε β} {f : β → Program σ ε α} (hm : Yields m Q) (hf : ∀ b, Q b → Yields (f b) P) :
    Yields (m >>= f) P := by
  intro s
  refine wp_seq _ (hm s) (fun b s' hb => hf b (hb b rfl) s') fun e s' _ a ha => ?_
  cases ha

/-- Of the first part nothing has to be known. -/
theorem after (m : Program σ ε β) {f : β → Program σ ε α} (hf : ∀ b, Yields (f b) P) : Yields (m >>= f) P :=
  bind (trivial m) fun b _ => hf b

theorem ite {c : Prop} [Decidable c] {m m' : Program σ ε α} (hm : c → Yields m P) (hm' : ¬c → Yields m' P) :
    Yields (if c then m else m') P := by
  split
  · exact hm ‹_›
  · exact hm' ‹_›

theorem caught {m : Program σ ε α} (h : Yields m P) :
    Yields (Program.caught m) fun outcome => ∀ a, outcome = .ok a → P a := by
  intro s
  refine wp_caught.mpr (wp_mono (h s) fun r _ hr outcome houtcome a ha => hr a ?_)
  cases houtcome
  exact ha

end Yields

end Program
