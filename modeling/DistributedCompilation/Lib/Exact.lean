import DistributedCompilation.Lib.Decoder

/-!
# Exact decoders

A decoder is exact for an encoder when it accepts nothing but encodings: the
front it consumes is what the encoder writes for the value it returns.

The rules follow the decoder. Its reads are named as it is run, so a goal says
of the value returned that it has the names read so far (`Exact.bind`), and the
encoder of the whole is taken apart in the same order.
-/

namespace Decoder

variable {τ ε α β : Type}

/-- Whatever `d` accepts is an encoding, followed by what `d` leaves, of a value
with the property `P`. -/
def Exact (d : Decoder τ ε α) (encode : α → List τ) (P : α → Prop) : Prop :=
  ∀ ⦃input rest a⦄, d.run input = .ok (a, rest) → input = encode a ++ rest ∧ P a

namespace Exact

variable {d : Decoder τ ε α} {encode : α → List τ} {P : α → Prop}

theorem imp {Q : α → Prop} (h : d.Exact encode P) (himp : ∀ a, P a → Q a) : d.Exact encode Q := by
  intro input rest a hrun
  obtain ⟨hinput, ha⟩ := h hrun
  exact ⟨hinput, himp a ha⟩

protected theorem pure {a : α} (hnil : encode a = []) (ha : P a) :
    (Pure.pure a : Decoder τ ε α).Exact encode P := by
  intro input rest b hrun
  obtain ⟨rfl, rfl⟩ := Prod.mk.inj (Except.ok.inj hrun)
  rw [hnil]
  exact ⟨rfl, ha⟩

protected theorem fail (e : ε) : (Decoder.fail e : Decoder τ ε α).Exact encode P := by
  intro input rest a hrun
  cases hrun

/-- Sequencing: the first part is the encoding of the component `p` of the whole. -/
protected theorem bind {f : α → Decoder τ ε β} {p : β → α} {encodeRest : β → List τ} {Q : β → Prop}
    (h : d.Exact encode P)
    (hrest : ∀ a, P a → (f a).Exact encodeRest fun b => p b = a ∧ Q b) :
    (d >>= f).Exact (fun b => encode (p b) ++ encodeRest b) Q := by
  intro input rest b hrun
  obtain ⟨a, mid, hfirst, hsecond⟩ := run_bind_eq_ok.mp hrun
  obtain ⟨rfl, ha⟩ := h hfirst
  obtain ⟨rfl, rfl, hb⟩ := hrest a ha hsecond
  exact ⟨(List.append_assoc ..).symm, hb⟩

/-- `n` encodings in a row. -/
protected theorem replicate (h : d.Exact encode P) (n : Nat) :
    (replicate d n).Exact (fun as => as.flatMap encode)
      fun as => as.length = n ∧ ∀ a ∈ as, P a := by
  induction n with
  | zero => exact .pure rfl ⟨rfl, fun a ha => absurd ha (List.not_mem_nil)⟩
  | succ n ih =>
    intro input rest as hrun
    obtain ⟨a, mid, hfirst, hothers⟩ := run_bind_eq_ok.mp hrun
    obtain ⟨as', last, hmany, hpure⟩ := run_bind_eq_ok.mp hothers
    obtain ⟨rfl, rfl⟩ := Prod.mk.inj (Except.ok.inj hpure)
    obtain ⟨rfl, ha⟩ := h hfirst
    obtain ⟨rfl, hlength, has⟩ := ih hmany
    refine ⟨?_, ?_, ?_⟩
    · show _ = (encode a ++ as'.flatMap encode) ++ last
      rw [List.append_assoc]
    · rw [List.length_cons, hlength]
    · intro b hb
      rcases List.mem_cons.mp hb with rfl | hb
      · exact ha
      · exact has b hb

end Exact

/-- The next `n` tokens are what they are. -/
theorem exact_take (n : Nat) (e : ε) :
    (take n e : Decoder τ ε (List τ)).Exact id fun front => front.length = n := by
  intro input rest front hrun
  by_cases hshort : input.length < n
  · rw [run, take, if_pos hshort] at hrun
    cases hrun
  · rw [run, take, if_neg hshort] at hrun
    obtain ⟨rfl, rfl⟩ := Prod.mk.inj (Except.ok.inj hrun)
    refine ⟨(List.take_append_drop n input).symm, ?_⟩
    show (input.take n).length = n
    rw [List.length_take]
    omega

end Decoder
