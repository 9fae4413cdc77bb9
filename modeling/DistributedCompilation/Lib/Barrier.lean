import Mathlib.Data.Fintype.Card
import Mathlib.Logic.Relation
import Mathlib.Order.WellFounded

/-!
# Barriers

Elements that wait for others. Where nothing waits, over others, for itself, some
missing element of a finite type waits for present ones only; an element that does
wait for itself is on a cycle, whose elements wait for each other.
-/

namespace Barrier

variable {α : Type} (waits : α → α → Prop)

/-- Nothing waits for itself. -/
def Acyclic : Prop := ∀ p, ¬Relation.TransGen waits p p

variable {waits}

theorem Acyclic.mono {waits' : α → α → Prop} (h : Acyclic waits) (le : ∀ p q, waits' p q → waits p q) :
    Acyclic waits' := fun p hp => h p (Relation.TransGen.mono le _ _ hp)

/-- Some missing element has all it waits for. -/
theorem Acyclic.exists_ready [Finite α] (h : Acyclic waits) {present : α → Prop} (missing : ∃ p, ¬present p) :
    ∃ p, ¬present p ∧ ∀ q, waits p q → present q := by
  let below (q p : α) : Prop := Relation.TransGen waits p q
  have : IsTrans α below := ⟨fun _ _ _ hab hbc => Relation.TransGen.trans hbc hab⟩
  have : Std.Irrefl below := ⟨h⟩
  have wf : WellFounded below := Finite.wellFounded_of_trans_of_irrefl below
  obtain ⟨p, hp, hmin⟩ := wf.has_min {p | ¬present p} missing
  refine ⟨p, hp, fun q hq => ?_⟩
  by_contra habsent
  exact hmin q habsent (.single hq)

variable (waits) in
/-- What the element waits for and what waits for it. -/
def OnCycle (p q : α) : Prop := Relation.TransGen waits p q ∧ Relation.TransGen waits q p

/-- On a cycle everything waits for something on it. -/
theorem OnCycle.next {p q : α} (h : OnCycle waits p q) : ∃ r, OnCycle waits p r ∧ waits q r := by
  obtain ⟨hpq, hqp⟩ := h
  obtain ⟨r, hqr, hrp⟩ := Relation.TransGen.head'_iff.mp hqp
  refine ⟨r, ⟨hpq.tail hqr, ?_⟩, hqr⟩
  rcases Relation.reflTransGen_iff_eq_or_transGen.mp hrp with rfl | hrp
  · exact hpq.tail hqr
  · exact hrp

end Barrier
