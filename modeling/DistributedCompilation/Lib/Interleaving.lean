import Mathlib

/-!
# Interleavings

What several parties contribute to one sequence: every entry carries the party it
belongs to, and `partOf` is the share of one of them.
-/

namespace Interleaving

variable {κ α : Type} [DecidableEq κ]

/-- What the party `k` contributed, in its order. -/
def partOf (k : κ) (entries : List (κ × α)) : List α :=
  entries.filterMap fun entry => if entry.1 = k then some entry.2 else none

@[simp] theorem partOf_nil (k : κ) : partOf k ([] : List (κ × α)) = [] := rfl

@[simp] theorem partOf_append (k : κ) (entries more : List (κ × α)) :
    partOf k (entries ++ more) = partOf k entries ++ partOf k more := List.filterMap_append

/-- What a party adds is its own. -/
theorem partOf_own (k : κ) (xs : List α) : partOf k (xs.map (k, ·)) = xs := by
  induction xs with
  | nil => rfl
  | cons x xs ih =>
    rw [List.map_cons, ← List.singleton_append, partOf_append, ih]
    simp [partOf]

theorem partOf_other {j k : κ} (h : j ≠ k) (xs : List α) : partOf k (xs.map (j, ·)) = [] := by
  induction xs with
  | nil => rfl
  | cons x xs ih =>
    rw [List.map_cons, ← List.singleton_append, partOf_append, ih]
    simp [partOf, h]

theorem mem_partOf {k : κ} {entries : List (κ × α)} {x : α} : x ∈ partOf k entries ↔ (k, x) ∈ entries := by
  rw [partOf, List.mem_filterMap]
  constructor
  · rintro ⟨⟨j, y⟩, hentry, h⟩
    split at h
    next hj =>
      cases h
      exact hj ▸ hentry
    next => cases h
  · intro h
    exact ⟨(k, x), h, if_pos rfl⟩

/-- The share of a party in a beginning is a beginning of its share. -/
theorem partOf_mono (k : κ) {entries more : List (κ × α)} (h : entries <+: more) :
    partOf k entries <+: partOf k more := by
  obtain ⟨rest, rfl⟩ := h
  exact ⟨partOf k rest, (partOf_append k entries rest).symm⟩

end Interleaving
