import Mathlib

/-!
# Reads

A computation on a byte string together with the indices it reads there. That no
access is out of bounds is a property of the indices (`Reads.Within`), composed
along the computation; what is computed is its value.
-/

/-- A value and the indices read for it. -/
structure Reads (α : Type) where
  value : α
  indices : List Nat

namespace Reads

variable {α β : Type}

instance : Monad Reads where
  pure a := ⟨a, []⟩
  bind m f := ⟨(f m.value).value, m.indices ++ (f m.value).indices⟩

/-- Reads the byte at an index. -/
def byte (data : List UInt8) (i : Nat) : Reads UInt8 := ⟨data.getD i 0, [i]⟩

/-- Reads consecutive bytes. -/
def span (data : List UInt8) (offset count : Nat) : Reads (List UInt8) :=
  ⟨(data.drop offset).take count, (List.range count).map (offset + ·)⟩

@[simp] theorem value_pure (a : α) : (pure a : Reads α).value = a := rfl

@[simp] theorem value_bind (m : Reads α) (f : α → Reads β) : (m >>= f).value = (f m.value).value := rfl

theorem value_ite {c : Prop} [Decidable c] (m m' : Reads α) :
    (if c then m else m').value = if c then m.value else m'.value := by
  split <;> rfl

@[simp] theorem value_byte (data : List UInt8) (i : Nat) : (byte data i).value = data.getD i 0 := rfl

@[simp] theorem value_span (data : List UInt8) (offset count : Nat) :
    (span data offset count).value = (data.drop offset).take count := rfl

/-- Every index is smaller than the bound. -/
def Within (n : Nat) (m : Reads α) : Prop := ∀ i ∈ m.indices, i < n

variable {n : Nat} {data : List UInt8}

theorem within_pure (a : α) : Within n (pure a) := fun _ h => nomatch h

theorem within_bind {m : Reads α} {f : α → Reads β} (first : m.Within n) (rest : (f m.value).Within n) :
    (m >>= f).Within n := by
  intro i hi
  rcases List.mem_append.mp hi with h | h
  · exact first i h
  · exact rest i h

theorem within_byte {i : Nat} (h : i < data.length) : (byte data i).Within data.length := by
  intro j hj
  rw [List.mem_singleton.mp hj]
  exact h

theorem within_span {offset count : Nat} (h : offset + count ≤ data.length) :
    (span data offset count).Within data.length := by
  intro i hi
  obtain ⟨j, hj, rfl⟩ := List.mem_map.mp hi
  have hlt := List.mem_range.mp hj
  show offset + j < data.length
  omega

end Reads
