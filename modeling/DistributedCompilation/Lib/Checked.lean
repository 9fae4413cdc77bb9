import Mathlib

/-!
# Checked 64-bit arithmetic

A signed computation whose value leaves the 64-bit range has no value, nor has
a division by zero. A program written with these operations has a result
exactly when none of its steps goes wrong.
-/

namespace Checked

/-- The values a signed 64-bit integer takes. -/
def Fits (n : Int) : Prop := -2 ^ 63 ≤ n ∧ n < 2 ^ 63

instance (n : Int) : Decidable (Fits n) := inferInstanceAs (Decidable (_ ∧ _))

/-- The result of a signed operation. -/
def int64 (n : Int) : Option Int := if Fits n then some n else none

def neg (a : Int) : Option Int := int64 (-a)

def add (a b : Int) : Option Int := int64 (a + b)

def mul (a b : Int) : Option Int := int64 (a * b)

/-- An unsigned division. -/
def div (a b : Nat) : Option Nat := if b = 0 then none else some (a / b)

/-- A sum taken from the left. -/
def sum (xs : List Int) : Option Int := xs.foldlM add 0

/-- A computation whose first step has a result goes on with it. -/
theorem bind_eq {α β : Type} {x : Option α} {a : α} {f : α → Option β} (h : x = some a) : x.bind f = f a := by
  rw [h]
  rfl

theorem int64_eq {n : Int} (h : Fits n) : int64 n = some n := by
  unfold int64
  exact if_pos h

theorem neg_eq {a : Int} (h : Fits (-a)) : neg a = some (-a) := int64_eq h

theorem mul_eq {a b : Int} (h : Fits (a * b)) : mul a b = some (a * b) := int64_eq h

theorem div_eq {a b : Nat} (h : b ≠ 0) : div a b = some (a / b) := by
  unfold div
  exact if_neg h

/-- No partial sum leaves the range when the terms are small. -/
theorem foldlM_add_eq {xs : List Int} {bound : Nat} (small : ∀ x ∈ xs, x.natAbs ≤ bound) (start : Int)
    (room : start.natAbs + xs.length * bound < 2 ^ 63) : xs.foldlM add start = some (start + xs.sum) := by
  induction xs generalizing start with
  | nil => simp
  | cons x xs ih =>
    have hx : x.natAbs ≤ bound := small x (List.mem_cons_self ..)
    have hlen : (x :: xs).length * bound = xs.length * bound + bound := by
      rw [List.length_cons]
      exact Nat.succ_mul _ _
    have hstep : add start x = some (start + x) := by
      refine int64_eq ?_
      unfold Fits
      omega
    rw [List.foldlM_cons, hstep]
    show xs.foldlM add (start + x) = _
    rw [ih (fun y hy => small y (List.mem_cons_of_mem _ hy)) (start + x) (by omega), List.sum_cons,
      Int.add_assoc]

theorem sum_eq {xs : List Int} {bound : Nat} (small : ∀ x ∈ xs, x.natAbs ≤ bound)
    (room : xs.length * bound < 2 ^ 63) : sum xs = some xs.sum := by
  unfold sum
  rw [foldlM_add_eq small 0 (by simpa using room), Int.zero_add]

end Checked
