/-
Leaving out the first few elements that satisfy a predicate.

What is left out depends on how many of them the stream has, and everything here is stated
with that count.
-/

import Mathlib

universe u

namespace List

variable {α : Type u} (p : α → Bool)

def suppress : Nat → List α → List α
  | _, [] => []
  | 0, head :: tail => head :: tail
  | count + 1, head :: tail =>
    if p head then suppress count tail else head :: suppress (count + 1) tail

@[simp] theorem suppress_nil (count : Nat) : suppress p count [] = [] := by
  cases count <;> rfl

@[simp] theorem suppress_zero (items : List α) : suppress p 0 items = items := by
  cases items <;> rfl

variable {p}

theorem suppress_cons_of_pos {head : α} (satisfies : p head = true) (count : Nat)
    (tail : List α) : suppress p (count + 1) (head :: tail) = suppress p count tail :=
  if_pos satisfies

theorem suppress_cons_of_neg {head : α} (fails : p head = false) (count : Nat)
    (tail : List α) : suppress p count (head :: tail) = head :: suppress p count tail := by
  cases count with
  | zero => rw [suppress_zero, suppress_zero]
  | succ count => exact if_neg (by rw [fails]; exact Bool.false_ne_true)

end List
