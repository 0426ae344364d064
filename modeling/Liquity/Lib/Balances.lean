import Mathlib.Algebra.Order.Ring.Nat
import Mathlib.Algebra.BigOperators.Group.Finset.Basic
import Mathlib.Algebra.Order.BigOperators.Group.Finset
import Mathlib.Tactic.Common

/-!
# Balances of finitely many accounts

How the total over all accounts changes when one account is written, and when an amount moves from
one account to another.
-/

namespace Lib

variable {α β : Type} [DecidableEq α]

/-- Changing one summand replaces its contribution to the total. -/
theorem sum_add_eq_of_ne [Fintype α] {M : Type} [AddCommMonoid M] {f f' : α → M} (a : α)
    (h : ∀ x, x ≠ a → f' x = f x) : ∑ x, f' x + f a = ∑ x, f x + f' a := by
  have hrest : ∑ x ∈ Finset.univ.erase a, f' x = ∑ x ∈ Finset.univ.erase a, f x :=
    Finset.sum_congr rfl fun x hx => h x (Finset.ne_of_mem_erase hx)
  rw [← Finset.add_sum_erase _ f' (Finset.mem_univ a), ← Finset.add_sum_erase _ f (Finset.mem_univ a),
    hrest]
  ac_rfl

/-- Writing one entry replaces its contribution to the total. -/
theorem sum_update_add [Fintype α] (g : β → Nat) (f : α → β) (a : α) (v : β) :
    ∑ x, g (Function.update f a v x) + g (f a) = ∑ x, g (f x) + g v := by
  have h := sum_add_eq_of_ne a (fun x hx => congrArg g (Function.update_of_ne hx v f))
  simpa using h

/-- `amount` moved from `a` to `b`. -/
def move (f : α → Nat) (a b : α) (amount : Nat) : α → Nat :=
  let debited := Function.update f a (f a - amount)
  Function.update debited b (debited b + amount)

variable {f : α → Nat} {a b c : α} {amount : Nat}

theorem sum_move [Fintype α] (h : amount ≤ f a) : ∑ x, move f a b amount x = ∑ x, f x := by
  have hdebit := sum_update_add (fun n => n) f a (f a - amount)
  have hcredit := sum_update_add (fun n => n) (Function.update f a (f a - amount)) b
    (Function.update f a (f a - amount) b + amount)
  unfold move
  omega

theorem le_move (hca : c ≠ a) : f c ≤ move f a b amount c := by
  unfold move
  by_cases hcb : c = b
  · subst hcb
    simp [Function.update_of_ne hca]
  · rw [Function.update_of_ne hcb, Function.update_of_ne hca]

theorem move_of_ne (hca : c ≠ a) (hcb : c ≠ b) : move f a b amount c = f c := by
  simp [move, Function.update_of_ne hca, Function.update_of_ne hcb]

theorem move_source (hab : a ≠ b) : move f a b amount a = f a - amount := by
  simp [move, Function.update_of_ne hab]

theorem move_target (hab : a ≠ b) : move f a b amount b = f b + amount := by
  simp [move, Function.update_of_ne hab.symm]

@[simp]
theorem move_zero (f : α → Nat) (a b : α) : move f a b 0 = f := by
  simp [move]

/-- What leaves the source is at most the amount. -/
theorem le_move_add : f c ≤ move f a b amount c + amount := by
  by_cases hca : c = a
  · subst hca
    by_cases hcb : c = b
    · subst hcb
      simp [move]
      omega
    · rw [move_source hcb]
      omega
  · exact (le_move hca).trans (Nat.le_add_right _ _)

theorem le_sum {α : Type} [Fintype α] (f : α → Nat) (a : α) : f a ≤ ∑ x, f x :=
  Finset.single_le_sum (fun _ _ => Nat.zero_le _) (Finset.mem_univ a)

/-- The total over distinct accounts is part of the total over all. -/
theorem sum_map_le_sum [Fintype α] {l : List α} (hl : l.Nodup) (f : α → Nat) :
    (l.map f).sum ≤ ∑ x, f x := by
  rw [← List.sum_toFinset f hl]
  exact Finset.sum_le_sum_of_subset (Finset.subset_univ _)

end Lib
