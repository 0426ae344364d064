import Liquity.Lib.Balances
import Mathlib.Algebra.BigOperators.Group.Finset.Piecewise

/-!
# Counting entries

How many entries of a finite table have a property, and how writing one entry changes that.
-/

namespace Lib

variable {α β : Type} [Fintype α] (p : β → Prop) [DecidablePred p] (f : α → β)

/-- The number of entries with a property. -/
def countEntries : Nat := (Finset.univ.filter fun x => p (f x)).card

theorem countEntries_eq_zero (h : ∀ x, ¬ p (f x)) : countEntries p f = 0 := by
  rw [countEntries, Finset.card_eq_zero, Finset.filter_eq_empty_iff]
  exact fun x _ => h x

theorem countEntries_congr {γ : Type} {q : γ → Prop} [DecidablePred q] {f' : α → γ}
    (h : ∀ x, p (f x) ↔ q (f' x)) :
    countEntries p f = countEntries q f' := by
  unfold countEntries
  simp only [h]

variable [DecidableEq α]

/-- Writing one entry replaces its contribution. -/
theorem countEntries_update_add (a : α) (v : β) :
    countEntries p (Function.update f a v) + (if p (f a) then 1 else 0) =
      countEntries p f + if p v then 1 else 0 := by
  unfold countEntries
  rw [Finset.card_filter, Finset.card_filter]
  exact sum_update_add (fun v => if p v then 1 else 0) f a v

/-- Properties that exclude each other are counted apart. -/
theorem countEntries_or {q : β → Prop} [DecidablePred q] (h : ∀ v, p v → ¬ q v) :
    countEntries (fun v => p v ∨ q v) f = countEntries p f + countEntries q f := by
  unfold countEntries
  rw [Finset.filter_or, Finset.card_union_of_disjoint]
  exact Finset.disjoint_filter.mpr fun x _ hx => h (f x) hx

end Lib
