import Mathlib.Algebra.Order.Ring.Nat
import Mathlib.Data.List.Basic
import Mathlib.Data.List.Nodup
import Mathlib.Data.List.Perm.Basic
import Mathlib.Tactic.Common

/-!
# Removing an array entry by moving the last one into its place
-/

namespace Lib

variable {α : Type} {l : List α} {default b : α} {i j : Nat}

/-- Overwrites entry `i` with the last entry and drops the last position. -/
def swapRemove (default : α) (l : List α) (i : Nat) : List α :=
  (l.set i (l.getLastD default)).dropLast

theorem swapRemove_concat (w : List α) (y : α) (hi : i ≤ w.length) :
    swapRemove default (w ++ [y]) i = w.set i y := by
  have hlast : (w ++ [y]).getLastD default = y := by simp [List.getLastD_eq_getLast?]
  rw [swapRemove, hlast]
  rcases Nat.lt_or_eq_of_le hi with hlt | rfl
  · rw [List.set_append_left _ _ hlt, List.dropLast_concat]
  · rw [List.set_append_right _ _ (Nat.le_refl _), List.set_eq_of_length_le (Nat.le_refl _)]
    simp

/-- Only the entry that was at `i` is gone. -/
theorem swapRemove_perm (hb : l[i]? = some b) : (b :: swapRemove default l i).Perm l := by
  obtain ⟨hi, hbi⟩ := List.getElem?_eq_some_iff.mp hb
  obtain ⟨w, y, rfl⟩ := (l.eq_nil_or_concat').resolve_left (by rintro rfl; simp at hi)
  have hi : i ≤ w.length := by simp at hi; omega
  rw [swapRemove_concat w y hi]
  rcases Nat.lt_or_eq_of_le hi with hlt | rfl
  · have hw : w[i] = b := by simpa [List.getElem_append_left hlt] using hbi
    have hsplit : w = w.take i ++ b :: w.drop (i + 1) := by
      rw [← hw, List.getElem_cons_drop, List.take_append_drop]
    rw [List.set_eq_take_append_cons_drop, if_pos hlt]
    refine (List.perm_middle.cons b).trans ((List.Perm.swap y b _).trans ?_)
    refine (List.perm_middle.symm.cons y).trans ?_
    rw [← hsplit]
    exact show ([y] ++ w).Perm (w ++ [y]) from List.perm_append_comm
  · have hy : y = b := by simpa using hbi
    subst hy
    rw [List.set_eq_of_length_le (Nat.le_refl _)]
    exact show ([y] ++ w).Perm (w ++ [y]) from List.perm_append_comm

/-- An entry other than the last one is not in the last position. -/
theorem succ_lt_length_of_ne_last (hb : l[i]? = some b) (hne : b ≠ l.getLastD default) :
    i + 1 < l.length := by
  obtain ⟨hi, hbi⟩ := List.getElem?_eq_some_iff.mp hb
  obtain ⟨w, y, rfl⟩ := (l.eq_nil_or_concat').resolve_left (by rintro rfl; simp at hi)
  have hy : b ≠ y := by simpa [List.getLastD_eq_getLast?] using hne
  simp only [List.length_append, List.length_singleton] at hi ⊢
  refine Nat.lt_of_le_of_ne hi fun hlast => hy ?_
  obtain rfl : i = w.length := by omega
  simpa using hbi.symm

/-- The entries that stay where they were. -/
theorem swapRemove_getElem? (hj : j + 1 < l.length) (hji : j ≠ i) (hi : i < l.length) :
    (swapRemove default l i)[j]? = l[j]? := by
  obtain ⟨w, y, rfl⟩ := (l.eq_nil_or_concat').resolve_left (by rintro rfl; simp at hi)
  have hi : i ≤ w.length := by simp at hi; omega
  have hj : j < w.length := by simpa using hj
  rw [swapRemove_concat w y hi, List.getElem?_set_ne hji.symm, List.getElem?_append_left hj]

/-- The entry that moved. -/
theorem swapRemove_getElem?_self (hi : i + 1 < l.length) :
    (swapRemove default l i)[i]? = some (l.getLastD default) := by
  obtain ⟨w, y, rfl⟩ := (l.eq_nil_or_concat').resolve_left (by rintro rfl; simp at hi)
  have hi : i < w.length := by simpa using hi
  rw [swapRemove_concat w y (Nat.le_of_lt hi), List.getElem?_set_self hi]
  simp [List.getLastD_eq_getLast?]

end Lib
