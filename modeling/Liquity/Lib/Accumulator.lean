import Mathlib.Algebra.BigOperators.Ring.Finset
import Liquity.Lib.Balances

/-!
# Rewards per unit staked

A reserve is shared out in proportion to stakes through one running accumulator: a distribution
raises it by the amount per unit, rounded down, and carries the remainder; a holder's share is the
stake times the growth since the holder's snapshot, rounded down.  The reserve covers all shares as
long as a stake only changes while its snapshot is current.
-/

namespace Lib

/-- One accumulator, the stakes and snapshots it serves, and the reserve behind it. -/
structure Accumulator (α : Type) where
  stake : α → Nat
  snapshot : α → Nat
  value : Nat
  /-- The remainder carried to the next distribution. -/
  error : Nat
  reserve : Nat

namespace Accumulator

variable {α : Type} [Fintype α] {precision : Nat} {a : Accumulator α} {i : α}

/-- A holder's share, scaled by the precision. -/
def owed (a : Accumulator α) (i : α) : Nat := a.stake i * (a.value - a.snapshot i)

/-- The reserve covers all scaled shares and the carried remainder. -/
structure Solvent (precision : Nat) (a : Accumulator α) : Prop where
  snapshot_le : ∀ i, a.snapshot i ≤ a.value
  covered : ∑ i, a.owed i + a.error ≤ precision * a.reserve

/-- The rounded shares of all holders together are covered. -/
theorem Solvent.sum_share_le (h : a.Solvent precision) (hp : 0 < precision) :
    ∑ i, a.owed i / precision ≤ a.reserve := by
  have hdiv : precision * ∑ i, a.owed i / precision ≤ ∑ i, a.owed i := by
    rw [Finset.mul_sum]
    exact Finset.sum_le_sum fun i _ => Nat.mul_div_le _ _
  have hcov := h.covered
  exact Nat.le_of_mul_le_mul_left (by omega) hp

/-- Sharing out `amount`. -/
theorem Solvent.distribute (h : a.Solvent precision) {amount perUnit error' : Nat}
    (hunit : perUnit * ∑ i, a.stake i + error' = amount * precision + a.error) :
    Solvent precision
      { a with value := a.value + perUnit, error := error', reserve := a.reserve + amount } := by
  refine ⟨fun i => (h.snapshot_le i).trans (Nat.le_add_right _ _), ?_⟩
  have howed : ∀ i, a.stake i * (a.value + perUnit - a.snapshot i) =
      a.owed i + a.stake i * perUnit := by
    intro i
    rw [owed, ← Nat.mul_add, Nat.sub_add_comm (h.snapshot_le i)]
  have hcov := h.covered
  simp only [owed, howed, Finset.sum_add_distrib, ← Finset.sum_mul]
  rw [Nat.mul_comm perUnit] at hunit
  rw [Nat.mul_add, Nat.mul_comm precision amount]
  simp only [owed] at hcov
  omega

/-- A larger reserve or a smaller remainder. -/
theorem Solvent.mono (h : a.Solvent precision) {error reserve : Nat} (herror : error ≤ a.error)
    (hreserve : a.reserve ≤ reserve) : Solvent precision { a with error, reserve } := by
  have hcov := h.covered
  have hmul := Nat.mul_le_mul_left precision hreserve
  refine ⟨h.snapshot_le, ?_⟩
  change ∑ i, a.owed i + error ≤ precision * reserve
  omega

/-- Sharing out `amount` without carrying what the division leaves over, which is all of it where
nothing is staked. -/
theorem Solvent.distribute_floor (h : a.Solvent precision) (amount : Nat)
    {total value reserve : Nat}
    (htotal : ∑ i, a.stake i = total) (hvalue : value = a.value + amount * precision / total)
    (hreserve : reserve = a.reserve + amount) : Solvent precision { a with value, reserve } := by
  have hunit : amount * precision / total * ∑ i, a.stake i +
      (amount * precision % total + a.error) = amount * precision + a.error := by
    rw [htotal, ← Nat.add_assoc, Nat.div_add_mod']
  rw [hvalue, hreserve]
  exact (h.distribute hunit).mono (Nat.le_add_left _ _) (Nat.le_refl _)

/-- Replacing a holder's stake and snapshot, while at most the holder's share leaves the reserve. -/
theorem Solvent.replace [DecidableEq α] (h : a.Solvent precision) {stake snapshot paid : Nat}
    (hsnap : snapshot ≤ a.value)
    (howed : stake * (a.value - snapshot) + precision * paid ≤ a.owed i)
    (hpaid : paid ≤ a.reserve) :
    Solvent precision
      { a with
        stake := Function.update a.stake i stake
        snapshot := Function.update a.snapshot i snapshot
        reserve := a.reserve - paid } := by
  constructor
  · intro j
    by_cases hj : j = i
    · subst hj
      simpa using hsnap
    · simpa [Function.update_of_ne hj] using h.snapshot_le j
  · have hsum : ∑ j, owed { a with
          stake := Function.update a.stake i stake
          snapshot := Function.update a.snapshot i snapshot
          reserve := a.reserve - paid } j =
        ∑ j, Function.update a.owed i (stake * (a.value - snapshot)) j := by
      refine Finset.sum_congr rfl fun j _ => ?_
      by_cases hj : j = i
      · subst hj
        simp [owed]
      · simp [owed, Function.update_of_ne hj]
    have hupd : ∑ j, Function.update a.owed i (stake * (a.value - snapshot)) j + a.owed i =
        ∑ j, a.owed j + stake * (a.value - snapshot) := sum_update_add (fun n => n) _ _ _
    have hcov := h.covered
    have hmul : precision * paid ≤ precision * a.reserve := Nat.mul_le_mul_left _ hpaid
    have hres := Nat.mul_sub precision a.reserve paid
    rw [hsum]
    change _ + a.error ≤ precision * (a.reserve - paid)
    omega

/-- `replace`, stated of any accumulator that differs only in one holder and in the reserve. -/
theorem Solvent.of_ne [DecidableEq α] (h : a.Solvent precision) {a' : Accumulator α} (i : α)
    (paid : Nat) (hother : ∀ j, j ≠ i → a'.stake j = a.stake j ∧ a'.snapshot j = a.snapshot j)
    (hvalue : a'.value = a.value) (herror : a'.error = a.error)
    (hsnap : a'.snapshot i ≤ a.value)
    (howed : a'.stake i * (a.value - a'.snapshot i) + precision * paid ≤ a.owed i)
    (hpaid : paid ≤ a.reserve) (hreserve : a'.reserve = a.reserve - paid) :
    a'.Solvent precision := by
  have hreplace := h.replace hsnap howed hpaid
  have hstake : a'.stake = Function.update a.stake i (a'.stake i) :=
    Function.eq_update_iff.mpr ⟨rfl, fun j hj => (hother j hj).1⟩
  have hsnapshot : a'.snapshot = Function.update a.snapshot i (a'.snapshot i) :=
    Function.eq_update_iff.mpr ⟨rfl, fun j hj => (hother j hj).2⟩
  rw [← hstake, ← hsnapshot, ← hvalue, ← herror, ← hreserve] at hreplace
  exact hreplace

/-- A holder is paid the rounded share and starts over, with any stake. -/
theorem Solvent.settle [DecidableEq α] (h : a.Solvent precision) (hp : 0 < precision)
    {a' : Accumulator α} (i : α)
    (hother : ∀ j, j ≠ i → a'.stake j = a.stake j ∧ a'.snapshot j = a.snapshot j)
    (hvalue : a'.value = a.value) (herror : a'.error = a.error)
    (hcurrent : a'.snapshot i = a.value) (hreserve : a'.reserve = a.reserve - a.owed i / precision) :
    a'.Solvent precision := by
  refine h.of_ne i (a.owed i / precision) hother hvalue herror hcurrent.le ?_ ?_ hreserve
  · rw [hcurrent, Nat.sub_self, Nat.mul_zero, Nat.zero_add]
    exact Nat.mul_div_le _ _
  · exact (le_sum (fun j => a.owed j / precision) i).trans (h.sum_share_le hp)

end Accumulator

end Lib
