import Liquity.Ledger

/-!
# The trove registry

The status of a trove, the order of the list and the array of owners agree, array indices point back,
and the total of the stakes is their sum.  Opening and closing troves keeps this, and changes the
sums over all troves by exactly the trove concerned.
-/

open Lib

namespace Liquity

namespace TroveManager

/-- The registry is consistent with the order of the list. -/
structure Registered (t : TroveManager) (order : List Address) : Prop where
  order_nodup : order.Nodup
  mem_order : ∀ b, b ∈ order ↔ (t.troves b).status = .active
  owners_nodup : t.troveOwners.Nodup
  mem_owners : ∀ b, b ∈ t.troveOwners ↔ (t.troves b).status = .active
  index : ∀ b ∈ t.troveOwners, t.troveOwners[(t.troves b).arrayIndex]? = some b
  totalStakes_eq : t.totalStakes = ∑ b, (t.troves b).stake
  inactive : ∀ b, (t.troves b).status ≠ .active →
    (t.troves b).coll = 0 ∧ (t.troves b).debt = 0 ∧ (t.troves b).stake = 0

variable {t : TroveManager} {order u v : List Address} {b : Address} {coll debt stake : Nat}
  {status : Status}

namespace Registered

theorem owners_perm (h : t.Registered order) : t.troveOwners.Perm order :=
  (List.perm_ext_iff_of_nodup h.owners_nodup h.order_nodup).mpr fun b =>
    (h.mem_owners b).trans (h.mem_order b).symm

theorem length_owners (h : t.Registered order) : t.troveOwners.length = order.length :=
  h.owners_perm.length_eq

theorem stake_le (h : t.Registered order) (b : Address) : (t.troves b).stake ≤ t.totalStakes := by
  rw [h.totalStakes_eq]
  exact le_sum (fun b => (t.troves b).stake) b

end Registered

/-! ## Sums over all troves -/

section Sums

variable (g : Trove → Nat)

theorem sum_register :
    ∑ x, g ((t.register b coll debt stake).troves x) + g (t.troves b) =
      ∑ x, g (t.troves x) + g ⟨debt, coll, stake, .active, t.troveOwners.length⟩ :=
  sum_update_add g t.troves b _

theorem sum_adjusted :
    ∑ x, g ((t.adjusted b coll debt stake).troves x) + g (t.troves b) =
      ∑ x, g (t.troves x) + g { t.troves b with coll, debt, stake } :=
  sum_update_add g t.troves b _

theorem sum_applied :
    ∑ x, g ((t.applied b).troves x) + g (t.troves b) =
      ∑ x, g (t.troves x) + g { t.troves b with
        coll := (t.troves b).coll + t.pendingETH b
        debt := (t.troves b).debt + t.pendingLUSDDebt b } :=
  sum_update_add g t.troves b _

/-- The index of the owner that moves does not count. -/
theorem sum_unregister (hg : ∀ trove index, g { trove with arrayIndex := index } = g trove) :
    ∑ x, g ((t.unregister b status).troves x) + g (t.troves b) =
      ∑ x, g (t.troves x) + g ⟨0, 0, 0, status, 0⟩ := by
  have hclose := sum_update_add g t.troves b ⟨0, 0, 0, status, (t.troves b).arrayIndex⟩
  have hzero := hg ⟨0, 0, 0, status, 0⟩ (t.troves b).arrayIndex
  unfold unregister
  simp only at hzero ⊢
  generalize Function.update t.troves b ⟨0, 0, 0, status, (t.troves b).arrayIndex⟩ = closed
    at hclose ⊢
  have hmove := sum_update_add g closed (t.troveOwners.getLastD 0)
    { closed (t.troveOwners.getLastD 0) with arrayIndex := (t.troves b).arrayIndex }
  have hsame := hg (closed (t.troveOwners.getLastD 0)) (t.troves b).arrayIndex
  simp only at hmove hsame
  omega

end Sums

/-! ## The registry under the moves -/

theorem Registered.register (h : t.Registered (u ++ v)) (hb : (t.troves b).status ≠ .active) :
    (t.register b coll debt stake).Registered (u ++ b :: v) := by
  have hnotOrder : b ∉ u ++ v := fun hmem => hb ((h.mem_order b).mp hmem)
  have hnotOwner : b ∉ t.troveOwners := fun hmem => hb ((h.mem_owners b).mp hmem)
  refine ⟨?_, ?_, ?_, ?_, ?_, ?_, ?_⟩
  · rw [List.nodup_middle]
    exact List.nodup_cons.mpr ⟨hnotOrder, h.order_nodup⟩
  · intro x
    by_cases hx : x = b
    · simp [TroveManager.register, hx]
    · have hmem := h.mem_order x
      simp only [List.mem_append, List.mem_cons, TroveManager.register, Function.update_of_ne hx,
        hx, false_or] at hmem ⊢
      exact hmem
  · refine List.nodup_append.mpr ⟨h.owners_nodup, List.nodup_singleton b, ?_⟩
    rintro x hx y hy rfl
    exact hnotOwner (List.mem_singleton.mp hy ▸ hx)
  · intro x
    by_cases hx : x = b
    · simp [TroveManager.register, hx]
    · simpa [TroveManager.register, Function.update_of_ne hx, hx] using h.mem_owners x
  · intro x hx
    by_cases hxb : x = b
    · simp [TroveManager.register, hxb]
    · have hmem : x ∈ t.troveOwners := by simpa [TroveManager.register, hxb] using hx
      have hindex := h.index x hmem
      simp only [TroveManager.register, Function.update_of_ne hxb]
      rw [List.getElem?_append_left (List.getElem?_eq_some_iff.mp hindex).1, hindex]
  · have hsum : ∑ x, ((t.register b coll debt stake).troves x).stake + (t.troves b).stake =
        ∑ x, (t.troves x).stake + stake := sum_register Trove.stake
    have hzero := (h.inactive b hb).2.2
    have htotal := h.totalStakes_eq
    change t.totalStakes + stake = _
    omega
  · intro x hx
    by_cases hxb : x = b
    · simp [TroveManager.register, hxb] at hx
    · simp only [TroveManager.register, Function.update_of_ne hxb] at hx ⊢
      exact h.inactive x hx

/-- Writing amounts and stake of an active trove, at any place in the order. -/
theorem Registered.adjusted (h : t.Registered order) (hb : (t.troves b).status = .active)
    (huv : order.erase b = u ++ v) :
    (t.adjusted b coll debt stake).Registered (u ++ b :: v) := by
  have hperm : (u ++ b :: v).Perm order := by
    refine List.perm_middle.trans ?_
    rw [← huv]
    exact (List.perm_cons_erase ((h.mem_order b).mpr hb)).symm
  have hstatus : ∀ x, ((t.adjusted b coll debt stake).troves x).status = (t.troves x).status ∧
      ((t.adjusted b coll debt stake).troves x).arrayIndex = (t.troves x).arrayIndex := by
    intro x
    by_cases hx : x = b
    · subst hx
      simp [TroveManager.adjusted]
    · simp [TroveManager.adjusted, Function.update_of_ne hx]
  refine ⟨hperm.nodup_iff.mpr h.order_nodup, fun x => ?_, h.owners_nodup, fun x => ?_,
    fun x hx => ?_, ?_, fun x hx => ?_⟩
  · rw [hperm.mem_iff, h.mem_order, (hstatus x).1]
  · rw [(hstatus x).1]
    exact h.mem_owners x
  · rw [(hstatus x).2]
    exact h.index x hx
  · have hsum : ∑ x, ((t.adjusted b coll debt stake).troves x).stake + (t.troves b).stake =
        ∑ x, (t.troves x).stake + stake := sum_adjusted Trove.stake
    have hle := h.stake_le b
    have htotal := h.totalStakes_eq
    change t.totalStakes - (t.troves b).stake + stake = _
    omega
  · rw [(hstatus x).1] at hx
    have hxb : x ≠ b := by
      rintro rfl
      exact hx hb
    simpa [TroveManager.adjusted, Function.update_of_ne hxb] using h.inactive x hx

theorem Registered.applied (h : t.Registered order) (hb : (t.troves b).status = .active) :
    (t.applied b).Registered order := by
  have hstatus : ∀ x, ((t.applied b).troves x).status = (t.troves x).status ∧
      ((t.applied b).troves x).arrayIndex = (t.troves x).arrayIndex ∧
      ((t.applied b).troves x).stake = (t.troves x).stake := by
    intro x
    by_cases hx : x = b
    · subst hx
      simp [TroveManager.applied]
    · simp [TroveManager.applied, Function.update_of_ne hx]
  refine ⟨h.order_nodup, fun x => ?_, h.owners_nodup, fun x => ?_, fun x hx => ?_, ?_,
    fun x hx => ?_⟩
  · rw [(hstatus x).1]
    exact h.mem_order x
  · rw [(hstatus x).1]
    exact h.mem_owners x
  · rw [(hstatus x).2.1]
    exact h.index x hx
  · rw [Finset.sum_congr rfl fun x _ => (hstatus x).2.2]
    exact h.totalStakes_eq
  · rw [(hstatus x).1] at hx
    have hxb : x ≠ b := by
      rintro rfl
      exact hx hb
    simpa [TroveManager.applied, Function.update_of_ne hxb] using h.inactive x hx

/-- A trove after another one was closed: only its index may change. -/
theorem unregister_troves_of_ne {x : Address} (hx : x ≠ b) :
    (t.unregister b status).troves x =
      if x = t.troveOwners.getLastD 0 then
        { t.troves x with arrayIndex := (t.troves b).arrayIndex }
      else t.troves x := by
  unfold unregister
  simp only
  generalize t.troveOwners.getLastD 0 = moved
  by_cases hlast : x = moved
  · subst hlast
    simp [Function.update_of_ne hx]
  · simp [Function.update_of_ne hx, hlast]

theorem unregister_troves_self :
    (t.unregister b status).troves b = ⟨0, 0, 0, status, (t.troves b).arrayIndex⟩ := by
  unfold unregister
  simp only
  generalize t.troveOwners.getLastD 0 = moved
  by_cases hlast : b = moved
  · simp [← hlast]
  · simp [Function.update_of_ne hlast]

/-- The trove that was closed is not open. -/
theorem ne_of_active_unregister {x : Address} (hstatus : status ≠ .active)
    (hx : ((t.unregister b status).troves x).status = .active) : x ≠ b := by
  rintro rfl
  rw [unregister_troves_self] at hx
  exact hstatus hx

theorem Registered.unregister (h : t.Registered order) (hb : (t.troves b).status = .active)
    (hstatus : status ≠ .active) :
    (t.unregister b status).Registered (order.erase b) := by
  have hindex := h.index b ((h.mem_owners b).mpr hb)
  have hperm : (b :: (t.unregister b status).troveOwners).Perm t.troveOwners :=
    swapRemove_perm hindex
  have hnodup := hperm.nodup_iff.mpr h.owners_nodup
  have hkeep : ∀ x, x ≠ b → ((t.unregister b status).troves x).status = (t.troves x).status ∧
      ((t.unregister b status).troves x).coll = (t.troves x).coll ∧
      ((t.unregister b status).troves x).debt = (t.troves x).debt ∧
      ((t.unregister b status).troves x).stake = (t.troves x).stake := by
    intro x hx
    rw [unregister_troves_of_ne hx]
    split <;> exact ⟨rfl, rfl, rfl, rfl⟩
  refine ⟨h.order_nodup.erase b, fun x => ?_, (List.nodup_cons.mp hnodup).2, fun x => ?_,
    fun x hx => ?_, ?_, fun x hx => ?_⟩
  · by_cases hx : x = b
    · simp [hx, unregister_troves_self, hstatus, h.order_nodup.not_mem_erase]
    · rw [h.order_nodup.mem_erase_iff, (hkeep x hx).1, h.mem_order]
      simp [hx]
  · by_cases hx : x = b
    · simp only [hx, unregister_troves_self, hstatus, iff_false]
      exact (List.nodup_cons.mp hnodup).1
    · rw [(hkeep x hx).1, ← h.mem_owners, ← hperm.mem_iff]
      simp [hx]
  · have hxb : x ≠ b := fun hxb => (List.nodup_cons.mp hnodup).1 (hxb ▸ hx)
    have hmem : x ∈ t.troveOwners := hperm.mem_iff.mp (List.mem_cons_of_mem b hx)
    have hxindex := h.index x hmem
    rw [unregister_troves_of_ne hxb]
    split
    next hlast =>
      have hlt := succ_lt_length_of_ne_last hindex (hlast ▸ hxb.symm)
      exact (swapRemove_getElem?_self hlt).trans (by rw [hlast])
    next hlast =>
      have hne : (t.troves x).arrayIndex ≠ (t.troves b).arrayIndex := by
        intro heq
        rw [heq, hindex] at hxindex
        exact hxb (Option.some.inj hxindex).symm
      have hlt := succ_lt_length_of_ne_last hxindex hlast
      have hib := (List.getElem?_eq_some_iff.mp hindex).1
      exact (swapRemove_getElem? hlt hne hib).trans hxindex
  · have hsum : ∑ x, ((t.unregister b status).troves x).stake + (t.troves b).stake =
        ∑ x, (t.troves x).stake + 0 := sum_unregister Trove.stake fun _ _ => rfl
    have hle := h.stake_le b
    have htotal := h.totalStakes_eq
    change t.totalStakes - (t.troves b).stake = _
    omega
  · by_cases hxb : x = b
    · simp [hxb, unregister_troves_self]
    · obtain ⟨hst, hcoll, hdebt, hstake⟩ := hkeep x hxb
      rw [hst] at hx
      rw [hcoll, hdebt, hstake]
      exact h.inactive x hx

end TroveManager

end Liquity
