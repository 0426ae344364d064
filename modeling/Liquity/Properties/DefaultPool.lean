import Liquity.Properties.Accounting

/-!
# The Default Pool covers the pending rewards

Redistributed collateral and debt wait in the Default Pool until their troves are touched, each
shared out by its own accumulator.  The pool covers what is pending as long as a trove only gets a
new stake when both of its snapshots are current.  `hasPendingRewards` looks at the collateral alone,
so a trove can be given a new stake while debt is still pending on the old one.
-/

open Lib

namespace Liquity

open SafeMath TroveManager

variable {d : Deployment} {s : System}

/-! ## The two accumulators -/

namespace TroveManager

variable {t : TroveManager} {b : Address} {snapshotOf : RewardSnapshot → Nat}
  {value error reserve : Nat}

/-- The stakes and snapshots of all troves against one of the accumulators. -/
def rewards (t : TroveManager) (snapshotOf : RewardSnapshot → Nat) (value error reserve : Nat) :
    Accumulator Address where
  stake x := (t.troves x).stake
  snapshot x := snapshotOf (t.rewardSnapshots x)
  value := value
  error := error
  reserve := reserve

/-- One trove gets a new stake, or a new snapshot, or both, and at most its share is paid. -/
theorem rewards_replace {t' : TroveManager} (b : Address) (paid : Nat)
    (h : (t.rewards snapshotOf value error reserve).Solvent DECIMAL_PRECISION)
    (hother : ∀ x, x ≠ b → (t'.troves x).stake = (t.troves x).stake ∧
      t'.rewardSnapshots x = t.rewardSnapshots x)
    (hle : snapshotOf (t'.rewardSnapshots b) ≤ value)
    (howed : (t'.troves b).stake * (value - snapshotOf (t'.rewardSnapshots b)) +
      DECIMAL_PRECISION * paid ≤
        (t.troves b).stake * (value - snapshotOf (t.rewardSnapshots b)))
    (hpaid : paid ≤ reserve) :
    (t'.rewards snapshotOf value error (reserve - paid)).Solvent DECIMAL_PRECISION := by
  refine h.of_ne b paid (fun x hx => ?_) rfl rfl hle howed hpaid rfl
  obtain ⟨htrove, hsnapshot⟩ := hother x hx
  exact ⟨htrove, congrArg snapshotOf hsnapshot⟩

/-- Closing a trove pays out at most its share. -/
theorem rewards_unregister (status : Status) (paid : Nat)
    (h : (t.rewards snapshotOf value error reserve).Solvent DECIMAL_PRECISION)
    (hzero : snapshotOf ⟨0, 0⟩ = 0)
    (howed : DECIMAL_PRECISION * paid ≤
      (t.troves b).stake * (value - snapshotOf (t.rewardSnapshots b)))
    (hpaid : paid ≤ reserve) :
    ((t.unregister b status).rewards snapshotOf value error (reserve - paid)).Solvent
      DECIMAL_PRECISION := by
  have hsnapshot : (t.unregister b status).rewardSnapshots b = ⟨0, 0⟩ := by simp [unregister]
  -- a closed trove has no stake, so it is owed nothing any more
  refine rewards_replace b paid h (fun x hx => ?_) ?_ ?_ hpaid
  · obtain ⟨hkept, -⟩ := sameTrove_unregister (t := t) hx
    exact ⟨hkept.stake, hkept.snapshot⟩
  · rw [hsnapshot, hzero]
    exact Nat.zero_le _
  · rw [unregister_troves_self, Nat.zero_mul, Nat.zero_add]
    exact howed

/-- Applying rewards pays out at most the share and makes the snapshot current. -/
theorem rewards_applied (paid : Nat)
    (h : (t.rewards snapshotOf value error reserve).Solvent DECIMAL_PRECISION)
    (hcurrent : snapshotOf ⟨t.L_ETH, t.L_LUSDDebt⟩ = value)
    (howed : DECIMAL_PRECISION * paid ≤
      (t.troves b).stake * (value - snapshotOf (t.rewardSnapshots b)))
    (hpaid : paid ≤ reserve) :
    ((t.applied b).rewards snapshotOf value error (reserve - paid)).Solvent DECIMAL_PRECISION := by
  have hsnapshot : snapshotOf ((t.applied b).rewardSnapshots b) = value := by
    simpa [applied] using hcurrent
  refine rewards_replace b paid h (fun x hx => ?_) (Nat.le_of_eq hsnapshot) ?_ hpaid
  · rw [(applied_of_ne hx).1, (applied_of_ne hx).2]
    exact ⟨rfl, rfl⟩
  · rw [hsnapshot, Nat.sub_self, Nat.mul_zero, Nat.zero_add]
    exact howed

/-- A new trove starts with a current snapshot. -/
theorem rewards_register {coll debt stake : Nat}
    (h : (t.rewards snapshotOf value error reserve).Solvent DECIMAL_PRECISION)
    (hcurrent : snapshotOf ⟨t.L_ETH, t.L_LUSDDebt⟩ = value) :
    ((t.register b coll debt stake).rewards snapshotOf value error reserve).Solvent
      DECIMAL_PRECISION := by
  have hsnapshot : snapshotOf ((t.register b coll debt stake).rewardSnapshots b) = value := by
    simpa [register] using hcurrent
  refine rewards_replace b 0 h (fun x hx => ?_) (Nat.le_of_eq hsnapshot) ?_ (Nat.zero_le _)
  · simp [register, Function.update_of_ne hx]
  · rw [hsnapshot, Nat.sub_self]
    exact Nat.zero_le _

/-- A stake may change while its snapshot is current. -/
theorem rewards_adjusted {coll debt stake : Nat}
    (h : (t.rewards snapshotOf value error reserve).Solvent DECIMAL_PRECISION)
    (hcurrent : snapshotOf (t.rewardSnapshots b) = value) :
    ((t.adjusted b coll debt stake).rewards snapshotOf value error reserve).Solvent
      DECIMAL_PRECISION := by
  -- nothing is owed at a current snapshot, whatever the stake
  refine rewards_replace b 0 h (fun x hx => ?_) (Nat.le_of_eq hcurrent) ?_ (Nat.zero_le _)
  · simp [adjusted, Function.update_of_ne hx]
  · change _ * (value - snapshotOf (t.rewardSnapshots b)) + _ ≤ _
    rw [hcurrent, Nat.sub_self]
    exact Nat.zero_le _

end TroveManager

/-- A pending reward is at most the rounded share. -/
theorem okOr_pendingReward_le (accumulator snapshot : Nat) (trove : Trove) :
    okOr (pendingReward accumulator snapshot trove) 0 ≤
      trove.stake * (accumulator - snapshot) / DECIMAL_PRECISION := by
  -- a reading that fails counts as zero
  cases hr : pendingReward accumulator snapshot trove with
  | error e => exact Nat.zero_le _
  | ok r =>
    simp only [pendingReward, bind_ok, sub_ok] at hr
    obtain ⟨_, ⟨-, rfl⟩, hr⟩ := hr
    split at hr
    · cases hr
      exact Nat.zero_le _
    · simp only [bind_ok, mul_ok, div_ok] at hr
      obtain ⟨_, ⟨-, rfl⟩, -, rfl⟩ := hr
      exact Nat.le_refl _

namespace Ledger

variable {L L' : Ledger} {label : Label}

/-- The Default Pool covers both accumulators. -/
structure RewardsCovered (L : Ledger) : Prop where
  ETH : (L.tm.rewards RewardSnapshot.ETH L.tm.L_ETH L.tm.lastETHError_Redistribution
    L.defaultETH).Solvent DECIMAL_PRECISION
  LUSDDebt : (L.tm.rewards RewardSnapshot.LUSDDebt L.tm.L_LUSDDebt
    L.tm.lastLUSDDebtError_Redistribution L.defaultDebt).Solvent DECIMAL_PRECISION

theorem pendingETH_owed (t : TroveManager) (b : Address) : DECIMAL_PRECISION * t.pendingETH b ≤
    (t.troves b).stake * (t.L_ETH - (t.rewardSnapshots b).ETH) := Nat.mul_div_le _ _

theorem pendingLUSDDebt_owed (t : TroveManager) (b : Address) :
    DECIMAL_PRECISION * t.pendingLUSDDebt b ≤
      (t.troves b).stake * (t.L_LUSDDebt - (t.rewardSnapshots b).LUSDDebt) := Nat.mul_div_le _ _

/-- A move keeps the Default Pool covering the rewards if the troves it gives new stakes have no
debt pending. -/
theorem Move.rewardsCovered (hm : Move d L label L') (hbooks : L.Consistent d)
    (h : L.RewardsCovered)
    (hrestake : ∀ b coll, label = .restake b coll → (L.tm.troves b).status = .active →
      (L.tm.rewardSnapshots b).ETH = L.tm.L_ETH →
        (L.tm.rewardSnapshots b).LUSDDebt = L.tm.L_LUSDDebt) :
    L'.RewardsCovered := by
  cases hm with
  | openTrove => exact ⟨rewards_register h.ETH rfl, rewards_register h.LUSDDebt rfl⟩
  | @applyRewards b _ _ _ hETH hdebt =>
    exact ⟨rewards_applied _ h.ETH rfl (pendingETH_owed _ _) hETH,
      rewards_applied _ h.LUSDDebt rfl (pendingLUSDDebt_owed _ _) hdebt⟩
  -- settled in collateral; the hypothesis says that it is settled in debt too
  | @adjust b _ _ _ _ _ _ _ _ _ _ hactive hsettled =>
    have hcurrent := Nat.le_antisymm (h.ETH.snapshot_le b) hsettled
    exact ⟨rewards_adjusted h.ETH hcurrent,
      rewards_adjusted h.LUSDDebt (hrestake b _ rfl hactive hcurrent)⟩
  | @redeemPartially b _ _ _ _ _ _ hactive hsettled =>
    have hcurrent := Nat.le_antisymm (h.ETH.snapshot_le b) hsettled
    exact ⟨rewards_adjusted h.ETH hcurrent,
      rewards_adjusted h.LUSDDebt (hrestake b _ rfl hactive hcurrent)⟩
  -- nothing is paid out of the Default Pool
  | closeTrove =>
    exact ⟨rewards_unregister _ 0 h.ETH rfl (Nat.zero_le _) (Nat.zero_le _),
      rewards_unregister _ 0 h.LUSDDebt rfl (Nat.zero_le _) (Nat.zero_le _)⟩
  | redeemFully =>
    exact ⟨rewards_unregister _ 0 h.ETH rfl (Nat.zero_le _) (Nat.zero_le _),
      rewards_unregister _ 0 h.LUSDDebt rfl (Nat.zero_le _) (Nat.zero_le _)⟩
  | @liquidate b _ _ hETH hdebt =>
    exact ⟨rewards_unregister _ _ h.ETH rfl (pendingETH_owed _ _) hETH,
      rewards_unregister _ _ h.LUSDDebt rfl (pendingLUSDDebt_owed _ _) hdebt⟩
  -- the pool receives what the accumulator hands out, errors included
  | redistribute _ _ _ hETH hdebt =>
    rw [hbooks.registered.totalStakes_eq] at hETH hdebt
    exact ⟨h.ETH.distribute hETH, h.LUSDDebt.distribute hdebt⟩
  | _ => exact ⟨h.ETH, h.LUSDDebt⟩

end Ledger

/-! ## New stakes -/

/-- The open troves that a transaction gives a new stake have debt pending only together with
collateral. -/
def RestakesSettled (s : System) (t : Transaction) : Prop :=
  ∀ b coll, t.Restakes s b coll → (s.troveManager.troves b).status = .active →
    (s.troveManager.rewardSnapshots b).ETH = s.troveManager.L_ETH →
      (s.troveManager.rewardSnapshots b).LUSDDebt = s.troveManager.L_LUSDDebt

/-- The calls that give no open trove a new stake. -/
def Call.keepsStakes : Call → Bool
  | .redeemCollateral .. | .withdrawETHGainToTrove .. => false
  | call => call.collWithdrawal.isNone

theorem Call.keepsStakes.restakesSettled {t : Transaction} (h : t.call.keepsStakes = true) :
    RestakesSettled s t := by
  intro b coll hrestakes
  obtain ⟨env, call⟩ := t
  cases call <;> simp [Call.keepsStakes, Call.collWithdrawal, Transaction.Restakes] at h hrestakes

/-- At every move that gives a trove a new stake, its debt is settled if its collateral is. -/
theorem RestakesSettled.restake {t : Transaction} (h : RestakesSettled s t) {L : Ledger} {label : Label}
    (hallow : Permitted d s t L label) (b : Address) (coll : Nat) (hlabel : label = .restake b coll)
    (hactive : (L.tm.troves b).status = .active) (hETH : (L.tm.rewardSnapshots b).ETH = L.tm.L_ETH) :
    (L.tm.rewardSnapshots b).LUSDDebt = L.tm.L_LUSDDebt := by
  subst hlabel
  obtain ⟨hrestakes, hactive₀, hkept⟩ := hallow
  rcases hkept.snapshot hactive with hsame | hcurrent
  · -- untouched so far in this transaction, so the condition on its first state applies
    rw [hsame, hkept.L_ETH] at hETH
    rw [hsame, hkept.L_LUSDDebt]
    exact h b coll hrestakes hactive₀ hETH
  · rw [hcurrent, hkept.L_LUSDDebt]

theorem initial_rewardsCovered (h : IsInitial d s) : (s.ledger .none).RewardsCovered := by
  obtain ⟨ether, timestamp, -, rfl⟩ := h
  constructor <;> constructor <;> simp [System.ledger, System.initial, books, rewards, Accumulator.owed]

theorem reachable_rewardsCovered (hd : d.Wired) (h : ReachableWhen d RestakesSettled s) :
    (s.ledger .none).RewardsCovered := by
  refine ReachableWhen.ledger_invariant hd Ledger.RewardsCovered
    (fun _ => initial_rewardsCovered) ?_ h
  intro s t L label L' hcond _ hbooks hL hallow hm
  exact hm.rewardsCovered hbooks hL (RestakesSettled.restake hcond hallow)

/-! ## Pending rewards -/

/-- The pending rewards of all active troves are covered, so that they can be moved to the Active Pool
in any order. -/
theorem reachable_pending_covered (hd : d.Wired) (h : ReachableWhen d RestakesSettled s) :
    ∑ b ∈ s.troveManager.activeTroves, okOr (s.troveManager.getPendingETHReward b) 0 ≤
        s.defaultPool.ETH ∧
      ∑ b ∈ s.troveManager.activeTroves, okOr (s.troveManager.getPendingLUSDDebtReward b) 0 ≤
        s.defaultPool.LUSDDebt ∧
      ∀ troves : List Address, troves.Nodup →
        (∃ ETH, troves.foldlM (fun ETH b =>
          sub ETH (okOr (s.troveManager.getPendingETHReward b) 0)) s.defaultPool.ETH = .ok ETH) ∧
        ∃ LUSDDebt, troves.foldlM (fun LUSDDebt b =>
          sub LUSDDebt (okOr (s.troveManager.getPendingLUSDDebtReward b) 0)) s.defaultPool.LUSDDebt =
            .ok LUSDDebt := by
  have hL := reachable_rewardsCovered hd h
  have hETH : ∑ b, okOr (s.troveManager.getPendingETHReward b) 0 ≤ s.defaultPool.ETH := by
    refine le_trans (Finset.sum_le_sum fun b _ => ?_) (hL.ETH.sum_share_le (by decide))
    exact okOr_pendingReward_le _ _ _
  have hdebt : ∑ b, okOr (s.troveManager.getPendingLUSDDebtReward b) 0 ≤ s.defaultPool.LUSDDebt := by
    refine le_trans (Finset.sum_le_sum fun b _ => ?_) (hL.LUSDDebt.sum_share_le (by decide))
    exact okOr_pendingReward_le _ _ _
  refine ⟨?_, ?_, fun troves hnodup => ⟨?_, ?_⟩⟩
  · exact (Finset.sum_le_sum_of_subset (Finset.subset_univ _)).trans hETH
  · exact (Finset.sum_le_sum_of_subset (Finset.subset_univ _)).trans hdebt
  · exact ⟨_, foldlM_checkedSub ((sum_map_le_sum hnodup _).trans hETH)⟩
  · exact ⟨_, foldlM_checkedSub ((sum_map_le_sum hnodup _).trans hdebt)⟩

/-- One of two troves is liquidated with an empty Stability Pool. -/
def sampleRedistribution : List Transaction :=
  sampleOpenings ++ [⟨⟨101, 0, 0, 1800 * 10 ^ 18⟩, .liquidate 102⟩]

theorem sampleRedistribution_pending : ∃ s, ReachableWhen sampleDeployment RestakesSettled s ∧
    okOr (s.troveManager.getPendingLUSDDebtReward 101) 0 = 10055 * 10 ^ 17 ∧
    ∑ b ∈ s.troveManager.activeTroves, okOr (s.troveManager.getPendingLUSDDebtReward b) 0 ≤
      s.defaultPool.LUSDDebt := by
  obtain ⟨s, hs, hp⟩ := exists_reachable (fun _ t => t.call.keepsStakes = true) sampleRedistribution
    (fun s => okOr (s.troveManager.getPendingLUSDDebtReward 101) 0 = 10055 * 10 ^ 17)
    (by decide +kernel)
  have hs : ReachableWhen sampleDeployment RestakesSettled s :=
    Lib.Reachable.mono (fun _ _ => Call.keepsStakes.restakesSettled) hs
  exact ⟨s, hs, hp, (reachable_pending_covered sampleDeployment_wired hs).2.1⟩

/-- The Stability Pool absorbs all but 10000 of a debt.  The collateral that is left over is too
little to move its accumulator, so the debt stays pending when the only other trove doubles its
collateral, and with it its stake. -/
theorem pending_not_covered :
    ¬ ∀ (d : Deployment) (s : System), d.Wired → Reachable d s →
      ∑ b ∈ s.troveManager.activeTroves, okOr (s.troveManager.getPendingLUSDDebtReward b) 0 ≤
        s.defaultPool.LUSDDebt := by
  intro hall
  obtain ⟨s, hs, hactive, hp⟩ := exists_reachable (fun _ _ => True)
    (sampleOpenings ++ [⟨⟨101, 0, 0, 2000 * 10 ^ 18⟩, .provideToSP (10055 * 10 ^ 17 - 10000) 0⟩,
      ⟨⟨101, 0, 0, 1800 * 10 ^ 18⟩, .liquidate 102⟩,
      ⟨⟨101, 10 ^ 19, 0, 1800 * 10 ^ 18⟩, .addColl 0 0⟩])
    (fun s => (s.troveManager.troves 101).status = .active ∧
      s.defaultPool.LUSDDebt < okOr (s.troveManager.getPendingLUSDDebtReward 101) 0)
    (by decide +kernel)
  have hone := Finset.single_le_sum
    (f := fun b => okOr (s.troveManager.getPendingLUSDDebtReward b) 0)
    (fun _ _ => Nat.zero_le _) (show 101 ∈ s.troveManager.activeTroves by simpa [activeTroves])
  have hsum := hall sampleDeployment s sampleDeployment_wired hs
  omega

end Liquity
