import Liquity.Soundness

/-!
# The base rate stays a rate

Only a borrowing fee and the settlement of a redemption write the base rate and its clock; all other
functions leave both alone.  So the base rate never exceeds one, and its clock is never ahead of the
time.
-/

open Lib

namespace Liquity

open SafeMath LiquityMath

variable {d : Deployment} {s s' : System} {caller a b : Address} {amount : Nat}

/-- The base rate, its clock, and the time. -/
@[grind =]
def System.fees (s : System) : Nat × Nat × Nat :=
  (s.troveManager.baseRate, s.troveManager.lastFeeOperationTime, s.timestamp)

/-- The base rate is at most one, and was last updated in the past. -/
structure FeesBounded (s : System) : Prop where
  baseRate : s.troveManager.baseRate ≤ DECIMAL_PRECISION
  time : s.troveManager.lastFeeOperationTime ≤ s.timestamp

theorem FeesBounded.congr (h : FeesBounded s) (hfees : s'.fees = s.fees) : FeesBounded s' := by
  simp only [System.fees, Prod.mk.injEq] at hfees
  obtain ⟨hrate, htime, hnow⟩ := hfees
  constructor
  · rw [hrate]
    exact h.baseRate
  · rw [htime, hnow]
    exact h.time

/-! ## Calls on one contract, and payments -/

namespace System

@[grind →]
theorem onActivePool_fees {f : ActivePool → Tx ActivePool} (h : s.onActivePool f = .ok s') :
    s'.fees = s.fees := by
  obtain ⟨p, -, rfl⟩ := onActivePool_ok.mp h
  rfl

@[grind →]
theorem onDefaultPool_fees {f : DefaultPool → Tx DefaultPool} (h : s.onDefaultPool f = .ok s') :
    s'.fees = s.fees := by
  obtain ⟨p, -, rfl⟩ := onDefaultPool_ok.mp h
  rfl

@[grind →]
theorem onCollSurplusPool_fees {f : CollSurplusPool → Tx CollSurplusPool}
    (h : s.onCollSurplusPool f = .ok s') : s'.fees = s.fees := by
  obtain ⟨p, -, rfl⟩ := onCollSurplusPool_ok.mp h
  rfl

@[grind →]
theorem onSortedTroves_fees {f : SortedTroves → Tx SortedTroves}
    (h : s.onSortedTroves f = .ok s') : s'.fees = s.fees := by
  obtain ⟨l, -, rfl⟩ := onSortedTroves_ok.mp h
  rfl

@[grind →]
theorem onStabilityPool_fees {f : StabilityPool → Tx StabilityPool}
    (h : s.onStabilityPool f = .ok s') : s'.fees = s.fees := by
  obtain ⟨p, -, rfl⟩ := onStabilityPool_ok.mp h
  rfl

@[grind →]
theorem onLUSDToken_fees {f : LUSDToken → Tx LUSDToken} (h : s.onLUSDToken f = .ok s') :
    s'.fees = s.fees := by
  obtain ⟨t, -, rfl⟩ := onLUSDToken_ok.mp h
  rfl

@[grind →]
theorem onLQTYToken_fees {f : LQTYToken → Tx LQTYToken} (h : s.onLQTYToken f = .ok s') :
    s'.fees = s.fees := by
  obtain ⟨t, -, rfl⟩ := onLQTYToken_ok.mp h
  rfl

@[grind →]
theorem onLQTYStaking_fees {f : LQTYStaking → Tx LQTYStaking} (h : s.onLQTYStaking f = .ok s') :
    s'.fees = s.fees := by
  obtain ⟨l, -, rfl⟩ := onLQTYStaking_ok.mp h
  rfl

@[grind →]
theorem callValue_fees (h : s.callValue d a b amount = .ok s') : s'.fees = s.fees := by
  obtain ⟨-, h⟩ := callValue_ok h
  obtain ⟨_, _, _, _, rfl, -, -⟩ := receiveETH_ok h
  rfl

end System

@[grind →]
theorem ActivePool.sendETH_fees (h : ActivePool.sendETH d caller b amount s = .ok s') :
    s'.fees = s.fees := by
  simp only [ActivePool.sendETH, bind_ok, orRevert_ok] at h
  grind

@[grind →]
theorem DefaultPool.sendETHToActivePool_fees
    (h : DefaultPool.sendETHToActivePool d caller amount s = .ok s') : s'.fees = s.fees := by
  simp only [DefaultPool.sendETHToActivePool, bind_ok, orRevert_ok] at h
  grind

@[grind →]
theorem CollSurplusPool.claimColl_fees (h : CollSurplusPool.claimColl d caller b s = .ok s') :
    s'.fees = s.fees := by
  simp only [CollSurplusPool.claimColl, bind_ok, orRevert_ok] at h
  grind

/-! ## Functions of the trove manager -/

namespace TroveManager

variable {t t' : TroveManager}

/-- Functions of the trove's own storage, one by one. -/
theorem onTroveManager_fees {f : TroveManager → Tx TroveManager} (h : s.onTroveManager f = .ok s')
    (hf : ∀ t, f s.troveManager = .ok t → t.baseRate = s.troveManager.baseRate ∧
      t.lastFeeOperationTime = s.troveManager.lastFeeOperationTime) : s'.fees = s.fees := by
  obtain ⟨t, ht, rfl⟩ := System.onTroveManager_ok.mp h
  obtain ⟨hrate, htime⟩ := hf t ht
  simp only [System.fees, hrate, htime]

@[grind →]
theorem movePendingTroveRewardsToActivePool_fees {LUSD ETH : Nat}
    (h : movePendingTroveRewardsToActivePool d LUSD ETH s = .ok s') : s'.fees = s.fees := by
  simp only [movePendingTroveRewardsToActivePool, bind_ok] at h
  grind

@[grind →]
theorem applyPendingRewardsInternal_fees (h : applyPendingRewardsInternal d b s = .ok s') :
    s'.fees = s.fees := by
  unfold applyPendingRewardsInternal at h
  split at h
  · simp only [applyRewards, bind_ok] at h
    obtain ⟨-, -, ETH, -, LUSD, -, coll, -, debt, -, h⟩ := h
    exact (movePendingTroveRewardsToActivePool_fees h).trans rfl
  · grind

@[grind →]
theorem applyPendingRewards_fees (h : applyPendingRewards d caller b s = .ok s') :
    s'.fees = s.fees := by
  obtain ⟨-, -, h⟩ := bind_ok.mp h
  exact applyPendingRewardsInternal_fees h

@[grind →]
theorem removeStakeInternal_fees (h : s.onTroveManager (removeStakeInternal b) = .ok s') :
    s'.fees = s.fees := by
  refine onTroveManager_fees h fun t ht => ?_
  simp only [removeStakeInternal, bind_ok, pure_ok] at ht
  obtain ⟨_, -, rfl⟩ := ht
  exact ⟨rfl, rfl⟩

@[grind →]
theorem closeTroveInternal_fees {status : Status} (h : closeTroveInternal d b status s = .ok s') :
    s'.fees = s.fees := by
  simp only [closeTroveInternal, removeTroveOwner, bind_ok, pure_ok] at h
  obtain ⟨-, -, -, -, t, ⟨-, -, _, -, -, -, -, -, rfl⟩, h⟩ := h
  exact (System.onSortedTroves_fees h).trans rfl

@[grind →]
theorem closeLiquidatedTrove_fees {entire : EntireDebtAndColl}
    (h : closeLiquidatedTrove d b entire s = .ok s') : s'.fees = s.fees := by
  simp only [closeLiquidatedTrove, bind_ok] at h
  grind

@[grind →]
theorem redistributeDebtAndColl_fees {debt coll : Nat}
    (h : redistributeDebtAndColl d debt coll s = .ok s') : s'.fees = s.fees := by
  unfold redistributeDebtAndColl at h
  split at h
  · grind
  · simp only [bind_ok] at h
    obtain ⟨_, -, _, -, _, -, _, -, s₁, h₁, s₂, h₂, h⟩ := h
    have hwritten := System.onActivePool_fees h₁
    grind

@[grind →]
theorem updateSystemSnapshots_fees {collRemainder : Nat}
    (h : updateSystemSnapshots_excludeCollRemainder collRemainder s = .ok s') : s'.fees = s.fees := by
  simp only [updateSystemSnapshots_excludeCollRemainder, bind_ok, pure_ok] at h
  obtain ⟨_, -, _, -, rfl⟩ := h
  rfl

/-! ### Liquidations -/

@[grind →]
theorem liquidateNormalMode_fees {LUSDInStabPool : Nat} {r : LiquidationValues × System}
    (h : liquidateNormalMode d b LUSDInStabPool s = .ok r) : r.2.fees = s.fees := by
  simp only [liquidateNormalMode, bind_ok, pure_ok] at h
  grind

@[grind →]
theorem liquidateRecoveryMode_fees {ICR LUSDInStabPool TCR price : Nat}
    {r : LiquidationValues × System}
    (h : liquidateRecoveryMode d b ICR LUSDInStabPool TCR price s = .ok r) : r.2.fees = s.fees := by
  simp only [liquidateRecoveryMode, accountSurplus] at h
  split at h
  · cases h
    rfl
  · simp only [bind_ok] at h
    obtain ⟨entire, -, _, -, h⟩ := h
    repeat' split at h
    all_goals
      simp only [bind_ok, pure_ok] at h
      grind

theorem loopStep_fees {price : Nat} {recovery : Bool} {l l' : LoopState}
    (h : LoopStep d price recovery l l') : l'.system.fees = l.system.fees := by
  cases h with
  | normal _ _ _ hbody =>
    simp only [liquidateInNormalMode, bind_ok, pure_ok] at hbody
    grind
  | recovery _ _ _ _ hbody =>
    simp only [liquidateInRecoveryMode, bind_ok, pure_ok] at hbody
    grind

theorem loop_fees {price : Nat} {recovery : Bool} {l l' : LoopState}
    (h : Relation.ReflTransGen (LoopStep d price recovery) l l') :
    l'.system.fees = l.system.fees := by
  induction h with
  | refl => rfl
  | tail _ hstep ih => exact (loopStep_fees hstep).trans ih

end TroveManager

@[grind →]
theorem StabilityPool.triggerLQTYIssuance_fees {timestamp : Nat}
    (h : triggerLQTYIssuance d timestamp s = .ok s') : s'.fees = s.fees := by
  simp only [triggerLQTYIssuance, bind_ok] at h
  grind

@[grind →]
theorem StabilityPool.offset_fees {debtToOffset collToAdd timestamp : Nat}
    (h : offset d caller debtToOffset collToAdd timestamp s = .ok s') : s'.fees = s.fees := by
  simp only [offset, bind_ok] at h
  obtain ⟨-, -, h⟩ := h
  split at h
  · cases h
    rfl
  · simp only [moveOffsetCollAndDebt, bind_ok] at h
    grind

namespace TroveManager

variable {t t' : TroveManager}

@[grind →]
theorem sendGasCompensation_fees {LUSD ETH : Nat}
    (h : sendGasCompensation d b LUSD ETH s = .ok s') : s'.fees = s.fees := by
  obtain ⟨s₁, h₁, h⟩ := bind_ok.mp h
  have hLUSD : s₁.fees = s.fees := by
    unfold sendLUSDGasCompensation at h₁
    split at h₁ <;> grind
  split at h
  · exact (ActivePool.sendETH_fees h).trans hLUSD
  · cases h
    exact hLUSD

@[grind →]
theorem settleLiquidation_fees {env : Env} {totals : LiquidationTotals}
    (h : settleLiquidation d env totals s = .ok s') : s'.fees = s.fees := by
  simp only [settleLiquidation, sendCollSurplus, bind_ok] at h
  grind

/-! ### Redemptions -/

@[grind →]
theorem redeemFully_fees {newColl : Nat} (h : redeemFully d b newColl s = .ok s') :
    s'.fees = s.fees := by
  simp only [redeemFully, redeemCloseTrove, bind_ok] at h
  grind

@[grind →]
theorem redeemPartially_fees {newDebt newColl NICR : Nat} {hints : RedemptionHints}
    (h : redeemPartially d b newDebt newColl NICR hints s = .ok s') : s'.fees = s.fees := by
  obtain ⟨stake, l, -, -, rfl⟩ := redeemPartially_ok h
  rfl

@[grind →]
theorem redeemCollateralFromTrove_fees {maxLUSDamount price : Nat} {hints : RedemptionHints}
    {r : SingleRedemptionValues × System}
    (h : redeemCollateralFromTrove d b maxLUSDamount price hints s = .ok r) :
    r.2.fees = s.fees := by
  obtain ⟨_, _, -, -, -, -, -, -, ⟨-, -, h⟩ | ⟨_, -, -, ⟨-, h, -⟩ | ⟨-, -, -, h⟩⟩⟩ :=
    redeemCollateralFromTrove_ok h
  · exact redeemFully_fees h
  · rw [h]
  · exact redeemPartially_fees h

theorem redemptionLoop_fees {price rounds maxIterations : Nat} {hints : RedemptionHints}
    {currentBorrower : Address} {r r' : RedemptionState}
    (h : redemptionLoop d price hints rounds currentBorrower maxIterations r = .ok r') :
    r'.system.fees = r.system.fees := by
  induction rounds generalizing currentBorrower maxIterations r with
  | zero => cases h
  | succ rounds ih =>
    unfold redemptionLoop at h
    split at h
    · simp only [bind_ok] at h
      obtain ⟨s₁, h₁, single, h₂, h⟩ := h
      have hround := (redeemCollateralFromTrove_fees h₂).trans (applyPendingRewardsInternal_fees h₁)
      split at h
      · cases h
        exact hround
      · simp only [bind_ok] at h
        obtain ⟨_, -, _, -, _, -, h⟩ := h
        exact (ih h).trans hround
    · cases h
      rfl

/-! ### The two writers -/

theorem updateLastFeeOpTime_bounded {timestamp : Nat} (h : updateLastFeeOpTime timestamp t = .ok t')
    (hrate : t.baseRate ≤ DECIMAL_PRECISION) :
    t'.baseRate ≤ DECIMAL_PRECISION ∧ t'.lastFeeOperationTime ≤ timestamp := by
  simp only [updateLastFeeOpTime, bind_ok, pure_ok, sub_ok] at h
  obtain ⟨_, ⟨hle, rfl⟩, rfl⟩ := h
  split
  · exact ⟨hrate, Nat.le_refl _⟩
  · exact ⟨hrate, hle⟩

/-- The decayed rate is at most one by an assertion. -/
theorem decayBaseRateFromBorrowing_bounded {timestamp : Nat}
    (h : t.decayBaseRateFromBorrowing d caller timestamp = .ok t') :
    t'.baseRate ≤ DECIMAL_PRECISION ∧ t'.lastFeeOperationTime ≤ timestamp := by
  simp only [decayBaseRateFromBorrowing, bind_ok, assertThat_ok] at h
  obtain ⟨-, -, decayed, -, -, hle, h⟩ := h
  exact updateLastFeeOpTime_bounded h hle

/-- The rate after a redemption is at most one by a minimum. -/
theorem updateBaseRateFromRedemption_bounded {ETHDrawn price supply timestamp : Nat}
    (h : t.updateBaseRateFromRedemption ETHDrawn price supply timestamp = .ok t') :
    t'.baseRate ≤ DECIMAL_PRECISION ∧ t'.lastFeeOperationTime ≤ timestamp := by
  simp only [updateBaseRateFromRedemption, bind_ok, min_eq] at h
  obtain ⟨_, -, _, -, _, -, _, -, _, -, -, -, h⟩ := h
  exact updateLastFeeOpTime_bounded h (Nat.min_le_right _ _)

end TroveManager

/-! ## Borrower operations -/

namespace BorrowerOperations

@[grind →]
theorem activePoolAddColl_fees (h : activePoolAddColl d amount s = .ok s') : s'.fees = s.fees :=
  System.callValue_fees (orRevert_ok.mp h)

@[grind →]
theorem withdrawLUSDInternal_fees {net : Nat} (h : withdrawLUSDInternal d b amount net s = .ok s') :
    s'.fees = s.fees := by
  simp only [withdrawLUSDInternal, bind_ok] at h
  grind

@[grind →]
theorem repayLUSDInternal_fees (h : repayLUSDInternal d b amount s = .ok s') : s'.fees = s.fees := by
  simp only [repayLUSDInternal, bind_ok] at h
  grind

@[grind →]
theorem changeTroveColl_fees {isCollIncrease : Bool}
    (h : changeTroveColl d b amount isCollIncrease s = .ok s') : s'.fees = s.fees := by
  unfold changeTroveColl at h
  split at h
  all_goals
    refine TroveManager.onTroveManager_fees h fun t ht => ?_
    simp only [TroveManager.increaseTroveColl, TroveManager.decreaseTroveColl, bind_ok, pure_ok] at ht
    obtain ⟨-, -, _, -, rfl⟩ := ht
    exact ⟨rfl, rfl⟩

@[grind →]
theorem changeTroveDebt_fees {isDebtIncrease : Bool}
    (h : changeTroveDebt d b amount isDebtIncrease s = .ok s') : s'.fees = s.fees := by
  unfold changeTroveDebt at h
  split at h
  all_goals
    refine TroveManager.onTroveManager_fees h fun t ht => ?_
    simp only [TroveManager.increaseTroveDebt, TroveManager.decreaseTroveDebt, bind_ok, pure_ok] at ht
    obtain ⟨-, -, _, -, rfl⟩ := ht
    exact ⟨rfl, rfl⟩

@[grind →]
theorem updateStakeAndTotalStakes_fees
    (h : s.onTroveManager (TroveManager.updateStakeAndTotalStakes d caller b) = .ok s') :
    s'.fees = s.fees := by
  refine TroveManager.onTroveManager_fees h fun t ht => ?_
  obtain ⟨-, -, ht⟩ := bind_ok.mp ht
  obtain ⟨stake, -, rfl⟩ := updateStakeAndTotalStakesInternal_ok ht
  exact ⟨rfl, rfl⟩

@[grind →]
theorem createTrove_fees {coll debt NICR : Nat} {upper lower : Address}
    (h : createTrove d b coll debt NICR upper lower s = .ok s') : s'.fees = s.fees := by
  simp only [createTrove, bind_ok] at h
  obtain ⟨s₁, h₁, s₂, h₂, s₃, h₃, s₄, h₄, s₅, h₅, s₆, h₆, h⟩ := h
  have hstatus : s₁.fees = s.fees := TroveManager.onTroveManager_fees h₁ fun t ht => by
    simp only [TroveManager.setTroveStatus, bind_ok, pure_ok] at ht
    obtain ⟨-, -, rfl⟩ := ht
    exact ⟨rfl, rfl⟩
  have hcoll : s₂.fees = s₁.fees := @changeTroveColl_fees _ _ _ _ _ true h₂
  have hdebt : s₃.fees = s₂.fees := @changeTroveDebt_fees _ _ _ _ _ true h₃
  have hsnapshot : s₄.fees = s₃.fees := TroveManager.onTroveManager_fees h₄ fun t ht => by
    simp only [TroveManager.updateTroveRewardSnapshots, bind_ok, pure_ok] at ht
    obtain ⟨-, -, rfl⟩ := ht
    exact ⟨rfl, rfl⟩
  have howner : s'.fees = s₆.fees := TroveManager.onTroveManager_fees h fun t ht => by
    simp only [TroveManager.addTroveOwnerToArray, TroveManager.addTroveOwnerToArrayInternal, bind_ok,
      pure_ok] at ht
    obtain ⟨-, -, _, -, rfl⟩ := ht
    exact ⟨rfl, rfl⟩
  grind

/-- The fee is charged at the time of the call. -/
theorem triggerBorrowingFee_bounded {LUSDAmount maxFee : Nat} {r : Nat × System}
    (h : triggerBorrowingFee d s.timestamp LUSDAmount maxFee s = .ok r) : FeesBounded r.2 := by
  simp only [triggerBorrowingFee, bind_ok, pure_ok] at h
  obtain ⟨s₁, h₁, fee, -, -, -, s₂, h₂, s₃, h₃, rfl⟩ := h
  obtain ⟨t, ht, rfl⟩ := System.onTroveManager_ok.mp h₁
  obtain ⟨hrate, htime⟩ := TroveManager.decayBaseRateFromBorrowing_bounded ht
  have hcharged : FeesBounded { s with troveManager := t } := ⟨hrate, htime⟩
  exact hcharged.congr ((System.onLUSDToken_fees h₃).trans (System.onLQTYStaking_fees h₂))

theorem openTrove_bounded {env : Env} {maxFee : Nat} {upper lower : Address} (hs : FeesBounded s)
    (htime : s.timestamp = env.timestamp)
    (h : openTrove d env maxFee amount upper lower s = .ok s') : FeesBounded s' := by
  simp only [openTrove, bind_ok] at h
  obtain ⟨recovery, -, -, -, -, -, fee, hfee, _, -, -, -, _, -, -, -, _, -, _, -, -, -, s₁, h₁, s₂, h₂, s₃,
    h₃, h⟩ := h
  have hcharged : FeesBounded fee.2 := by
    unfold openTroveFee at hfee
    split at hfee
    · rw [← htime] at hfee
      exact triggerBorrowingFee_bounded hfee
    · cases hfee
      exact hs
  exact hcharged.congr (by grind)

theorem performAdjustment_fees {a : Adjustment} {vars : AdjustmentVars}
    (h : performAdjustment d b a vars s = .ok s') : s'.fees = s.fees := by
  simp only [performAdjustment, updateTroveFromAdjustment, moveTokensAndETHfromAdjustment,
    moveTokensFromAdjustment, moveETHFromAdjustment, bind_ok] at h
  grind

theorem adjustTroveInternal_bounded {env : Env} {a : Adjustment} (hs : FeesBounded s)
    (htime : s.timestamp = env.timestamp) (h : adjustTroveInternal d env a s = .ok s') :
    FeesBounded s' := by
  simp only [adjustTroveInternal, bind_ok] at h
  obtain ⟨recovery, -, -, -, s₁, h₁, fee, hfee, vars, -, -, -, -, -, h⟩ := h
  have happlied := TroveManager.applyPendingRewards_fees h₁
  have hcharged : FeesBounded fee.2 := by
    unfold adjustmentFee at hfee
    split at hfee
    · have hnow : s₁.timestamp = env.timestamp := by
        rw [← htime]
        exact congrArg (fun fees : Nat × Nat × Nat => fees.2.2) happlied
      rw [← hnow] at hfee
      exact triggerBorrowingFee_bounded hfee
    · cases hfee
      exact hs.congr happlied
  exact hcharged.congr (performAdjustment_fees h)

theorem closeTrove_fees {env : Env} (h : closeTrove d env s = .ok s') : s'.fees = s.fees := by
  simp only [closeTrove, TroveManager.closeTrove, bind_ok] at h
  obtain ⟨-, -, -, -, s₁, h₁, _, -, -, -, _, -, -, -, s₂, h₂, s₃, ⟨-, -, h₃⟩, s₄, h₄, s₅, h₅, h⟩ := h
  have hstake : s₂.fees = s₁.fees := TroveManager.onTroveManager_fees h₂ fun t ht => by
    simp only [TroveManager.removeStake, TroveManager.removeStakeInternal, bind_ok, pure_ok] at ht
    obtain ⟨-, -, _, -, rfl⟩ := ht
    exact ⟨rfl, rfl⟩
  grind

end BorrowerOperations

/-! ## Depositors and stakers -/

@[grind →]
theorem CommunityIssuance.sendLQTY_fees {timestamp : Nat}
    (h : CommunityIssuance.sendLQTY d caller a amount timestamp s = .ok s') : s'.fees = s.fees := by
  simp only [CommunityIssuance.sendLQTY, bind_ok] at h
  grind

namespace StabilityPool

@[grind →]
theorem payOutLQTYGains_fees {timestamp : Nat} {depositor frontEnd : Address}
    (h : payOutLQTYGains d timestamp depositor frontEnd s = .ok s') : s'.fees = s.fees := by
  simp only [payOutLQTYGains, payOutFrontEndLQTYGain, bind_ok] at h
  obtain ⟨s₁, h₁, gain, -, h⟩ := h
  split at h₁
  · simp only [bind_ok] at h₁
    grind
  · grind

@[grind →]
theorem sendETHGainToDepositor_fees (h : sendETHGainToDepositor d b amount s = .ok s') :
    s'.fees = s.fees := by
  simp only [sendETHGainToDepositor] at h
  split at h
  · grind
  · simp only [bind_ok, orRevert_ok] at h
    grind

theorem provideToSP_fees {env : Env} {tag : Address}
    (h : provideToSP d env amount tag s = .ok s') : s'.fees = s.fees := by
  simp only [provideToSP, sendLUSDtoStabilityPool, bind_ok, pure_ok] at h
  grind

theorem withdrawFromSP_fees {env : Env} (h : withdrawFromSP d env amount s = .ok s') :
    s'.fees = s.fees := by
  simp only [withdrawFromSP, bind_ok] at h
  obtain ⟨-, -, -, -, s₁, h₁, _, -, s₂, h₂, _, -, _, -, s₃, h₃, _, -, h⟩ := h
  obtain ⟨-, -, rfl⟩ := sendLUSDToDepositor_ok h₃
  grind

/-- A gain is moved into a trove without a borrowing fee, but through the same function. -/
theorem withdrawETHGainToTrove_bounded {env : Env} {upper lower : Address} (hs : FeesBounded s)
    (htime : s.timestamp = env.timestamp) (h : withdrawETHGainToTrove d env upper lower s = .ok s') :
    FeesBounded s' := by
  simp only [withdrawETHGainToTrove, BorrowerOperations.moveETHGainToTrove, bind_ok] at h
  obtain ⟨-, -, -, -, -, -, s₁, h₁, reading, -, s₂, h₂, _, -, _, -, -, -, -, -, h⟩ := h
  have hpaid : s₂.fees = s.fees := by grind
  have hnow : s₂.timestamp = env.timestamp := by
    rw [← htime]
    exact congrArg (fun fees : Nat × Nat × Nat => fees.2.2) hpaid
  refine BorrowerOperations.adjustTroveInternal_bounded ?_ ?_ h
  · exact (hs.congr hpaid).congr rfl
  · exact hnow

theorem registerFrontEnd_fees {env : Env} {kickbackRate : Nat}
    (h : registerFrontEnd env kickbackRate s = .ok s') : s'.fees = s.fees := by
  simp only [registerFrontEnd, bind_ok, pure_ok] at h
  obtain ⟨-, -, -, -, -, -, rfl⟩ := h
  rfl

end StabilityPool

namespace LQTYStaking

@[grind →]
theorem sendGains_fees {ETHGain LUSDGain : Nat} (h : sendGains d b ETHGain LUSDGain s = .ok s') :
    s'.fees = s.fees := by
  simp only [sendGains, sendETHGainToUser, bind_ok, orRevert_ok] at h
  grind

theorem stake_fees {env : Env} (h : stake d env amount s = .ok s') : s'.fees = s.fees := by
  simp only [stake, bind_ok] at h
  obtain ⟨-, -, gains, -, _, -, _, -, s₁, h₁, h⟩ := h
  have hsent := System.onLQTYToken_fees h₁
  split at h
  · grind
  · cases h
    grind

theorem unstake_fees {env : Env} (h : unstake d env amount s = .ok s') : s'.fees = s.fees := by
  simp only [unstake, withdrawStake, bind_ok] at h
  obtain ⟨-, -, _, -, _, -, s₁, h₁, h⟩ := h
  split at h₁
  · simp only [bind_ok] at h₁
    grind
  · grind

end LQTYStaking

/-! ## Transactions -/

theorem TroveManager.redeemCollateral_bounded {env : Env} {maxIterations maxFee : Nat}
    {hints : RedemptionHints} (htime : s.timestamp = env.timestamp)
    (h : redeemCollateral d env amount hints maxIterations maxFee s = .ok s') : FeesBounded s' := by
  simp only [redeemCollateral, settleRedemption, bind_ok] at h
  obtain ⟨-, -, -, -, -, -, -, -, -, -, _, -, -, -, _, -, r, hr, -, -, s₁, h₁, fee, -, -, -, s₂, h₂, s₃, h₃,
    _, -, s₄, h₄, s₅, h₅, h₆⟩ := h
  have hloop := redemptionLoop_fees hr
  obtain ⟨t, ht, rfl⟩ := System.onTroveManager_ok.mp h₁
  obtain ⟨hrate, hpast⟩ := updateBaseRateFromRedemption_bounded ht
  have hnow : r.system.timestamp = env.timestamp := by
    rw [← htime]
    exact congrArg (fun fees : Nat × Nat × Nat => fees.2.2) hloop
  have hupdated : FeesBounded { r.system with troveManager := t } := ⟨hrate, hnow ▸ hpast⟩
  exact hupdated.congr (by grind)

/-- A liquidation tallies and then settles. -/
theorem TroveManager.liquidation_fees {env : Env} {price : Nat} {l : LoopState}
    (hl : ∃ recovery l₀, LoopStart price s recovery l₀ ∧
      Relation.ReflTransGen (LoopStep d price recovery) l₀ l)
    (h : settleLiquidation d env l.totals l.system = .ok s') : s'.fees = s.fees := by
  obtain ⟨recovery, l₀, hstart, hsteps⟩ := hl
  have hloop := loop_fees hsteps
  rw [hstart.fresh.2] at hloop
  exact (settleLiquidation_fees h).trans hloop

theorem Call.body_bounded {env : Env} {call : Call} (hs : FeesBounded s)
    (htime : s.timestamp = env.timestamp) (h : call.body d env s = .ok s') : FeesBounded s' := by
  cases call with
  | openTrove => exact BorrowerOperations.openTrove_bounded hs htime h
  | addColl | withdrawColl | withdrawLUSD | repayLUSD | adjustTrove =>
    exact BorrowerOperations.adjustTroveInternal_bounded hs htime h
  | closeTrove => exact hs.congr (BorrowerOperations.closeTrove_fees h)
  | claimCollateral => exact hs.congr (CollSurplusPool.claimColl_fees h)
  | redeemCollateral => exact TroveManager.redeemCollateral_bounded htime h
  | provideToSP => exact hs.congr (StabilityPool.provideToSP_fees h)
  | withdrawFromSP => exact hs.congr (StabilityPool.withdrawFromSP_fees h)
  | withdrawETHGainToTrove => exact StabilityPool.withdrawETHGainToTrove_bounded hs htime h
  | registerFrontEnd => exact hs.congr (StabilityPool.registerFrontEnd_fees h)
  | stake => exact hs.congr (LQTYStaking.stake_fees h)
  | unstake => exact hs.congr (LQTYStaking.unstake_fees h)
  | transferLUSD | approveLUSD | transferLUSDFrom => exact hs.congr (System.onLUSDToken_fees h)
  | transferLQTY | approveLQTY | transferLQTYFrom => exact hs.congr (System.onLQTYToken_fees h)
  | liquidate =>
    simp only [Call.body, TroveManager.liquidate, TroveManager.batchLiquidateTroves, bind_ok] at h
    obtain ⟨-, -, -, -, l, hl, h⟩ := h
    exact hs.congr (TroveManager.liquidation_fees (batchLiquidateTrovesTotals_steps hl) h)
  | liquidateTroves =>
    obtain ⟨l, hl, h⟩ := bind_ok.mp h
    exact hs.congr (TroveManager.liquidation_fees (liquidateTrovesTotals_steps hl) h)
  | batchLiquidateTroves =>
    simp only [Call.body, TroveManager.batchLiquidateTroves, bind_ok] at h
    obtain ⟨-, -, l, hl, h⟩ := h
    exact hs.congr (TroveManager.liquidation_fees (batchLiquidateTrovesTotals_steps hl) h)

/-- In every reachable state the base rate is at most one and its clock in the past. -/
theorem Reachable.feesBounded (hd : d.Wired) (h : Reachable d s) : FeesBounded s := by
  refine Lib.Reachable.invariant FeesBounded ?_ ?_ h
  · rintro _ ⟨ether, timestamp, -, rfl⟩
    exact ⟨Nat.zero_le _, Nat.zero_le _⟩
  · intro s t s' _ hs _ hstep
    obtain ⟨ether, hbody, -⟩ := hstep.body hd
    have hstart : FeesBounded { s with timestamp := t.env.timestamp, ether } :=
      ⟨hs.baseRate, hs.time.trans hstep.1.time⟩
    exact Call.body_bounded hstart rfl hbody

end Liquity
