import Liquity.BorrowerOperations

/-!
# Where the requirements of `BorrowerOperations` are made

A call fails at a requirement on ratios, debts, repayments or the number of troves only where
`BorrowerOperations` or `closeTrove` itself checks it: everything that they call fails, if at all, for
another reason.
-/

open Lib

namespace Liquity

open SafeMath LiquityMath LiquityBase

/-- The requirements on collateral ratios, the system's ratio and mode, the minimum net debt, the
amount repaid, the LUSD balance and the number of troves. -/
def borrowerRequirements : List String :=
  ["BorrowerOps: Operation not permitted during Recovery Mode",
    "BorrowerOps: Collateral withdrawal not permitted Recovery Mode",
    "BorrowerOps: An operation that would result in ICR < MCR is not permitted",
    "BorrowerOps: Operation must leave trove with ICR >= CCR",
    "BorrowerOps: Cannot decrease your Trove's ICR in Recovery Mode",
    "BorrowerOps: An operation that would result in TCR < CCR is not permitted",
    "BorrowerOps: Trove's net debt must be greater than minimum",
    "BorrowerOps: Amount repaid must not be larger than the Trove's debt",
    "BorrowerOps: Caller doesnt have enough LUSD to make repayment",
    "TroveManager: Only one trove in the system"]

def IsRequirement (e : Revert) : Prop := e ∈ borrowerRequirements.map Revert.reason

instance (e : Revert) : Decidable (IsRequirement e) := inferInstanceAs (Decidable (_ ∈ _))

/-- No requirement of `BorrowerOperations` is what the call fails at. -/
abbrev MeetsRequirements {α : Type} (x : Tx α) : Prop := Avoids IsRequirement x

@[simp]
theorem isRequirement_reason (message : String) :
    IsRequirement (.reason message) ↔ message ∈ borrowerRequirements := by
  simp [IsRequirement]

@[simp]
theorem not_isRequirement_assertion : ¬ IsRequirement .assertion := by simp [IsRequirement]

@[simp]
theorem not_isRequirement_outOfGas : ¬ IsRequirement .outOfGas := by simp [IsRequirement]

/-! ## Arithmetic -/

section Arithmetic

variable (a b : Nat)

@[simp]
theorem SafeMath.add_meets : MeetsRequirements (add a b) := by simp [add, borrowerRequirements]
@[simp]
theorem SafeMath.sub_meets : MeetsRequirements (sub a b) := by simp [sub, borrowerRequirements]
@[simp]
theorem SafeMath.mul_meets : MeetsRequirements (mul a b) := by simp [mul, borrowerRequirements]
@[simp]
theorem SafeMath.div_meets : MeetsRequirements (div a b) := by simp [div, borrowerRequirements]

@[simp]
theorem LiquityMath.decMul_meets : MeetsRequirements (decMul a b) := by simp [decMul]

@[simp]
theorem LiquityMath.decPowLoop_meets (rounds x y n : Nat) :
    MeetsRequirements (decPowLoop rounds x y n) := by
  induction rounds generalizing x y n with
  | zero => simp [decPowLoop]
  | succ rounds ih => simp [decPowLoop, ih]

@[simp]
theorem LiquityMath.decPow_meets : MeetsRequirements (decPow a b) := by simp [decPow]

@[simp]
theorem LiquityMath.computeCR_meets (price : Nat) : MeetsRequirements (computeCR a b price) := by
  simp [computeCR]

@[simp]
theorem LiquityMath.computeNominalCR_meets : MeetsRequirements (computeNominalCR a b) := by
  simp [computeNominalCR]

@[simp]
theorem LiquityBase.requireUserAcceptsFee_meets (maxFee : Nat) :
    MeetsRequirements (requireUserAcceptsFee a b maxFee) := by
  simp [requireUserAcceptsFee, borrowerRequirements]

end Arithmetic

/-! ## Lifted calls -/

namespace System

variable {s : System}

@[simp]
theorem onActivePool_meets {f : ActivePool → Tx ActivePool} :
    MeetsRequirements (s.onActivePool f) ↔ MeetsRequirements (f s.activePool) := by
  simp [onActivePool]

@[simp]
theorem onDefaultPool_meets {f : DefaultPool → Tx DefaultPool} :
    MeetsRequirements (s.onDefaultPool f) ↔ MeetsRequirements (f s.defaultPool) := by
  simp [onDefaultPool]

@[simp]
theorem onSortedTroves_meets {f : SortedTroves → Tx SortedTroves} :
    MeetsRequirements (s.onSortedTroves f) ↔ MeetsRequirements (f s.sortedTroves) := by
  simp [onSortedTroves]

@[simp]
theorem onTroveManager_meets {f : TroveManager → Tx TroveManager} :
    MeetsRequirements (s.onTroveManager f) ↔ MeetsRequirements (f s.troveManager) := by
  simp [onTroveManager]

@[simp]
theorem onLUSDToken_meets {f : LUSDToken → Tx LUSDToken} :
    MeetsRequirements (s.onLUSDToken f) ↔ MeetsRequirements (f s.lusdToken) := by
  simp [onLUSDToken]

@[simp]
theorem onLQTYStaking_meets {f : LQTYStaking → Tx LQTYStaking} :
    MeetsRequirements (s.onLQTYStaking f) ↔ MeetsRequirements (f s.lqtyStaking) := by
  simp [onLQTYStaking]

@[simp]
theorem checkRecoveryMode_meets (price : Nat) : MeetsRequirements (s.checkRecoveryMode price) := by
  simp [checkRecoveryMode, getTCR, getEntireSystemColl, getEntireSystemDebt]

end System

/-! ## Pools and tokens -/

section Pools

variable (d : Deployment) (caller account : Address) (amount : Nat) (s : System)

@[simp]
theorem ActivePool.increaseLUSDDebt_meets (p : ActivePool) :
    MeetsRequirements (p.increaseLUSDDebt d caller amount) := by
  simp [increaseLUSDDebt, requireCallerIsBOorTroveM, borrowerRequirements]

@[simp]
theorem ActivePool.decreaseLUSDDebt_meets (p : ActivePool) :
    MeetsRequirements (p.decreaseLUSDDebt d caller amount) := by
  simp [decreaseLUSDDebt, requireCallerIsBOorTroveMorSP, borrowerRequirements]

@[simp]
theorem DefaultPool.decreaseLUSDDebt_meets (p : DefaultPool) :
    MeetsRequirements (p.decreaseLUSDDebt d caller amount) := by
  simp [decreaseLUSDDebt, requireCallerIsTroveManager, borrowerRequirements]

@[simp]
theorem ActivePool.sendETH_meets : MeetsRequirements (sendETH d caller account amount s) := by
  simp [sendETH, requireCallerIsBOorTroveMorSP, borrowerRequirements]

@[simp]
theorem DefaultPool.sendETHToActivePool_meets :
    MeetsRequirements (sendETHToActivePool d caller amount s) := by
  simp [sendETHToActivePool, requireCallerIsTroveManager, borrowerRequirements]

@[simp]
theorem LUSDToken.mint_meets (t : LUSDToken) : MeetsRequirements (t.mint d caller account amount) := by
  simp [mint, requireCallerIsBorrowerOperations, mintInternal, borrowerRequirements]

@[simp]
theorem LUSDToken.burn_meets (t : LUSDToken) : MeetsRequirements (t.burn d caller account amount) := by
  simp [burn, requireCallerIsBOorTroveMorSP, burnInternal, borrowerRequirements]

@[simp]
theorem LQTYStaking.increaseF_LUSD_meets (l : LQTYStaking) :
    MeetsRequirements (l.increaseF_LUSD d caller amount) := by
  simp [increaseF_LUSD, feePerLQTYStaked, borrowerRequirements]

end Pools

/-! ## The list -/

namespace SortedTroves

variable {getNominalICR : Address → Tx Nat} (hf : ∀ x, MeetsRequirements (getNominalICR x))
  (d : Deployment) (caller id : Address) (NICR : Nat) (prevId nextId : Address) (l : SortedTroves)

include hf

theorem validInsertPosition_meets :
    MeetsRequirements (validInsertPosition getNominalICR NICR prevId nextId l) := by
  simp [validInsertPosition, hf]

theorem descendLoop_meets (rounds : Nat) :
    MeetsRequirements (descendLoop getNominalICR NICR l rounds prevId nextId) := by
  induction rounds generalizing prevId nextId with
  | zero => simp [descendLoop]
  | succ rounds ih => simp [descendLoop, validInsertPosition_meets hf, ih]

theorem ascendLoop_meets (rounds : Nat) :
    MeetsRequirements (ascendLoop getNominalICR NICR l rounds prevId nextId) := by
  induction rounds generalizing prevId nextId with
  | zero => simp [ascendLoop]
  | succ rounds ih => simp [ascendLoop, validInsertPosition_meets hf, ih]

theorem descendList_meets : MeetsRequirements (descendList getNominalICR NICR id l) := by
  simp [descendList, isBeforeHead, hf, descendLoop_meets hf]

theorem ascendList_meets : MeetsRequirements (ascendList getNominalICR NICR id l) := by
  simp [ascendList, isAfterTail, hf, ascendLoop_meets hf]

theorem findInsertPosition_meets :
    MeetsRequirements (findInsertPosition getNominalICR NICR prevId nextId l) := by
  simp [findInsertPosition, checkPrevHint, checkNextHint, hf, descendList_meets hf,
    ascendList_meets hf]

theorem insertInternal_meets :
    MeetsRequirements (insertInternal getNominalICR id NICR prevId nextId l) := by
  simp [insertInternal, insertPosition, validInsertPosition_meets hf, findInsertPosition_meets hf,
    borrowerRequirements]

@[simp]
theorem insert_meets : MeetsRequirements (insert getNominalICR d caller id NICR prevId nextId l) := by
  simp [insert, requireCallerIsBOorTroveM, insertInternal_meets hf, borrowerRequirements]

omit hf in
theorem removeInternal_meets : MeetsRequirements (removeInternal id l) := by
  simp [removeInternal, borrowerRequirements]

omit hf in
@[simp]
theorem remove_meets : MeetsRequirements (remove d caller id l) := by
  simp [remove, requireCallerIsTroveManager, removeInternal_meets, borrowerRequirements]

@[simp]
theorem reInsert_meets :
    MeetsRequirements (reInsert getNominalICR d caller id NICR prevId nextId l) := by
  simp [reInsert, requireCallerIsBOorTroveM, insertInternal_meets hf, removeInternal_meets,
    borrowerRequirements]

end SortedTroves

/-! ## `TroveManager` -/

namespace TroveManager

variable (d : Deployment) (caller borrower : Address) (amount timestamp : Nat) (t : TroveManager)
  (s : System)

@[simp]
theorem requireCallerIsBorrowerOperations_meets :
    MeetsRequirements (requireCallerIsBorrowerOperations d caller) := by
  simp [requireCallerIsBorrowerOperations, borrowerRequirements]

@[simp]
theorem getPendingETHReward_meets : MeetsRequirements (t.getPendingETHReward borrower) := by
  simp [getPendingETHReward, pendingReward]

@[simp]
theorem getPendingLUSDDebtReward_meets : MeetsRequirements (t.getPendingLUSDDebtReward borrower) := by
  simp [getPendingLUSDDebtReward, pendingReward]

@[simp]
theorem getNominalICR_meets : MeetsRequirements (t.getNominalICR borrower) := by
  simp [getNominalICR, getCurrentTroveAmounts]

@[simp]
theorem setTroveStatus_meets (status : Status) :
    MeetsRequirements (t.setTroveStatus d caller borrower status) := by
  simp [setTroveStatus]

@[simp]
theorem increaseTroveColl_meets : MeetsRequirements (t.increaseTroveColl d caller borrower amount) := by
  simp [increaseTroveColl]

@[simp]
theorem decreaseTroveColl_meets : MeetsRequirements (t.decreaseTroveColl d caller borrower amount) := by
  simp [decreaseTroveColl]

@[simp]
theorem increaseTroveDebt_meets : MeetsRequirements (t.increaseTroveDebt d caller borrower amount) := by
  simp [increaseTroveDebt]

@[simp]
theorem decreaseTroveDebt_meets : MeetsRequirements (t.decreaseTroveDebt d caller borrower amount) := by
  simp [decreaseTroveDebt]

@[simp]
theorem updateTroveRewardSnapshots_meets :
    MeetsRequirements (t.updateTroveRewardSnapshots d caller borrower) := by
  simp [updateTroveRewardSnapshots]

@[simp]
theorem updateStakeAndTotalStakes_meets :
    MeetsRequirements (t.updateStakeAndTotalStakes d caller borrower) := by
  simp [updateStakeAndTotalStakes, updateStakeAndTotalStakesInternal, computeNewStake]

@[simp]
theorem removeStake_meets : MeetsRequirements (t.removeStake d caller borrower) := by
  simp [removeStake, removeStakeInternal]

@[simp]
theorem addTroveOwnerToArray_meets :
    MeetsRequirements (t.addTroveOwnerToArray d caller borrower) := by
  simp [addTroveOwnerToArray, addTroveOwnerToArrayInternal]

@[simp]
theorem removeTroveOwner_meets : MeetsRequirements (t.removeTroveOwner borrower amount) := by
  simp [removeTroveOwner]

@[simp]
theorem decayBaseRateFromBorrowing_meets :
    MeetsRequirements (t.decayBaseRateFromBorrowing d caller timestamp) := by
  simp [decayBaseRateFromBorrowing, calcDecayedBaseRate, minutesPassedSinceLastFeeOp,
    updateLastFeeOpTime]

@[simp]
theorem getBorrowingFee_meets : MeetsRequirements (t.getBorrowingFee amount) := by
  simp [getBorrowingFee, calcBorrowingRate, calcBorrowingFee]

@[simp]
theorem applyPendingRewards_meets : MeetsRequirements (applyPendingRewards d caller borrower s) := by
  simp [applyPendingRewards, applyPendingRewardsInternal, applyRewards, requireTroveIsActive,
    movePendingTroveRewardsToActivePool, borrowerRequirements]

/-- The one requirement outside `BorrowerOperations`. -/
theorem closeTrove_meets
    (hmore : 1 < s.troveManager.troveOwners.length ∧ 1 < s.sortedTroves.getSize) :
    MeetsRequirements (closeTrove d caller borrower s) := by
  simp [closeTrove, closeTroveInternal, requireMoreThanOneTroveInSystem, hmore]

end TroveManager

/-! ## `BorrowerOperations` after its checks -/

namespace BorrowerOperations

variable (d : Deployment) (s : System)

@[simp]
theorem applyChange_meets (inc : Bool) (amount change : Nat) :
    MeetsRequirements (applyChange inc amount change) := by
  simp [applyChange]

@[simp]
theorem getNewTroveAmounts_meets (coll debt collChange : Nat) (collInc : Bool) (debtChange : Nat)
    (debtInc : Bool) :
    MeetsRequirements (getNewTroveAmounts coll debt collChange collInc debtChange debtInc) := by
  simp [getNewTroveAmounts]

@[simp]
theorem getNewTCRFromTroveChange_meets (collChange : Nat) (collInc : Bool) (debtChange : Nat)
    (debtInc : Bool) (price : Nat) :
    MeetsRequirements (getNewTCRFromTroveChange collChange collInc debtChange debtInc price s) := by
  simp [getNewTCRFromTroveChange, System.getEntireSystemColl, System.getEntireSystemDebt]

@[simp]
theorem requireValidMaxFeePercentage_meets (maxFee : Nat) (recovery : Bool) :
    MeetsRequirements (requireValidMaxFeePercentage maxFee recovery) := by
  simp [requireValidMaxFeePercentage, borrowerRequirements]

@[simp]
theorem triggerBorrowingFee_meets (timestamp amount maxFee : Nat) :
    MeetsRequirements (triggerBorrowingFee d timestamp amount maxFee s) := by
  simp [triggerBorrowingFee]

@[simp]
theorem activePoolAddColl_meets (amount : Nat) : MeetsRequirements (activePoolAddColl d amount s) := by
  simp [activePoolAddColl, borrowerRequirements]

@[simp]
theorem withdrawLUSDInternal_meets (account : Address) (amount net : Nat) :
    MeetsRequirements (withdrawLUSDInternal d account amount net s) := by
  simp [withdrawLUSDInternal]

@[simp]
theorem repayLUSDInternal_meets (account : Address) (amount : Nat) :
    MeetsRequirements (repayLUSDInternal d account amount s) := by
  simp [repayLUSDInternal]

@[simp]
theorem createTrove_meets (borrower : Address) (coll debt NICR : Nat) (upper lower : Address) :
    MeetsRequirements (createTrove d borrower coll debt NICR upper lower s) := by
  simp [createTrove]

@[simp]
theorem requireValidAdjustment_meets (env : Env) (a : Adjustment) (recovery : Bool) :
    MeetsRequirements (requireValidAdjustment d env a recovery s) := by
  simp [requireValidAdjustment, requireValidDebtIncrease, requireNonZeroDebtChange,
    requireSingularCollChange, requireNonZeroAdjustment, requireTroveisActive, borrowerRequirements]

@[simp]
theorem adjustmentFee_meets (timestamp : Nat) (a : Adjustment) (recovery : Bool) :
    MeetsRequirements (adjustmentFee d timestamp a recovery s) := by
  simp [adjustmentFee]

@[simp]
theorem adjustmentVars_meets (env : Env) (a : Adjustment) (fee : Nat) :
    MeetsRequirements (adjustmentVars env a fee s) := by
  simp [adjustmentVars, getNewICRFromTroveChange]

@[simp]
theorem performAdjustment_meets (sender : Address) (a : Adjustment) (vars : AdjustmentVars) :
    MeetsRequirements (performAdjustment d sender a vars s) := by
  simp [performAdjustment, updateTroveFromAdjustment, changeTroveColl, changeTroveDebt,
    getNewNominalICRFromTroveChange, moveTokensAndETHfromAdjustment, moveTokensFromAdjustment,
    moveETHFromAdjustment]

end BorrowerOperations

end Liquity
