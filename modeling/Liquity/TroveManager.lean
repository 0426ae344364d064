import Liquity.LQTY

/-!
# `TroveManager`: troves, stakes, rewards and fees

Everything of the contract except the liquidation and redemption loops.  Functions that only touch
the trove manager's own storage take and return it; those that call other contracts work on the
whole system.
-/

open Lib

namespace Liquity

open SafeMath LiquityMath LiquityBase

namespace TroveManager

def MINUTE_DECAY_FACTOR : Nat := 999037758833783000
def REDEMPTION_FEE_FLOOR : Nat := DECIMAL_PRECISION / 1000 * 5
def MAX_BORROWING_FEE : Nat := DECIMAL_PRECISION / 100 * 5
def BOOTSTRAP_PERIOD : Nat := 0
def BETA : Nat := 2

/-! ## Pending rewards and ratios -/

/-- The pending reward of a stake against one accumulator and its snapshot. -/
def pendingReward (accumulator snapshot : Nat) (trove : Trove) : Tx Nat := do
  let rewardPerUnitStaked ← sub accumulator snapshot
  if rewardPerUnitStaked = 0 ∨ trove.status ≠ .active then return 0
  else do
    let scaled ← mul trove.stake rewardPerUnitStaked
    div scaled DECIMAL_PRECISION

def getPendingETHReward (borrower : Address) (t : TroveManager) : Tx Nat :=
  pendingReward t.L_ETH (t.rewardSnapshots borrower).ETH (t.troves borrower)

def getPendingLUSDDebtReward (borrower : Address) (t : TroveManager) : Tx Nat :=
  pendingReward t.L_LUSDDebt (t.rewardSnapshots borrower).LUSDDebt (t.troves borrower)

def hasPendingRewards (borrower : Address) (t : TroveManager) : Bool :=
  if (t.troves borrower).status ≠ .active then false
  -- only the ETH snapshot is looked at
  else decide ((t.rewardSnapshots borrower).ETH < t.L_ETH)

/-- `(currentETH, currentLUSDDebt)`. -/
def getCurrentTroveAmounts (borrower : Address) (t : TroveManager) : Tx (Nat × Nat) := do
  let pendingETHReward ← t.getPendingETHReward borrower
  let pendingLUSDDebtReward ← t.getPendingLUSDDebtReward borrower
  let currentETH ← add (t.troves borrower).coll pendingETHReward
  let currentLUSDDebt ← add (t.troves borrower).debt pendingLUSDDebtReward
  return (currentETH, currentLUSDDebt)

def getNominalICR (t : TroveManager) (borrower : Address) : Tx Nat := do
  let amounts ← t.getCurrentTroveAmounts borrower
  computeNominalCR amounts.1 amounts.2

def getCurrentICR (borrower : Address) (price : Nat) (t : TroveManager) : Tx Nat := do
  let amounts ← t.getCurrentTroveAmounts borrower
  computeCR amounts.1 amounts.2 price

/-- The four return values of `getEntireDebtAndColl`. -/
structure EntireDebtAndColl where
  debt : Nat
  coll : Nat
  pendingLUSDDebtReward : Nat
  pendingETHReward : Nat

def getEntireDebtAndColl (borrower : Address) (t : TroveManager) : Tx EntireDebtAndColl := do
  let pendingLUSDDebtReward ← t.getPendingLUSDDebtReward borrower
  let pendingETHReward ← t.getPendingETHReward borrower
  let debt ← add (t.troves borrower).debt pendingLUSDDebtReward
  let coll ← add (t.troves borrower).coll pendingETHReward
  return { debt, coll, pendingLUSDDebtReward, pendingETHReward }

/-! ## Requirements -/

def requireCallerIsBorrowerOperations (d : Deployment) (caller : Address) : Tx Unit :=
  require (caller = d.borrowerOperations)
    "TroveManager: Caller is not the BorrowerOperations contract"

def requireTroveIsActive (borrower : Address) (t : TroveManager) : Tx Unit :=
  require ((t.troves borrower).status = .active) "TroveManager: Trove does not exist or is closed"

/-! ## Trove fields -/

def setTrove (borrower : Address) (trove : Trove) (t : TroveManager) : TroveManager :=
  { t with troves := Function.update t.troves borrower trove }

section Setters

variable (d : Deployment) (caller borrower : Address)

def setTroveStatus (status : Status) (t : TroveManager) : Tx TroveManager := do
  requireCallerIsBorrowerOperations d caller
  return t.setTrove borrower { t.troves borrower with status }

def increaseTroveColl (collIncrease : Nat) (t : TroveManager) : Tx TroveManager := do
  requireCallerIsBorrowerOperations d caller
  let coll ← add (t.troves borrower).coll collIncrease
  return t.setTrove borrower { t.troves borrower with coll }

def decreaseTroveColl (collDecrease : Nat) (t : TroveManager) : Tx TroveManager := do
  requireCallerIsBorrowerOperations d caller
  let coll ← sub (t.troves borrower).coll collDecrease
  return t.setTrove borrower { t.troves borrower with coll }

def increaseTroveDebt (debtIncrease : Nat) (t : TroveManager) : Tx TroveManager := do
  requireCallerIsBorrowerOperations d caller
  let debt ← add (t.troves borrower).debt debtIncrease
  return t.setTrove borrower { t.troves borrower with debt }

def decreaseTroveDebt (debtDecrease : Nat) (t : TroveManager) : Tx TroveManager := do
  requireCallerIsBorrowerOperations d caller
  let debt ← sub (t.troves borrower).debt debtDecrease
  return t.setTrove borrower { t.troves borrower with debt }

end Setters

/-! ## Stakes and snapshots -/

def updateTroveRewardSnapshotsInternal (borrower : Address) (t : TroveManager) : TroveManager :=
  { t with
    rewardSnapshots := Function.update t.rewardSnapshots borrower ⟨t.L_ETH, t.L_LUSDDebt⟩ }

def updateTroveRewardSnapshots (d : Deployment) (caller borrower : Address) (t : TroveManager) :
    Tx TroveManager := do
  requireCallerIsBorrowerOperations d caller
  return t.updateTroveRewardSnapshotsInternal borrower

def removeStakeInternal (borrower : Address) (t : TroveManager) : Tx TroveManager := do
  let totalStakes ← sub t.totalStakes (t.troves borrower).stake
  return { t with totalStakes }.setTrove borrower { t.troves borrower with stake := 0 }

def removeStake (d : Deployment) (caller borrower : Address) (t : TroveManager) :
    Tx TroveManager := do
  requireCallerIsBorrowerOperations d caller
  t.removeStakeInternal borrower

def computeNewStake (coll : Nat) (t : TroveManager) : Tx Nat :=
  if t.totalCollateralSnapshot = 0 then .ok coll
  else do
    -- the source argues that a snapshot with collateral in it had troves behind it
    assertThat (0 < t.totalStakesSnapshot)
    let scaled ← mul coll t.totalStakesSnapshot
    div scaled t.totalCollateralSnapshot

def updateStakeAndTotalStakesInternal (borrower : Address) (t : TroveManager) :
    Tx TroveManager := do
  let newStake ← t.computeNewStake (t.troves borrower).coll
  let oldStake := (t.troves borrower).stake
  -- the source writes the stake before the total
  let t := t.setTrove borrower { t.troves borrower with stake := newStake }
  let remaining ← sub t.totalStakes oldStake
  let totalStakes ← add remaining newStake
  return { t with totalStakes }

def updateStakeAndTotalStakes (d : Deployment) (caller borrower : Address) (t : TroveManager) :
    Tx TroveManager := do
  requireCallerIsBorrowerOperations d caller
  t.updateStakeAndTotalStakesInternal borrower

/-! ## The array of trove owners -/

def addTroveOwnerToArrayInternal (borrower : Address) (t : TroveManager) : Tx TroveManager := do
  let troveOwners := t.troveOwners ++ [borrower]
  let last ← sub troveOwners.length 1
  -- `uint128(...)` keeps the low 128 bits.
  let arrayIndex := last % 2 ^ 128
  return { t with troveOwners }.setTrove borrower { t.troves borrower with arrayIndex }

def addTroveOwnerToArray (d : Deployment) (caller borrower : Address) (t : TroveManager) :
    Tx TroveManager := do
  requireCallerIsBorrowerOperations d caller
  t.addTroveOwnerToArrayInternal borrower

/-- Swap-with-last removal.  Reading past the end of the array fails like `assert`. -/
def removeTroveOwner (borrower : Address) (troveOwnersArrayLength : Nat) (t : TroveManager) :
    Tx TroveManager := do
  let troveStatus := (t.troves borrower).status
  assertThat (troveStatus ≠ .nonExistent ∧ troveStatus ≠ .active)
  let index := (t.troves borrower).arrayIndex
  let idxLast ← sub troveOwnersArrayLength 1
  assertThat (index ≤ idxLast)
  assertThat (idxLast < t.troveOwners.length)
  -- when `borrower` is the last owner, it is moved onto itself and dropped
  let addressToMove := t.troveOwners.getD idxLast 0
  let troveOwners := (t.troveOwners.set index addressToMove).dropLast
  return { t with troveOwners }.setTrove addressToMove
    { t.troves addressToMove with arrayIndex := index }

/-! ## Fees and the base rate -/

def updateLastFeeOpTime (timestamp : Nat) (t : TroveManager) : Tx TroveManager := do
  let timePassed ← sub timestamp t.lastFeeOperationTime
  return if SECONDS_IN_ONE_MINUTE ≤ timePassed then { t with lastFeeOperationTime := timestamp }
    else t

def minutesPassedSinceLastFeeOp (timestamp : Nat) (t : TroveManager) : Tx Nat := do
  let timePassed ← sub timestamp t.lastFeeOperationTime
  div timePassed SECONDS_IN_ONE_MINUTE

def calcDecayedBaseRate (timestamp : Nat) (t : TroveManager) : Tx Nat := do
  let minutesPassed ← t.minutesPassedSinceLastFeeOp timestamp
  -- `decPow` caps the number of minutes
  let decayFactor ← decPow MINUTE_DECAY_FACTOR minutesPassed
  let scaled ← mul t.baseRate decayFactor
  div scaled DECIMAL_PRECISION

def decayBaseRateFromBorrowing (d : Deployment) (caller : Address) (timestamp : Nat)
    (t : TroveManager) : Tx TroveManager := do
  requireCallerIsBorrowerOperations d caller
  let decayedBaseRate ← t.calcDecayedBaseRate timestamp
  assertThat (decayedBaseRate ≤ DECIMAL_PRECISION)
  updateLastFeeOpTime timestamp { t with baseRate := decayedBaseRate }

def updateBaseRateFromRedemption (ETHDrawn price totalLUSDSupply timestamp : Nat)
    (t : TroveManager) : Tx TroveManager := do
  let decayedBaseRate ← t.calcDecayedBaseRate timestamp
  let value ← mul ETHDrawn price
  -- the LUSD value of the drawn ETH, as a fraction of the supply
  let redeemedLUSDFraction ← div value totalLUSDSupply
  let increase ← div redeemedLUSDFraction BETA
  let newBaseRate ← add decayedBaseRate increase
  let newBaseRate := LiquityMath.min newBaseRate DECIMAL_PRECISION
  -- the base rate is always non-zero after a redemption
  assertThat (0 < newBaseRate)
  updateLastFeeOpTime timestamp { t with baseRate := newBaseRate }

def calcRedemptionRate (baseRate : Nat) : Tx Nat := do
  let rate ← add REDEMPTION_FEE_FLOOR baseRate
  return LiquityMath.min rate DECIMAL_PRECISION

def calcRedemptionFee (redemptionRate ETHDrawn : Nat) : Tx Nat := do
  let scaled ← mul redemptionRate ETHDrawn
  let redemptionFee ← div scaled DECIMAL_PRECISION
  require (redemptionFee < ETHDrawn) "TroveManager: Fee would eat up all returned collateral"
  return redemptionFee

def getRedemptionRate (t : TroveManager) : Tx Nat := calcRedemptionRate t.baseRate

def getRedemptionFee (ETHDrawn : Nat) (t : TroveManager) : Tx Nat := do
  let rate ← calcRedemptionRate t.baseRate
  calcRedemptionFee rate ETHDrawn

def calcBorrowingRate (baseRate : Nat) : Tx Nat := do
  let rate ← add BORROWING_FEE_FLOOR baseRate
  return LiquityMath.min rate MAX_BORROWING_FEE

def getBorrowingRateWithDecay (timestamp : Nat) (t : TroveManager) : Tx Nat := do
  let baseRate ← t.calcDecayedBaseRate timestamp
  calcBorrowingRate baseRate

def calcBorrowingFee (borrowingRate LUSDDebt : Nat) : Tx Nat := do
  let scaled ← mul borrowingRate LUSDDebt
  div scaled DECIMAL_PRECISION

def getBorrowingFee (LUSDDebt : Nat) (t : TroveManager) : Tx Nat := do
  let rate ← calcBorrowingRate t.baseRate
  calcBorrowingFee rate LUSDDebt

/-! ## Functions that reach into other contracts -/

section CrossContract

variable (d : Deployment)

def movePendingTroveRewardsToActivePool (LUSD ETH : Nat) (s : System) : Tx System := do
  let s ← s.onDefaultPool (DefaultPool.decreaseLUSDDebt d d.troveManager LUSD)
  let s ← s.onActivePool (ActivePool.increaseLUSDDebt d d.troveManager LUSD)
  DefaultPool.sendETHToActivePool d d.troveManager ETH s

/-- Adds the pending rewards to the trove and moves them between the pools. -/
def applyRewards (borrower : Address) (s : System) : Tx System := do
  requireTroveIsActive borrower s.troveManager
  let pendingETHReward ← s.troveManager.getPendingETHReward borrower
  let pendingLUSDDebtReward ← s.troveManager.getPendingLUSDDebtReward borrower
  let trove := s.troveManager.troves borrower
  let coll ← add trove.coll pendingETHReward
  let debt ← add trove.debt pendingLUSDDebtReward
  let t := s.troveManager.setTrove borrower { trove with coll, debt }
  let s := { s with troveManager := t.updateTroveRewardSnapshotsInternal borrower }
  movePendingTroveRewardsToActivePool d pendingLUSDDebtReward pendingETHReward s

def applyPendingRewardsInternal (borrower : Address) (s : System) : Tx System :=
  if s.troveManager.hasPendingRewards borrower then applyRewards d borrower s else .ok s

def applyPendingRewards (caller borrower : Address) (s : System) : Tx System := do
  requireCallerIsBorrowerOperations d caller
  applyPendingRewardsInternal d borrower s

def requireMoreThanOneTroveInSystem (troveOwnersArrayLength : Nat) (s : System) : Tx Unit :=
  require (1 < troveOwnersArrayLength ∧ 1 < s.sortedTroves.getSize)
    "TroveManager: Only one trove in the system"

def closeTroveInternal (borrower : Address) (closedStatus : Status) (s : System) : Tx System := do
  assertThat (closedStatus ≠ .nonExistent ∧ closedStatus ≠ .active)
  let troveOwnersArrayLength := s.troveManager.troveOwners.length
  -- the last trove of the system is never closed
  requireMoreThanOneTroveInSystem troveOwnersArrayLength s
  let t := s.troveManager
  let t := t.setTrove borrower { t.troves borrower with status := closedStatus, coll := 0, debt := 0 }
  let t := { t with rewardSnapshots := Function.update t.rewardSnapshots borrower ⟨0, 0⟩ }
  let t ← t.removeTroveOwner borrower troveOwnersArrayLength
  let s := { s with troveManager := t }
  s.onSortedTroves (SortedTroves.remove d d.troveManager borrower)

def closeTrove (caller borrower : Address) (s : System) : Tx System := do
  requireCallerIsBorrowerOperations d caller
  closeTroveInternal d borrower .closedByOwner s

/-- The per-unit reward and the remainder carried to the next redistribution. -/
def rewardPerUnitStaked (amount lastError totalStakes : Nat) : Tx (Nat × Nat) := do
  let scaled ← mul amount DECIMAL_PRECISION
  let numerator ← add scaled lastError
  let perUnit ← div numerator totalStakes
  let distributed ← mul perUnit totalStakes
  -- what the floor division left over
  let newError ← sub numerator distributed
  return (perUnit, newError)

def redistributeDebtAndColl (debt coll : Nat) (s : System) : Tx System :=
  if debt = 0 then .ok s
  else do
    let t := s.troveManager
    let ETHReward ← rewardPerUnitStaked coll t.lastETHError_Redistribution t.totalStakes
    let LUSDDebtReward ← rewardPerUnitStaked debt t.lastLUSDDebtError_Redistribution t.totalStakes
    let L_ETH ← add t.L_ETH ETHReward.1
    let L_LUSDDebt ← add t.L_LUSDDebt LUSDDebtReward.1
    let s := { s with troveManager := { t with
      L_ETH, L_LUSDDebt
      lastETHError_Redistribution := ETHReward.2
      lastLUSDDebtError_Redistribution := LUSDDebtReward.2 } }
    let s ← s.onActivePool (ActivePool.decreaseLUSDDebt d d.troveManager debt)
    let s ← s.onDefaultPool (DefaultPool.increaseLUSDDebt d d.troveManager debt)
    ActivePool.sendETH d d.troveManager d.defaultPool coll s

def updateSystemSnapshots_excludeCollRemainder (collRemainder : Nat) (s : System) : Tx System := do
  -- the gas compensation is still in the Active Pool
  let activeColl ← sub s.activePool.ETH collRemainder
  let totalCollateralSnapshot ← add activeColl s.defaultPool.ETH
  return { s with troveManager := { s.troveManager with
    totalStakesSnapshot := s.troveManager.totalStakes
    totalCollateralSnapshot } }

end CrossContract

end TroveManager

end Liquity
