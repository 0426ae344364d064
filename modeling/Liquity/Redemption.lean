import Liquity.Liquidation

/-!
# `TroveManager`: redemptions
-/

open Lib

namespace Liquity

open SafeMath LiquityMath LiquityBase

namespace TroveManager

structure SingleRedemptionValues where
  LUSDLot : Nat
  ETHLot : Nat
  cancelledPartial : Bool

/-- The hints of a redemption: where to start and where to put back a partially redeemed trove. -/
structure RedemptionHints where
  firstRedemptionHint : Address
  upperPartialRedemptionHint : Address
  lowerPartialRedemptionHint : Address
  partialRedemptionHintNICR : Nat

section Single

variable (d : Deployment)

/-- Burns the gas reserve of a fully redeemed trove and sets its remaining collateral aside. -/
def redeemCloseTrove (borrower : Address) (LUSD ETH : Nat) (s : System) : Tx System := do
  let s ← s.onLUSDToken (LUSDToken.burn d d.troveManager d.gasPool LUSD)
  let s ← s.onActivePool (ActivePool.decreaseLUSDDebt d d.troveManager LUSD)
  let s ← s.onCollSurplusPool (CollSurplusPool.accountSurplus d d.troveManager borrower ETH)
  ActivePool.sendETH d d.troveManager d.collSurplusPool ETH s

/-- The branch that closes the trove. -/
def redeemFully (borrower : Address) (newColl : Nat) (s : System) : Tx System := do
  let s ← s.onTroveManager (removeStakeInternal borrower)
  let s ← closeTroveInternal d borrower .closedByRedemption s
  redeemCloseTrove d borrower LUSD_GAS_COMPENSATION newColl s

/-- The branch that keeps the trove: re-insert it and write its new amounts and stake. -/
def redeemPartially (borrower : Address) (newDebt newColl newNICR : Nat) (hints : RedemptionHints)
    (s : System) : Tx System := do
  -- re-inserted first, at the new ratio, while its stored amounts are still the old ones
  let s ← s.onSortedTroves
    (SortedTroves.reInsert s.troveManager.getNominalICR d d.troveManager borrower newNICR
      hints.upperPartialRedemptionHint hints.lowerPartialRedemptionHint)
  let t := s.troveManager
  let t := t.setTrove borrower { t.troves borrower with debt := newDebt, coll := newColl }
  let t ← t.updateStakeAndTotalStakesInternal borrower
  return { s with troveManager := t }

def redeemCollateralFromTrove (borrower : Address) (maxLUSDamount price : Nat)
    (hints : RedemptionHints) (s : System) : Tx (SingleRedemptionValues × System) := do
  let trove := s.troveManager.troves borrower
  let redeemable ← sub trove.debt LUSD_GAS_COMPENSATION
  let LUSDLot := LiquityMath.min maxLUSDamount redeemable
  let scaled ← mul LUSDLot DECIMAL_PRECISION
  let ETHLot ← div scaled price
  let newDebt ← sub trove.debt LUSDLot
  let newColl ← sub trove.coll ETHLot
  -- only the gas reserve is left: the trove is closed
  if newDebt = LUSD_GAS_COMPENSATION then do
    let s ← redeemFully d borrower newColl s
    return ({ LUSDLot, ETHLot, cancelledPartial := false }, s)
  else do
    let newNICR ← computeNominalCR newColl newDebt
    let netDebt ← getNetDebt newDebt
    -- a stale hint, or a debt that would fall under the minimum: nothing is changed
    if newNICR ≠ hints.partialRedemptionHintNICR ∨ netDebt < MIN_NET_DEBT then
      return ({ LUSDLot, ETHLot, cancelledPartial := true }, s)
    else do
      let s ← redeemPartially d borrower newDebt newColl newNICR hints s
      return ({ LUSDLot, ETHLot, cancelledPartial := false }, s)

end Single

/-! ## The redemption loop -/

def isValidFirstRedemptionHint (firstRedemptionHint : Address) (price : Nat) (s : System) :
    Tx Bool :=
  if firstRedemptionHint = 0 ∨ s.sortedTroves.contains firstRedemptionHint = false then .ok false
  else do
    let ICR ← s.troveManager.getCurrentICR firstRedemptionHint price
    if ICR < MCR then return false
    else do
      let nextTrove := s.sortedTroves.getNext firstRedemptionHint
      -- the hint is the first trove at or above the MCR, seen from the tail
      if nextTrove = 0 then return true
      else do
        let nextICR ← s.troveManager.getCurrentICR nextTrove price
        return decide (nextICR < MCR)

/-- Walks up from `currentBorrower` to the first trove with `ICR >= MCR`. -/
def findFirstRedeemable (price : Nat) (s : System) :
    (rounds : Nat) → (currentBorrower : Address) → Tx Address
  | 0, _ => .error .outOfGas
  | rounds + 1, currentBorrower =>
    if currentBorrower ≠ 0 then do
      let ICR ← s.troveManager.getCurrentICR currentBorrower price
      if ICR < MCR then
        findFirstRedeemable price s rounds (s.sortedTroves.getPrev currentBorrower)
      else return currentBorrower
    else .ok currentBorrower

/-- The trove a redemption starts from: the hint if it is valid, else the one found. -/
def firstRedeemable (firstRedemptionHint : Address) (price : Nat) (s : System) : Tx Address := do
  let valid ← isValidFirstRedemptionHint firstRedemptionHint price s
  if valid then return firstRedemptionHint
  else findFirstRedeemable price s (s.sortedTroves.size + 1) s.sortedTroves.getLast

/-- What the redemption loop carries from one trove to the next. -/
structure RedemptionState where
  remainingLUSD : Nat
  totalLUSDToRedeem : Nat
  totalETHDrawn : Nat
  system : System

section Loop

variable (d : Deployment)

/-- The redemption loop.  Every round moves one node up the list, so the length of the list bounds
the rounds; `maxIterations` is the caller's own limit. -/
def redemptionLoop (price : Nat) (hints : RedemptionHints) :
    (rounds : Nat) → (currentBorrower : Address) → (maxIterations : Nat) → RedemptionState →
      Tx RedemptionState
  | 0, _, _, _ => .error .outOfGas
  | rounds + 1, currentBorrower, maxIterations, r =>
    if currentBorrower ≠ 0 ∧ 0 < r.remainingLUSD ∧ 0 < maxIterations then do
      -- saved first, because a full redemption removes the trove from the list
      let nextUserToCheck := r.system.sortedTroves.getPrev currentBorrower
      let s ← applyPendingRewardsInternal d currentBorrower r.system
      let single ← redeemCollateralFromTrove d currentBorrower r.remainingLUSD price hints s
      -- the loop breaks, but keeps the rewards just applied
      if single.1.cancelledPartial then return { r with system := single.2 }
      else do
        let totalLUSDToRedeem ← add r.totalLUSDToRedeem single.1.LUSDLot
        let totalETHDrawn ← add r.totalETHDrawn single.1.ETHLot
        let remainingLUSD ← sub r.remainingLUSD single.1.LUSDLot
        redemptionLoop price hints rounds nextUserToCheck (maxIterations - 1)
          { remainingLUSD, totalLUSDToRedeem, totalETHDrawn, system := single.2 }
    else .ok r

/-! ## `redeemCollateral` -/

def requireValidMaxFeePercentage (maxFeePercentage : Nat) : Tx Unit :=
  require (REDEMPTION_FEE_FLOOR ≤ maxFeePercentage ∧ maxFeePercentage ≤ DECIMAL_PRECISION)
    "Max fee percentage must be between 0.5% and 100%"

def requireAfterBootstrapPeriod (timestamp : Nat) : Tx Unit := do
  let bootstrapEnd ← add d.deploymentStartTime BOOTSTRAP_PERIOD
  require (bootstrapEnd ≤ timestamp)
    "TroveManager: Redemptions are not allowed during bootstrap phase"

def requireTCRoverMCR (price : Nat) (s : System) : Tx Unit := do
  let TCR ← s.getTCR price
  require (MCR ≤ TCR) "TroveManager: Cannot redeem when TCR < MCR"

/-- The payments after the loop: the fee to the stakers, the rest to the redeemer, against the
redeemed LUSD. -/
def settleRedemption (env : Env) (totalLUSDSupplyAtStart maxFeePercentage : Nat)
    (r : RedemptionState) : Tx System := do
  require (0 < r.totalETHDrawn) "TroveManager: Unable to redeem any amount"
  let s := r.system
  let s ← s.onTroveManager
    (updateBaseRateFromRedemption r.totalETHDrawn env.price totalLUSDSupplyAtStart env.timestamp)
  let ETHFee ← s.troveManager.getRedemptionFee r.totalETHDrawn
  requireUserAcceptsFee ETHFee r.totalETHDrawn maxFeePercentage
  let s ← ActivePool.sendETH d d.troveManager d.lqtyStaking ETHFee s
  let s ← s.onLQTYStaking (LQTYStaking.increaseF_ETH d d.troveManager ETHFee)
  let ETHToSendToRedeemer ← sub r.totalETHDrawn ETHFee
  let s ← s.onLUSDToken (LUSDToken.burn d d.troveManager env.sender r.totalLUSDToRedeem)
  let s ← s.onActivePool (ActivePool.decreaseLUSDDebt d d.troveManager r.totalLUSDToRedeem)
  ActivePool.sendETH d d.troveManager env.sender ETHToSendToRedeemer s

def redeemCollateral (env : Env) (LUSDamount : Nat) (hints : RedemptionHints)
    (maxIterations maxFeePercentage : Nat) (s : System) : Tx System := do
  requireValidMaxFeePercentage maxFeePercentage
  requireAfterBootstrapPeriod d env.timestamp
  requireTCRoverMCR env.price s
  require (0 < LUSDamount) "TroveManager: Amount must be greater than zero"
  require (LUSDamount ≤ s.lusdToken.balances env.sender)
    "TroveManager: Requested redemption amount must be <= user's LUSD token balance"
  let totalLUSDSupplyAtStart ← s.getEntireSystemDebt
  assertThat (s.lusdToken.balances env.sender ≤ totalLUSDSupplyAtStart)
  let currentBorrower ← firstRedeemable hints.firstRedemptionHint env.price s
  -- zero stands for no limit (`uint(-1)`)
  let maxIterations := if maxIterations = 0 then 2 ^ 256 - 1 else maxIterations
  let r ← redemptionLoop d env.price hints (s.sortedTroves.size + 1) currentBorrower maxIterations
    { remainingLUSD := LUSDamount, totalLUSDToRedeem := 0, totalETHDrawn := 0, system := s }
  settleRedemption d env totalLUSDSupplyAtStart maxFeePercentage r

end Loop

end TroveManager

end Liquity
