import Liquity.BorrowerOperations

/-!
# `StabilityPool`: depositors and front ends
-/

open Lib

namespace Liquity

open SafeMath LiquityMath

namespace StabilityPool

variable (d : Deployment)

/-! ## Requirements -/

def requireNoUnderCollateralizedTroves (price : Nat) (s : System) : Tx Unit := do
  let lowestTrove := s.sortedTroves.getLast
  let ICR ← s.troveManager.getCurrentICR lowestTrove price
  require (MCR ≤ ICR) "StabilityPool: Cannot withdraw while there are troves with ICR < MCR"

def requireUserHasDeposit (initialDeposit : Nat) : Tx Unit :=
  require (0 < initialDeposit) "StabilityPool: User must have a non-zero deposit"

def requireUserHasNoDeposit (account : Address) (p : StabilityPool) : Tx Unit :=
  require ((p.deposits account).initialValue = 0) "StabilityPool: User must have no deposit"

def requireNonZeroAmount (amount : Nat) : Tx Unit :=
  require (0 < amount) "StabilityPool: Amount must be non-zero"

def requireUserHasTrove (depositor : Address) (s : System) : Tx Unit :=
  require ((s.troveManager.troves depositor).status = .active)
    "StabilityPool: caller must have an active trove to withdraw ETHGain to"

def requireUserHasETHGain (depositor : Address) (p : StabilityPool) : Tx Unit := do
  let ETHGain ← p.getDepositorETHGain depositor
  require (0 < ETHGain) "StabilityPool: caller must have non-zero ETH Gain"

def requireFrontEndNotRegistered (account : Address) (p : StabilityPool) : Tx Unit :=
  require ((p.frontEnds account).registered = false)
    "StabilityPool: must not already be a registered front end"

def requireFrontEndIsRegisteredOrZero (account : Address) (p : StabilityPool) : Tx Unit :=
  require ((p.frontEnds account).registered = true ∨ account = 0)
    "StabilityPool: Tag must be a registered front end, or the zero address"

def requireValidKickbackRate (kickbackRate : Nat) : Tx Unit :=
  require (kickbackRate ≤ DECIMAL_PRECISION)
    "StabilityPool: Kickback rate must be in range [0,1]"

/-! ## Payments -/

def sendLUSDtoStabilityPool (account : Address) (amount : Nat) (s : System) : Tx System := do
  let s ← s.onLUSDToken
    (LUSDToken.sendToPool d d.stabilityPool account d.stabilityPool amount)
  let totalLUSDDeposits ← add s.stabilityPool.totalLUSDDeposits amount
  return { s with stabilityPool := { s.stabilityPool with totalLUSDDeposits } }

def sendETHGainToDepositor (depositor : Address) (amount : Nat) (s : System) : Tx System :=
  if amount = 0 then .ok s
  else do
    let ETH ← sub s.stabilityPool.ETH amount
    let s := { s with stabilityPool := { s.stabilityPool with ETH } }
    orRevert (s.callValue d d.stabilityPool depositor amount) "StabilityPool: sending ETH failed"

def sendLUSDToDepositor (depositor : Address) (LUSDWithdrawal : Nat) (s : System) : Tx System :=
  if LUSDWithdrawal = 0 then .ok s
  else do
    let s ← s.onLUSDToken
      (LUSDToken.returnFromPool d d.stabilityPool d.stabilityPool depositor LUSDWithdrawal)
    s.onStabilityPool (decreaseLUSD LUSDWithdrawal)

def payOutFrontEndLQTYGain (timestamp : Nat) (frontEnd : Address) (s : System) : Tx System :=
  if frontEnd ≠ 0 then do
    let frontEndLQTYGain ← s.stabilityPool.getFrontEndLQTYGain frontEnd
    CommunityIssuance.sendLQTY d d.stabilityPool frontEnd frontEndLQTYGain timestamp s
  else .ok s

def payOutLQTYGains (timestamp : Nat) (depositor frontEnd : Address) (s : System) :
    Tx System := do
  let s ← payOutFrontEndLQTYGain d timestamp frontEnd s
  let depositorLQTYGain ← s.stabilityPool.getDepositorLQTYGain depositor
  CommunityIssuance.sendLQTY d d.stabilityPool depositor depositorLQTYGain timestamp s

/-! ## Depositor functions -/

def setFrontEndTag (depositor frontEndTag : Address) (p : StabilityPool) : StabilityPool :=
  { p with
    deposits := Function.update p.deposits depositor { p.deposits depositor with frontEndTag } }

/-- A new deposit takes the given tag; a top-up keeps the old one. -/
def tagNewDeposit (depositor frontEndTag : Address) (p : StabilityPool) : StabilityPool :=
  if (p.deposits depositor).initialValue = 0 then p.setFrontEndTag depositor frontEndTag else p

/-- What a depositor operation reads before it pays anything out: the deposit's gains and its
compounded value.  The loss is only logged, but its subtraction is checked. -/
structure DepositReading where
  depositorETHGain : Nat
  compoundedLUSDDeposit : Nat
  LUSDLoss : Nat

def readDeposit (depositor : Address) (initialDeposit : Nat) (p : StabilityPool) :
    Tx DepositReading := do
  let depositorETHGain ← p.getDepositorETHGain depositor
  let compoundedLUSDDeposit ← p.getCompoundedLUSDDeposit depositor
  let LUSDLoss ← sub initialDeposit compoundedLUSDDeposit
  return { depositorETHGain, compoundedLUSDDeposit, LUSDLoss }

def provideToSP (env : Env) (amount : Nat) (frontEndTag : Address) (s : System) : Tx System := do
  requireFrontEndIsRegisteredOrZero frontEndTag s.stabilityPool
  requireFrontEndNotRegistered env.sender s.stabilityPool
  requireNonZeroAmount amount
  let initialDeposit := (s.stabilityPool.deposits env.sender).initialValue
  -- everything below is read after the issuance and before any payment
  let s ← triggerLQTYIssuance d env.timestamp s
  let s := { s with stabilityPool := s.stabilityPool.tagNewDeposit env.sender frontEndTag }
  let reading ← s.stabilityPool.readDeposit env.sender initialDeposit
  let frontEnd := (s.stabilityPool.deposits env.sender).frontEndTag
  let s ← payOutLQTYGains d env.timestamp env.sender frontEnd s
  -- the stake of the tag as a whole, not the sum of its deposits
  let compoundedFrontEndStake ← s.stabilityPool.getCompoundedFrontEndStake frontEnd
  let newFrontEndStake ← add compoundedFrontEndStake amount
  let s := { s with
    stabilityPool := s.stabilityPool.updateFrontEndStakeAndSnapshots frontEnd newFrontEndStake }
  let s ← sendLUSDtoStabilityPool d env.sender amount s
  let newDeposit ← add reading.compoundedLUSDDeposit amount
  let s := { s with
    stabilityPool := s.stabilityPool.updateDepositAndSnapshots env.sender newDeposit }
  sendETHGainToDepositor d env.sender reading.depositorETHGain s

/-- `if (_amount != 0) _requireNoUnderCollateralizedTroves()`. -/
def requireWithdrawalAllowed (price amount : Nat) (s : System) : Tx Unit :=
  if amount ≠ 0 then requireNoUnderCollateralizedTroves price s else .ok ()

def withdrawFromSP (env : Env) (amount : Nat) (s : System) : Tx System := do
  requireWithdrawalAllowed env.price amount s
  let initialDeposit := (s.stabilityPool.deposits env.sender).initialValue
  requireUserHasDeposit initialDeposit
  let s ← triggerLQTYIssuance d env.timestamp s
  let reading ← s.stabilityPool.readDeposit env.sender initialDeposit
  -- asking for more than there is withdraws everything
  let LUSDtoWithdraw := LiquityMath.min amount reading.compoundedLUSDDeposit
  let frontEnd := (s.stabilityPool.deposits env.sender).frontEndTag
  let s ← payOutLQTYGains d env.timestamp env.sender frontEnd s
  let compoundedFrontEndStake ← s.stabilityPool.getCompoundedFrontEndStake frontEnd
  -- checked: reverts where the stake has rounded below the withdrawal
  let newFrontEndStake ← sub compoundedFrontEndStake LUSDtoWithdraw
  let s := { s with
    stabilityPool := s.stabilityPool.updateFrontEndStakeAndSnapshots frontEnd newFrontEndStake }
  let s ← sendLUSDToDepositor d env.sender LUSDtoWithdraw s
  let newDeposit ← sub reading.compoundedLUSDDeposit LUSDtoWithdraw
  let s := { s with
    stabilityPool := s.stabilityPool.updateDepositAndSnapshots env.sender newDeposit }
  sendETHGainToDepositor d env.sender reading.depositorETHGain s

def withdrawETHGainToTrove (env : Env) (upperHint lowerHint : Address) (s : System) :
    Tx System := do
  let initialDeposit := (s.stabilityPool.deposits env.sender).initialValue
  requireUserHasDeposit initialDeposit
  requireUserHasTrove env.sender s
  requireUserHasETHGain env.sender s.stabilityPool
  let s ← triggerLQTYIssuance d env.timestamp s
  let reading ← s.stabilityPool.readDeposit env.sender initialDeposit
  let frontEnd := (s.stabilityPool.deposits env.sender).frontEndTag
  let s ← payOutLQTYGains d env.timestamp env.sender frontEnd s
  let compoundedFrontEndStake ← s.stabilityPool.getCompoundedFrontEndStake frontEnd
  -- the stake and the deposit are written back as read, with fresh snapshots
  let p := s.stabilityPool.updateFrontEndStakeAndSnapshots frontEnd compoundedFrontEndStake
  let p := p.updateDepositAndSnapshots env.sender reading.compoundedLUSDDeposit
  let ETH ← sub p.ETH reading.depositorETHGain
  let s := { s with stabilityPool := { p with ETH } }
  -- `moveETHGainToTrove{ value: depositorETHGain }`
  require (reading.depositorETHGain ≤ s.ether d.stabilityPool) "insufficient balance for transfer"
  let ether := System.moveEther d.stabilityPool d.borrowerOperations reading.depositorETHGain s.ether
  BorrowerOperations.moveETHGainToTrove d
    { env with sender := d.stabilityPool, value := reading.depositorETHGain } env.sender upperHint
    lowerHint { s with ether }

def registerFrontEnd (env : Env) (kickbackRate : Nat) (s : System) : Tx System := do
  requireFrontEndNotRegistered env.sender s.stabilityPool
  requireUserHasNoDeposit env.sender s.stabilityPool
  requireValidKickbackRate kickbackRate
  let frontEnds := Function.update s.stabilityPool.frontEnds env.sender
    { kickbackRate, registered := true }
  return { s with stabilityPool := { s.stabilityPool with frontEnds } }

end StabilityPool

end Liquity
