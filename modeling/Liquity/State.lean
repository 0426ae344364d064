import Liquity.SortedTroves
import Liquity.Tokens

/-!
# Contract storage and the movement of ether

The storage of every contract, the state of the whole system, and what a value-carrying call does:
it moves ether and runs the receiver's `receive` function.  Accounts outside the protocol accept
every payment and do not call back.
-/

open Lib

namespace Liquity

open SafeMath

/-! ## Storage -/

structure ActivePool where
  ETH : Nat
  LUSDDebt : Nat

structure DefaultPool where
  ETH : Nat
  LUSDDebt : Nat

structure CollSurplusPool where
  ETH : Nat
  balances : Address → Nat

inductive Status where
  | nonExistent
  | active
  | closedByOwner
  | closedByLiquidation
  | closedByRedemption
  deriving DecidableEq, Repr

structure Trove where
  debt : Nat
  coll : Nat
  stake : Nat
  status : Status
  arrayIndex : Nat

structure RewardSnapshot where
  ETH : Nat
  LUSDDebt : Nat

structure TroveManager where
  baseRate : Nat
  lastFeeOperationTime : Nat
  troves : Address → Trove
  totalStakes : Nat
  totalStakesSnapshot : Nat
  totalCollateralSnapshot : Nat
  L_ETH : Nat
  L_LUSDDebt : Nat
  rewardSnapshots : Address → RewardSnapshot
  troveOwners : List Address
  lastETHError_Redistribution : Nat
  lastLUSDDebtError_Redistribution : Nat

structure FrontEnd where
  kickbackRate : Nat
  registered : Bool

structure Deposit where
  initialValue : Nat
  frontEndTag : Address

structure Snapshots where
  S : Nat
  P : Nat
  G : Nat
  scale : Nat
  epoch : Nat

structure StabilityPool where
  ETH : Nat
  totalLUSDDeposits : Nat
  deposits : Address → Deposit
  depositSnapshots : Address → Snapshots
  frontEnds : Address → FrontEnd
  frontEndStakes : Address → Nat
  frontEndSnapshots : Address → Snapshots
  P : Nat
  currentScale : Nat
  currentEpoch : Nat
  epochToScaleToSum : Nat → Nat → Nat
  epochToScaleToG : Nat → Nat → Nat
  lastLQTYError : Nat
  lastETHError_Offset : Nat
  lastLUSDLossError_Offset : Nat

structure StakingSnapshot where
  F_ETH_Snapshot : Nat
  F_LUSD_Snapshot : Nat

structure LQTYStaking where
  stakes : Address → Nat
  totalLQTYStaked : Nat
  F_ETH : Nat
  F_LUSD : Nat
  snapshots : Address → StakingSnapshot

structure CommunityIssuance where
  totalLQTYIssued : Nat

/-- The storage of all contracts, the ether balance of every account and the time of the last
transaction. -/
structure System where
  activePool : ActivePool
  defaultPool : DefaultPool
  collSurplusPool : CollSurplusPool
  sortedTroves : SortedTroves
  troveManager : TroveManager
  stabilityPool : StabilityPool
  lusdToken : LUSDToken
  lqtyToken : LQTYToken
  lqtyStaking : LQTYStaking
  communityIssuance : CommunityIssuance
  ether : Address → Nat
  timestamp : Nat

/-! ## Pools: debt counters and `receive` functions -/

namespace ActivePool

variable (d : Deployment)

def requireCallerIsBorrowerOperationsOrDefaultPool (caller : Address) : Tx Unit :=
  require (caller = d.borrowerOperations ∨ caller = d.defaultPool)
    "ActivePool: Caller is neither BO nor Default Pool"

def requireCallerIsBOorTroveMorSP (caller : Address) : Tx Unit :=
  require (caller = d.borrowerOperations ∨ caller = d.troveManager ∨ caller = d.stabilityPool)
    "ActivePool: Caller is neither BorrowerOperations nor TroveManager nor StabilityPool"

def requireCallerIsBOorTroveM (caller : Address) : Tx Unit :=
  require (caller = d.borrowerOperations ∨ caller = d.troveManager)
    "ActivePool: Caller is neither BorrowerOperations nor TroveManager"

def increaseLUSDDebt (caller : Address) (amount : Nat) (p : ActivePool) : Tx ActivePool := do
  requireCallerIsBOorTroveM d caller
  let LUSDDebt ← add p.LUSDDebt amount
  return { p with LUSDDebt }

def decreaseLUSDDebt (caller : Address) (amount : Nat) (p : ActivePool) : Tx ActivePool := do
  requireCallerIsBOorTroveMorSP d caller
  let LUSDDebt ← sub p.LUSDDebt amount
  return { p with LUSDDebt }

def receive (caller : Address) (value : Nat) (p : ActivePool) : Tx ActivePool := do
  requireCallerIsBorrowerOperationsOrDefaultPool d caller
  let ETH ← add p.ETH value
  return { p with ETH }

end ActivePool

namespace DefaultPool

variable (d : Deployment)

def requireCallerIsActivePool (caller : Address) : Tx Unit :=
  require (caller = d.activePool) "DefaultPool: Caller is not the ActivePool"

def requireCallerIsTroveManager (caller : Address) : Tx Unit :=
  require (caller = d.troveManager) "DefaultPool: Caller is not the TroveManager"

def increaseLUSDDebt (caller : Address) (amount : Nat) (p : DefaultPool) : Tx DefaultPool := do
  requireCallerIsTroveManager d caller
  let LUSDDebt ← add p.LUSDDebt amount
  return { p with LUSDDebt }

def decreaseLUSDDebt (caller : Address) (amount : Nat) (p : DefaultPool) : Tx DefaultPool := do
  requireCallerIsTroveManager d caller
  let LUSDDebt ← sub p.LUSDDebt amount
  return { p with LUSDDebt }

def receive (caller : Address) (value : Nat) (p : DefaultPool) : Tx DefaultPool := do
  requireCallerIsActivePool d caller
  let ETH ← add p.ETH value
  return { p with ETH }

end DefaultPool

namespace CollSurplusPool

variable (d : Deployment)

def accountSurplus (caller account : Address) (amount : Nat) (p : CollSurplusPool) :
    Tx CollSurplusPool := do
  require (caller = d.troveManager) "CollSurplusPool: Caller is not TroveManager"
  let newAmount ← add (p.balances account) amount
  return { p with balances := Function.update p.balances account newAmount }

def receive (caller : Address) (value : Nat) (p : CollSurplusPool) : Tx CollSurplusPool := do
  require (caller = d.activePool) "CollSurplusPool: Caller is not Active Pool"
  let ETH ← add p.ETH value
  return { p with ETH }

end CollSurplusPool

namespace StabilityPool

def receive (d : Deployment) (caller : Address) (value : Nat) (p : StabilityPool) :
    Tx StabilityPool := do
  require (caller = d.activePool) "StabilityPool: Caller is not ActivePool"
  let ETH ← add p.ETH value
  return { p with ETH }

end StabilityPool

namespace LQTYStaking

def receive (d : Deployment) (caller : Address) : Tx Unit :=
  require (caller = d.activePool) "LQTYStaking: caller is not ActivePool"

end LQTYStaking

/-! ## Lifting a call on one contract to the system -/

namespace System

def onActivePool (f : ActivePool → Tx ActivePool) (s : System) : Tx System := do
  let activePool ← f s.activePool
  return { s with activePool }

def onDefaultPool (f : DefaultPool → Tx DefaultPool) (s : System) : Tx System := do
  let defaultPool ← f s.defaultPool
  return { s with defaultPool }

def onCollSurplusPool (f : CollSurplusPool → Tx CollSurplusPool) (s : System) : Tx System := do
  let collSurplusPool ← f s.collSurplusPool
  return { s with collSurplusPool }

def onSortedTroves (f : SortedTroves → Tx SortedTroves) (s : System) : Tx System := do
  let sortedTroves ← f s.sortedTroves
  return { s with sortedTroves }

def onTroveManager (f : TroveManager → Tx TroveManager) (s : System) : Tx System := do
  let troveManager ← f s.troveManager
  return { s with troveManager }

def onStabilityPool (f : StabilityPool → Tx StabilityPool) (s : System) : Tx System := do
  let stabilityPool ← f s.stabilityPool
  return { s with stabilityPool }

def onLUSDToken (f : LUSDToken → Tx LUSDToken) (s : System) : Tx System := do
  let lusdToken ← f s.lusdToken
  return { s with lusdToken }

def onLQTYToken (f : LQTYToken → Tx LQTYToken) (s : System) : Tx System := do
  let lqtyToken ← f s.lqtyToken
  return { s with lqtyToken }

def onLQTYStaking (f : LQTYStaking → Tx LQTYStaking) (s : System) : Tx System := do
  let lqtyStaking ← f s.lqtyStaking
  return { s with lqtyStaking }

/-! ## Ether -/

variable (d : Deployment)

/-- The receiver's `receive` function, if it has one.  The other contracts of the protocol reject
plain ether. -/
def receiveETH (sender recipient : Address) (value : Nat) (s : System) : Tx System :=
  if recipient = d.activePool then s.onActivePool (ActivePool.receive d sender value)
  else if recipient = d.defaultPool then s.onDefaultPool (DefaultPool.receive d sender value)
  else if recipient = d.stabilityPool then
    s.onStabilityPool (StabilityPool.receive d sender value)
  else if recipient = d.collSurplusPool then
    s.onCollSurplusPool (CollSurplusPool.receive d sender value)
  else if recipient = d.lqtyStaking then do
    LQTYStaking.receive d sender
    return s
  -- accounts outside the protocol take every payment
  else do
    require (recipient ∉ d.contracts) "no payable fallback"
    return s

def moveEther (sender recipient : Address) (value : Nat) (ether : Address → Nat) :
    Address → Nat :=
  -- the credit is on top of the debit, so that a payment to oneself changes nothing
  let debited := Function.update ether sender (ether sender - value)
  Function.update debited recipient (debited recipient + value)

/-- `recipient.call{value: value}("")` made by `sender`. -/
def callValue (sender recipient : Address) (value : Nat) (s : System) : Tx System := do
  require (value ≤ s.ether sender) "insufficient balance for transfer"
  -- the receiver's function runs with the ether already there
  receiveETH d sender recipient value { s with ether := moveEther sender recipient value s.ether }

end System

/-! ## Pools: payments -/

namespace ActivePool

variable (d : Deployment)

def sendETH (caller account : Address) (amount : Nat) (s : System) : Tx System := do
  requireCallerIsBOorTroveMorSP d caller
  let ETH ← sub s.activePool.ETH amount
  let s := { s with activePool := { s.activePool with ETH } }
  orRevert (s.callValue d d.activePool account amount) "ActivePool: sending ETH failed"

end ActivePool

namespace DefaultPool

variable (d : Deployment)

def sendETHToActivePool (caller : Address) (amount : Nat) (s : System) : Tx System := do
  requireCallerIsTroveManager d caller
  let ETH ← sub s.defaultPool.ETH amount
  let s := { s with defaultPool := { s.defaultPool with ETH } }
  orRevert (s.callValue d d.defaultPool d.activePool amount) "DefaultPool: sending ETH failed"

end DefaultPool

namespace CollSurplusPool

variable (d : Deployment)

def claimColl (caller account : Address) (s : System) : Tx System := do
  require (caller = d.borrowerOperations) "CollSurplusPool: Caller is not Borrower Operations"
  let claimableColl := s.collSurplusPool.balances account
  require (0 < claimableColl) "CollSurplusPool: No collateral available to claim"
  let balances := Function.update s.collSurplusPool.balances account 0
  let ETH ← sub s.collSurplusPool.ETH claimableColl
  let s := { s with collSurplusPool := { ETH, balances } }
  orRevert (s.callValue d d.collSurplusPool account claimableColl)
    "CollSurplusPool: sending ETH failed"

end CollSurplusPool

/-! ## System totals -/

namespace System

open LiquityMath

def getEntireSystemColl (s : System) : Tx Nat := add s.activePool.ETH s.defaultPool.ETH

def getEntireSystemDebt (s : System) : Tx Nat := add s.activePool.LUSDDebt s.defaultPool.LUSDDebt

def getTCR (price : Nat) (s : System) : Tx Nat := do
  let entireSystemColl ← s.getEntireSystemColl
  let entireSystemDebt ← s.getEntireSystemDebt
  computeCR entireSystemColl entireSystemDebt price

def checkRecoveryMode (price : Nat) (s : System) : Tx Bool := do
  let TCR ← s.getTCR price
  return decide (TCR < CCR)

end System

end Liquity
