import Liquity.State

/-!
# `CommunityIssuance` and `LQTYStaking`
-/

open Lib

namespace Liquity

open SafeMath LiquityMath

def SECONDS_IN_ONE_MINUTE : Nat := 60

namespace CommunityIssuance

variable (d : Deployment)

def ISSUANCE_FACTOR : Nat := 999998681227695000
def LQTYSupplyCap : Nat := 32 * 10 ^ 24

def requireCallerIsStabilityPool (caller : Address) : Tx Unit :=
  require (caller = d.stabilityPool) "CommunityIssuance: caller is not SP"

def getCumulativeIssuanceFraction (timestamp : Nat) : Tx Nat := do
  let elapsed ← sub timestamp d.deploymentTime
  let timePassedInMinutes ← div elapsed SECONDS_IN_ONE_MINUTE
  let power ← decPow ISSUANCE_FACTOR timePassedInMinutes
  let cumulativeIssuanceFraction ← sub DECIMAL_PRECISION power
  assertThat (cumulativeIssuanceFraction ≤ DECIMAL_PRECISION)
  return cumulativeIssuanceFraction

/-- Returns the amount issued now and the updated storage. -/
def issueLQTY (caller : Address) (timestamp : Nat) (c : CommunityIssuance) :
    Tx (Nat × CommunityIssuance) := do
  requireCallerIsStabilityPool d caller
  let fraction ← getCumulativeIssuanceFraction d timestamp
  let scaled ← mul LQTYSupplyCap fraction
  let latestTotalLQTYIssued ← div scaled DECIMAL_PRECISION
  let issuance ← sub latestTotalLQTYIssued c.totalLQTYIssued
  return (issuance, { totalLQTYIssued := latestTotalLQTYIssued })

def sendLQTY (caller account : Address) (amount timestamp : Nat) (s : System) : Tx System := do
  requireCallerIsStabilityPool d caller
  s.onLQTYToken (LQTYToken.transfer d timestamp d.communityIssuance account amount)

end CommunityIssuance

namespace LQTYStaking

variable (d : Deployment)

/-! ## Fee sums -/

/-- The per-unit fee of `increaseF_ETH` and `increaseF_LUSD`: nothing while nothing is staked. -/
def feePerLQTYStaked (fee : Nat) (l : LQTYStaking) : Tx Nat :=
  if 0 < l.totalLQTYStaked then do
    let scaled ← mul fee DECIMAL_PRECISION
    div scaled l.totalLQTYStaked
  else .ok 0

def increaseF_ETH (caller : Address) (ETHFee : Nat) (l : LQTYStaking) : Tx LQTYStaking := do
  require (caller = d.troveManager) "LQTYStaking: caller is not TroveM"
  let ETHFeePerLQTYStaked ← l.feePerLQTYStaked ETHFee
  let F_ETH ← add l.F_ETH ETHFeePerLQTYStaked
  return { l with F_ETH }

def increaseF_LUSD (caller : Address) (LUSDFee : Nat) (l : LQTYStaking) : Tx LQTYStaking := do
  require (caller = d.borrowerOperations) "LQTYStaking: caller is not BorrowerOps"
  let LUSDFeePerLQTYStaked ← l.feePerLQTYStaked LUSDFee
  let F_LUSD ← add l.F_LUSD LUSDFeePerLQTYStaked
  return { l with F_LUSD }

/-! ## Pending gains -/

/-- `stakes[_user].mul(F.sub(F_Snapshot)).div(DECIMAL_PRECISION)`. -/
def pendingGain (stake F F_Snapshot : Nat) : Tx Nat := do
  let perUnit ← sub F F_Snapshot
  let scaled ← mul stake perUnit
  div scaled DECIMAL_PRECISION

def getPendingETHGain (user : Address) (l : LQTYStaking) : Tx Nat :=
  pendingGain (l.stakes user) l.F_ETH (l.snapshots user).F_ETH_Snapshot

def getPendingLUSDGain (user : Address) (l : LQTYStaking) : Tx Nat :=
  pendingGain (l.stakes user) l.F_LUSD (l.snapshots user).F_LUSD_Snapshot

def updateUserSnapshots (user : Address) (l : LQTYStaking) : LQTYStaking :=
  { l with snapshots := Function.update l.snapshots user ⟨l.F_ETH, l.F_LUSD⟩ }

/-! ## Staking -/

def sendETHGainToUser (user : Address) (ETHGain : Nat) (s : System) : Tx System :=
  orRevert (s.callValue d d.lqtyStaking user ETHGain)
    "LQTYStaking: Failed to send accumulated ETHGain"

/-- The gains paid on `stake`: none for a first stake. -/
def gainsOnStake (user : Address) (l : LQTYStaking) : Tx (Nat × Nat) :=
  if l.stakes user ≠ 0 then do
    let ETHGain ← l.getPendingETHGain user
    let LUSDGain ← l.getPendingLUSDGain user
    return (ETHGain, LUSDGain)
  else .ok (0, 0)

/-- The payment at the end of `stake` and `unstake`. -/
def sendGains (user : Address) (ETHGain LUSDGain : Nat) (s : System) : Tx System := do
  let s ← s.onLUSDToken (LUSDToken.transfer d d.lqtyStaking user LUSDGain)
  sendETHGainToUser d user ETHGain s

def stake (env : Env) (LQTYamount : Nat) (s : System) : Tx System := do
  require (0 < LQTYamount) "LQTYStaking: Amount must be non-zero"
  let currentStake := s.lqtyStaking.stakes env.sender
  let gains ← s.lqtyStaking.gainsOnStake env.sender
  let l := s.lqtyStaking.updateUserSnapshots env.sender
  let newStake ← add currentStake LQTYamount
  let totalLQTYStaked ← add l.totalLQTYStaked LQTYamount
  let l := { l with stakes := Function.update l.stakes env.sender newStake, totalLQTYStaked }
  let s := { s with lqtyStaking := l }
  let s ← s.onLQTYToken
    (LQTYToken.sendToLQTYStaking d env.timestamp d.lqtyStaking env.sender LQTYamount)
  if currentStake ≠ 0 then sendGains d env.sender gains.1 gains.2 s else return s

/-- The withdrawal inside `unstake`; a zero amount only collects the gains. -/
def withdrawStake (env : Env) (LQTYamount : Nat) (s : System) : Tx System :=
  if 0 < LQTYamount then do
    let currentStake := s.lqtyStaking.stakes env.sender
    let LQTYToWithdraw := LiquityMath.min LQTYamount currentStake
    let newStake ← sub currentStake LQTYToWithdraw
    let totalLQTYStaked ← sub s.lqtyStaking.totalLQTYStaked LQTYToWithdraw
    let stakes := Function.update s.lqtyStaking.stakes env.sender newStake
    let s := { s with lqtyStaking := { s.lqtyStaking with stakes, totalLQTYStaked } }
    s.onLQTYToken (LQTYToken.transfer d env.timestamp d.lqtyStaking env.sender LQTYToWithdraw)
  else .ok s

def unstake (env : Env) (LQTYamount : Nat) (s : System) : Tx System := do
  require (0 < s.lqtyStaking.stakes env.sender) "LQTYStaking: User must have a non-zero stake"
  let ETHGain ← s.lqtyStaking.getPendingETHGain env.sender
  let LUSDGain ← s.lqtyStaking.getPendingLUSDGain env.sender
  let s := { s with lqtyStaking := s.lqtyStaking.updateUserSnapshots env.sender }
  let s ← withdrawStake d env LQTYamount s
  sendGains d env.sender ETHGain LUSDGain s

end LQTYStaking

end Liquity
