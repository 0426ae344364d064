import Liquity.Execution

/-!
# `BorrowerWrappersScript`

A proxy runs the script by `delegatecall`: `address(this)` is the proxy, and the protocol sees the proxy
as the sender of each call.
-/

open Lib

namespace Liquity

open SafeMath

namespace BorrowerWrappersScript

variable (d : Deployment) (env : Env)

/-- A call to the protocol, with some ether of the proxy's. -/
def callProtocol (value : Nat) (call : Call) (s : System) : Tx System :=
  call.execute d { env with value } s

def requireUserHasTrove (depositor : Address) (s : System) : Tx Unit :=
  require ((s.troveManager.troves depositor).status = .active)
    "BorrowerWrappersScript: caller must have an active trove"

/-- The debt that keeps the ratio when `collateral` is added, less the borrowing fee on it. -/
def getNetLUSDAmount (collateral : Nat) (s : System) : Tx Nat := do
  let ICR ← s.troveManager.getCurrentICR env.sender env.price
  let value ← mul collateral env.price
  let LUSDAmount ← div value ICR
  let borrowingRate ← s.troveManager.getBorrowingRateWithDecay env.timestamp
  let scaled ← mul LUSDAmount DECIMAL_PRECISION
  let divisor ← add DECIMAL_PRECISION borrowingRate
  div scaled divisor

/-- Staking of claimed LQTY. -/
def stakeClaimed (claimedLQTY : Nat) (s : System) : Tx System :=
  if 0 < claimedLQTY then callProtocol d env 0 (.stake claimedLQTY) s else .ok s

/-- The LUSD drawn against gained collateral, and the system after it was added to the trove. -/
def topUpTrove (maxFee collateral : Nat) (upperHint lowerHint : Address) (s : System) :
    Tx (Nat × System) := do
  requireUserHasTrove env.sender s
  let LUSDAmount ← getNetLUSDAmount env collateral s
  let s ← callProtocol d env collateral
    (.adjustTrove maxFee 0 LUSDAmount true upperHint lowerHint) s
  return (LUSDAmount, s)

def provideIfAny (amount : Nat) (s : System) : Tx System :=
  if 0 < amount then callProtocol d env 0 (.provideToSP amount 0) s else .ok s

def claimSPRewardsAndRecycle (maxFee : Nat) (upperHint lowerHint : Address) (s : System) :
    Tx System := do
  let collBalanceBefore := s.ether env.sender
  let lqtyBalanceBefore := s.lqtyToken.balances env.sender
  let s ← callProtocol d env 0 (.withdrawFromSP 0) s
  let collBalanceAfter := s.ether env.sender
  -- read here: LQTY that the deposit below pays out is not staked
  let lqtyBalanceAfter := s.lqtyToken.balances env.sender
  let claimedCollateral ← sub collBalanceAfter collBalanceBefore
  let s ←
    if 0 < claimedCollateral then do
      let toppedUp ← topUpTrove d env maxFee claimedCollateral upperHint lowerHint s
      provideIfAny d env toppedUp.1 toppedUp.2
    else .ok s
  let claimedLQTY ← sub lqtyBalanceAfter lqtyBalanceBefore
  stakeClaimed d env claimedLQTY s

def claimStakingGainsAndRecycle (maxFee : Nat) (upperHint lowerHint : Address) (s : System) :
    Tx System := do
  let collBalanceBefore := s.ether env.sender
  let lusdBalanceBefore := s.lusdToken.balances env.sender
  let lqtyBalanceBefore := s.lqtyToken.balances env.sender
  let s ← callProtocol d env 0 (.unstake 0) s
  let gainedCollateral ← sub (s.ether env.sender) collBalanceBefore
  let gainedLUSD ← sub (s.lusdToken.balances env.sender) lusdBalanceBefore
  let toppedUp ←
    if 0 < gainedCollateral then topUpTrove d env maxFee gainedCollateral upperHint lowerHint s
    else .ok (0, s)
  let s := toppedUp.2
  let totalLUSD ← add gainedLUSD toppedUp.1
  if 0 < totalLUSD then do
    let s ← callProtocol d env 0 (.provideToSP totalLUSD 0) s
    -- the deposit pays out LQTY
    let claimedLQTY ← sub (s.lqtyToken.balances env.sender) lqtyBalanceBefore
    stakeClaimed d env claimedLQTY s
  else .ok s

end BorrowerWrappersScript

end Liquity
