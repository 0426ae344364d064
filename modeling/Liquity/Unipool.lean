import Liquity.LiquityMath

/-!
# `LPTokenWrapper` and `Unipool`

The staking pool for liquidity-pool tokens.  Its two tokens are whatever their calls answer within
one transaction: each may fail, and none calls back.
-/

open Lib

namespace Liquity

open SafeMath

/-- The token calls of one transaction. -/
structure PoolTokens where
  /-- `uniToken.safeTransferFrom(sender, address(this), amount)` -/
  safeTransferFrom : (sender : Address) → (amount : Nat) → Tx Unit
  /-- `uniToken.safeTransfer(recipient, amount)` -/
  safeTransfer : (recipient : Address) → (amount : Nat) → Tx Unit
  /-- `lqtyToken.transfer(recipient, amount)` -/
  transferLQTY : (recipient : Address) → (amount : Nat) → Tx Unit

structure Unipool where
  uniToken : Address
  totalSupply : Nat
  balances : Address → Nat
  duration : Nat
  periodFinish : Nat
  rewardRate : Nat
  lastUpdateTime : Nat
  rewardPerTokenStored : Nat
  userRewardPerTokenPaid : Address → Nat
  rewards : Address → Nat

namespace LPTokenWrapper

def stake (tokens : PoolTokens) (sender : Address) (amount : Nat) (u : Unipool) : Tx Unipool := do
  let totalSupply ← add u.totalSupply amount
  let balance ← add (u.balances sender) amount
  tokens.safeTransferFrom sender amount
  return { u with totalSupply, balances := Function.update u.balances sender balance }

def withdraw (tokens : PoolTokens) (sender : Address) (amount : Nat) (u : Unipool) :
    Tx Unipool := do
  let totalSupply ← sub u.totalSupply amount
  let balance ← sub (u.balances sender) amount
  tokens.safeTransfer sender amount
  return { u with totalSupply, balances := Function.update u.balances sender balance }

end LPTokenWrapper

namespace Unipool

/-! ## Views -/

def lastTimeRewardApplicable (timestamp : Nat) (u : Unipool) : Nat :=
  LiquityMath.min timestamp u.periodFinish

def rewardPerToken (timestamp : Nat) (u : Unipool) : Tx Nat :=
  if u.totalSupply = 0 then .ok u.rewardPerTokenStored
  else do
    let elapsed ← sub (u.lastTimeRewardApplicable timestamp) u.lastUpdateTime
    let reward ← mul elapsed u.rewardRate
    let scaled ← mul reward (10 ^ 18)
    let perToken ← div scaled u.totalSupply
    add u.rewardPerTokenStored perToken

def earned (timestamp : Nat) (account : Address) (u : Unipool) : Tx Nat := do
  let rewardPerToken ← u.rewardPerToken timestamp
  let perToken ← sub rewardPerToken (u.userRewardPerTokenPaid account)
  let scaled ← mul (u.balances account) perToken
  let gain ← div scaled (10 ^ 18)
  add gain (u.rewards account)

/-! ## Updates -/

/-- Moves the end of the period by the time during which nothing was staked. -/
def updatePeriodFinish (timestamp : Nat) (u : Unipool) : Tx Unipool :=
  if u.totalSupply = 0 then do
    assertThat (0 < u.periodFinish)
    let idle ← sub timestamp u.lastUpdateTime
    let periodFinish ← add u.periodFinish idle
    return { u with periodFinish }
  else .ok u

def updateReward (timestamp : Nat) (u : Unipool) : Tx Unipool := do
  let rewardPerTokenStored ← u.rewardPerToken timestamp
  return {
    u with rewardPerTokenStored, lastUpdateTime := u.lastTimeRewardApplicable timestamp }

def updateAccountReward (timestamp : Nat) (account : Address) (u : Unipool) : Tx Unipool := do
  let u ← u.updateReward timestamp
  assertThat (account ≠ 0)
  let reward ← u.earned timestamp account
  return {
    u with
      rewards := Function.update u.rewards account reward
      userRewardPerTokenPaid :=
        Function.update u.userRewardPerTokenPaid account u.rewardPerTokenStored }

def notifyRewardAmount (timestamp reward duration : Nat) (u : Unipool) : Tx Unipool := do
  assertThat (0 < reward)
  assertThat (u.periodFinish = 0)
  let u ← u.updateReward timestamp
  let rewardRate ← div reward duration
  let periodFinish ← add timestamp duration
  return { u with rewardRate, lastUpdateTime := timestamp, periodFinish }

/-! ## External functions -/

/-- `lpRewardsEntitlement` is what the LQTY token answers.  The call gives up the ownership that it
needs, so there is only one. -/
def setParams (timestamp lpRewardsEntitlement : Nat) (uniToken : Address) (duration : Nat)
    (u : Unipool) : Tx Unipool := do
  require (uniToken ≠ 0) "Account cannot be zero address"
  notifyRewardAmount timestamp lpRewardsEntitlement duration { u with uniToken, duration }

def requireUniTokenIsSet (u : Unipool) : Tx Unit :=
  require (u.uniToken ≠ 0) "Liquidity Pool Token has not been set yet"

def stake (tokens : PoolTokens) (timestamp : Nat) (sender : Address) (amount : Nat) (u : Unipool) :
    Tx Unipool := do
  require (0 < amount) "Cannot stake 0"
  u.requireUniTokenIsSet
  let u ← u.updatePeriodFinish timestamp
  let u ← u.updateAccountReward timestamp sender
  LPTokenWrapper.stake tokens sender amount u

-- Unlike `stake` and `claimReward`, this does not move the end of the period first.
def withdraw (tokens : PoolTokens) (timestamp : Nat) (sender : Address) (amount : Nat)
    (u : Unipool) : Tx Unipool := do
  require (0 < amount) "Cannot withdraw 0"
  u.requireUniTokenIsSet
  let u ← u.updateAccountReward timestamp sender
  LPTokenWrapper.withdraw tokens sender amount u

/-- Returns the reward it pays. -/
def claimReward (tokens : PoolTokens) (timestamp : Nat) (sender : Address) (u : Unipool) :
    Tx (Nat × Unipool) := do
  u.requireUniTokenIsSet
  let u ← u.updatePeriodFinish timestamp
  let u ← u.updateAccountReward timestamp sender
  let reward ← u.earned timestamp sender
  require (0 < reward) "Nothing to claim"
  tokens.transferLQTY sender reward
  return (reward, { u with rewards := Function.update u.rewards sender 0 })

def withdrawAndClaim (tokens : PoolTokens) (timestamp : Nat) (sender : Address) (u : Unipool) :
    Tx (Nat × Unipool) := do
  let u ← u.withdraw tokens timestamp sender (u.balances sender)
  u.claimReward tokens timestamp sender

/-! ## Runs -/

inductive Call where
  | stake (amount : Nat)
  | withdraw (amount : Nat)
  | withdrawAndClaim
  | claimReward
  deriving DecidableEq, Repr

/-- A call as the chain executes it. -/
structure Invocation where
  call : Call
  sender : Address
  timestamp : Nat
  tokens : PoolTokens

/-- The reward a call pays, and the storage after it. -/
def perform (i : Invocation) (u : Unipool) : Tx (Nat × Unipool) :=
  match i.call with
  | .stake amount => do
    let u ← u.stake i.tokens i.timestamp i.sender amount
    return (0, u)
  | .withdraw amount => do
    let u ← u.withdraw i.tokens i.timestamp i.sender amount
    return (0, u)
  | .withdrawAndClaim => u.withdrawAndClaim i.tokens i.timestamp i.sender
  | .claimReward => u.claimReward i.tokens i.timestamp i.sender

/-- The pool after some calls, with what an observer of the calls has noted. -/
structure Run where
  pool : Unipool
  /-- The time of the last call. -/
  now : Nat
  /-- For how long tokens have been staked. -/
  stakedTime : Nat
  /-- All rewards paid so far. -/
  paid : Nat

/-- A call that does not fail, no earlier than the last one. -/
def Step (r : Run) (i : Invocation) (r' : Run) : Prop :=
  r.now ≤ i.timestamp ∧
    ∃ reward u, r.pool.perform i = .ok (reward, u) ∧
      r' =
        { pool := u
          now := i.timestamp
          stakedTime :=
            r.stakedTime + if r.pool.totalSupply = 0 then 0 else i.timestamp - r.now
          paid := r.paid + reward }

/-- The storage that the constructor leaves. -/
def deployed : Unipool where
  uniToken := 0
  totalSupply := 0
  balances _ := 0
  duration := 0
  periodFinish := 0
  rewardRate := 0
  lastUpdateTime := 0
  rewardPerTokenStored := 0
  userRewardPerTokenPaid _ := 0
  rewards _ := 0

/-- A run that starts with `setParams`. -/
def Starts (reward duration : Nat) (r : Run) : Prop :=
  ∃ uniToken, setParams r.now reward uniToken duration deployed = .ok r.pool ∧
    r.stakedTime = 0 ∧ r.paid = 0

end Unipool

end Liquity
