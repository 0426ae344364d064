import Liquity.LiquityMath

/-!
# The LUSD and LQTY tokens

`LUSDToken` carries the debt token; only the core contracts mint, burn and move it on behalf of
others.  `LQTYToken` is the staking token with its one-off allocation.
-/

open Lib

namespace Liquity

open SafeMath

structure LUSDToken where
  balances : Address → Nat
  totalSupply : Nat
  allowances : Address → Address → Nat

namespace LUSDToken

variable (d : Deployment)

/-! ## Internal operations -/

def transferInternal (sender recipient : Address) (amount : Nat) (t : LUSDToken) :
    Tx LUSDToken := do
  assertThat (sender ≠ 0)
  assertThat (recipient ≠ 0)
  let senderBalance ←
    checkedSub "ERC20: transfer amount exceeds balance" (t.balances sender) amount
  let balances := Function.update t.balances sender senderBalance
  let recipientBalance ← add (balances recipient) amount
  return { t with balances := Function.update balances recipient recipientBalance }

def mintInternal (account : Address) (amount : Nat) (t : LUSDToken) : Tx LUSDToken := do
  assertThat (account ≠ 0)
  let totalSupply ← add t.totalSupply amount
  let balance ← add (t.balances account) amount
  return { t with totalSupply, balances := Function.update t.balances account balance }

def burnInternal (account : Address) (amount : Nat) (t : LUSDToken) : Tx LUSDToken := do
  assertThat (account ≠ 0)
  let balance ← checkedSub "ERC20: burn amount exceeds balance" (t.balances account) amount
  let totalSupply ← sub t.totalSupply amount
  return { t with totalSupply, balances := Function.update t.balances account balance }

def approveInternal (owner spender : Address) (amount : Nat) (t : LUSDToken) :
    Tx LUSDToken := do
  assertThat (owner ≠ 0)
  assertThat (spender ≠ 0)
  return { t with
    allowances := Function.update t.allowances owner
      (Function.update (t.allowances owner) spender amount) }

/-! ## Caller and recipient checks -/

def requireCallerIsBorrowerOperations (caller : Address) : Tx Unit :=
  require (caller = d.borrowerOperations) "LUSDToken: Caller is not BorrowerOperations"

def requireCallerIsBOorTroveMorSP (caller : Address) : Tx Unit :=
  require (caller = d.borrowerOperations ∨ caller = d.troveManager ∨ caller = d.stabilityPool)
    "LUSD: Caller is neither BorrowerOperations nor TroveManager nor StabilityPool"

def requireCallerIsStabilityPool (caller : Address) : Tx Unit :=
  require (caller = d.stabilityPool) "LUSD: Caller is not the StabilityPool"

def requireCallerIsTroveMorSP (caller : Address) : Tx Unit :=
  require (caller = d.troveManager ∨ caller = d.stabilityPool)
    "LUSD: Caller is neither TroveManager nor StabilityPool"

def requireValidRecipient (recipient : Address) : Tx Unit := do
  require (recipient ≠ 0 ∧ recipient ≠ d.lusdToken)
    "LUSD: Cannot transfer tokens directly to the LUSD token contract or the zero address"
  require (recipient ≠ d.stabilityPool ∧ recipient ≠ d.troveManager ∧
      recipient ≠ d.borrowerOperations)
    "LUSD: Cannot transfer tokens directly to the StabilityPool, TroveManager or BorrowerOps"

/-! ## Calls between the core contracts -/

def mint (caller account : Address) (amount : Nat) (t : LUSDToken) : Tx LUSDToken := do
  requireCallerIsBorrowerOperations d caller
  mintInternal account amount t

def burn (caller account : Address) (amount : Nat) (t : LUSDToken) : Tx LUSDToken := do
  requireCallerIsBOorTroveMorSP d caller
  burnInternal account amount t

def sendToPool (caller sender poolAddress : Address) (amount : Nat) (t : LUSDToken) :
    Tx LUSDToken := do
  requireCallerIsStabilityPool d caller
  transferInternal sender poolAddress amount t

def returnFromPool (caller poolAddress receiver : Address) (amount : Nat) (t : LUSDToken) :
    Tx LUSDToken := do
  requireCallerIsTroveMorSP d caller
  transferInternal poolAddress receiver amount t

/-! ## External functions -/

def transfer (caller recipient : Address) (amount : Nat) (t : LUSDToken) : Tx LUSDToken := do
  requireValidRecipient d recipient
  transferInternal caller recipient amount t

def approve (caller spender : Address) (amount : Nat) (t : LUSDToken) : Tx LUSDToken :=
  approveInternal caller spender amount t

def transferFrom (caller sender recipient : Address) (amount : Nat) (t : LUSDToken) :
    Tx LUSDToken := do
  requireValidRecipient d recipient
  let t ← transferInternal sender recipient amount t
  let allowance ←
    checkedSub "ERC20: transfer amount exceeds allowance" (t.allowances sender caller) amount
  approveInternal sender caller allowance t

end LUSDToken

structure LQTYToken where
  balances : Address → Nat
  allowances : Address → Address → Nat

namespace LQTYToken

variable (d : Deployment)

def ONE_YEAR_IN_SECONDS : Nat := 31536000

def transferInternal (sender recipient : Address) (amount : Nat) (t : LQTYToken) :
    Tx LQTYToken := do
  require (sender ≠ 0) "ERC20: transfer from the zero address"
  require (recipient ≠ 0) "ERC20: transfer to the zero address"
  let senderBalance ←
    checkedSub "ERC20: transfer amount exceeds balance" (t.balances sender) amount
  let balances := Function.update t.balances sender senderBalance
  let recipientBalance ← add (balances recipient) amount
  return { t with balances := Function.update balances recipient recipientBalance }

def approveInternal (owner spender : Address) (amount : Nat) (t : LQTYToken) : Tx LQTYToken := do
  require (owner ≠ 0) "ERC20: approve from the zero address"
  require (spender ≠ 0) "ERC20: approve to the zero address"
  return { t with
    allowances := Function.update t.allowances owner
      (Function.update (t.allowances owner) spender amount) }

/-- `_isFirstYear()`, with the checked subtraction of the deployment time. -/
def isFirstYear (timestamp : Nat) : Tx Bool := do
  let elapsed ← sub timestamp d.deploymentStartTime
  return decide (elapsed < ONE_YEAR_IN_SECONDS)

def requireValidRecipient (recipient : Address) : Tx Unit := do
  require (recipient ≠ 0 ∧ recipient ≠ d.lqtyToken)
    "LQTY: Cannot transfer tokens directly to the LQTY token contract or the zero address"
  require (recipient ≠ d.communityIssuance ∧ recipient ≠ d.lqtyStaking)
    "LQTY: Cannot transfer tokens directly to the community issuance or staking contract"

/-- The multisig may only pay registered lockup contracts in the first year. -/
def requireMultisigRecipient (timestamp : Nat) (caller recipient : Address) : Tx Unit :=
  if caller = d.multisig then do
    let firstYear ← isFirstYear d timestamp
    require (firstYear = true → d.isRegisteredLockup recipient = true)
      "LQTYToken: recipient must be a LockupContract registered in the Factory"
  else .ok ()

def transfer (timestamp : Nat) (caller recipient : Address) (amount : Nat) (t : LQTYToken) :
    Tx LQTYToken := do
  requireMultisigRecipient d timestamp caller recipient
  requireValidRecipient d recipient
  transferInternal caller recipient amount t

def approve (timestamp : Nat) (caller spender : Address) (amount : Nat) (t : LQTYToken) :
    Tx LQTYToken := do
  let firstYear ← isFirstYear d timestamp
  require (firstYear = true → caller ≠ d.multisig) "LQTYToken: caller must not be the multisig"
  approveInternal caller spender amount t

def transferFrom (timestamp : Nat) (caller sender recipient : Address) (amount : Nat)
    (t : LQTYToken) : Tx LQTYToken := do
  let firstYear ← isFirstYear d timestamp
  require (firstYear = true → sender ≠ d.multisig) "LQTYToken: sender must not be the multisig"
  requireValidRecipient d recipient
  let t ← transferInternal sender recipient amount t
  let allowance ←
    checkedSub "ERC20: transfer amount exceeds allowance" (t.allowances sender caller) amount
  approveInternal sender caller allowance t

def sendToLQTYStaking (timestamp : Nat) (caller sender : Address) (amount : Nat)
    (t : LQTYToken) : Tx LQTYToken := do
  require (caller = d.lqtyStaking) "LQTYToken: caller must be the LQTYStaking contract"
  let firstYear ← isFirstYear d timestamp
  require (firstYear = true → sender ≠ d.multisig) "LQTYToken: sender must not be the multisig"
  transferInternal sender d.lqtyStaking amount t

/-- The allocation that the constructor mints. -/
def initial : LQTYToken :=
  let million := 10 ^ 24
  let lpRewardsEntitlement := million * 4 / 3
  let credit (a : Address) (amount : Nat) (f : Address → Nat) := Function.update f a (f a + amount)
  { balances :=
      credit d.multisig (million * 100 - million * 2 - million * 32 - lpRewardsEntitlement)
        (credit d.lpRewards lpRewardsEntitlement
          (credit d.communityIssuance (million * 32)
            (credit d.bounty (million * 2) fun _ => 0)))
    allowances := fun _ _ => 0 }

end LQTYToken

end Liquity
