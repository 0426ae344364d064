import Liquity.LibBase.Fees
import Liquity.LibBase.Trove
import Liquity.Execution

/-!
# `ReadableEthersLiquity` and `PopulatableEthersLiquity`

What the SDK reads from the contracts, and the transactions it sends for a change of a trove.
-/

open Lib

namespace Liquity.LibEthers

open LibBase Decimal

/-! ## Reading -/

def MINUTE_DECAY_FACTOR : Decimal := ⟨999037758833783000⟩
def BETA : Decimal := ⟨2 * DIGITS⟩

def getFeesFactory (t : TroveManager) (blockTimestamp : Nat) (recoveryMode : Bool) : Fees where
  baseRateWithoutDecay := ⟨t.baseRate⟩
  minuteDecayFactor := MINUTE_DECAY_FACTOR
  beta := BETA
  lastFeeOperation := convertToDate t.lastFeeOperationTime
  timeOfLatestBlock := convertToDate blockTimestamp
  recoveryMode
  decays := by decide

def getActivePool (s : System) : LibBase.Trove := ⟨⟨s.activePool.ETH⟩, ⟨s.activePool.LUSDDebt⟩⟩

def getDefaultPool (s : System) : LibBase.Trove := ⟨⟨s.defaultPool.ETH⟩, ⟨s.defaultPool.LUSDDebt⟩⟩

def getTotal (s : System) : LibBase.Trove := (getActivePool s).add (getDefaultPool s)

def getTotalRedistributed (s : System) : LibBase.Trove :=
  ⟨⟨s.troveManager.L_ETH⟩, ⟨s.troveManager.L_LUSDDebt⟩⟩

def getTroveBeforeRedistribution (s : System) (address : Address) :
    TroveWithPendingRedistribution :=
  let trove := s.troveManager.troves address
  let snapshot := s.troveManager.rewardSnapshots address
  if trove.status = .active then
    { collateral := ⟨trove.coll⟩, debt := ⟨trove.debt⟩, stake := ⟨trove.stake⟩
      snapshotOfTotalRedistributed := ⟨⟨snapshot.ETH⟩, ⟨snapshot.LUSDDebt⟩⟩ }
  else
    { collateral := ZERO, debt := ZERO, stake := ZERO
      snapshotOfTotalRedistributed := emptyTrove }

def getTrove (s : System) (address : Address) : LibBase.Trove :=
  (getTroveBeforeRedistribution s address).applyRedistribution (getTotalRedistributed s)

def getNumberOfTroves (s : System) : Nat := s.troveManager.troveOwners.length

def getLUSDBalance (s : System) (address : Address) : Decimal := ⟨s.lusdToken.balances address⟩

/-! ## Sending -/

/-- The choices that a change of a trove leaves to the sender: the highest rate to accept, and the
hints. -/
structure TransactionOptions where
  maxBorrowingRate : Decimal
  hints : Address × Address

section Transactions

variable (env : Env) (options : TransactionOptions)

/-- `env` gives sender, time and price. -/
def openTrove (params : TroveCreationParams) : Transaction :=
  ⟨{ env with value := params.depositCollateral.bigNumber },
    .openTrove options.maxBorrowingRate.bigNumber params.borrowLUSD.bigNumber options.hints.1
      options.hints.2⟩

def closeTrove : Transaction := ⟨{ env with value := 0 }, .closeTrove⟩

def adjustTrove (params : TroveAdjustmentParams) : Transaction :=
  ⟨{ env with value := (params.depositCollateral.getD ZERO).bigNumber },
    .adjustTrove options.maxBorrowingRate.bigNumber (params.withdrawCollateral.getD ZERO).bigNumber
      ((params.borrowLUSD.or params.repayLUSD).getD ZERO).bigNumber params.borrowLUSD.isSome
      options.hints.1 options.hints.2⟩

/-- The transaction for a change, if it is a valid one. -/
def populate : TroveChange → Option Transaction
  | .invalidCreation .. => none
  | .creation params => some (openTrove env options params)
  | .closure _ => some (closeTrove env)
  | .adjustment params _ => some (adjustTrove env options params)

end Transactions

end Liquity.LibEthers
