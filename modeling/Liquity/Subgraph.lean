import Liquity.Events
import Liquity.Lib.FixedPoint

/-!
# The subgraph

The handlers of the subgraph's trove and Stability Pool events, as functions of its store.  `BigDecimal`
is exact and `BigInt` unbounded; counters are `i32`.  A handler that reads a field that is not set traps,
and has no result.  The store keeps what the totals of the system and the counters of troves depend on.
-/

open Lib

namespace Liquity.Subgraph

/-! ## Numbers -/

def DECIMAL_SCALING_FACTOR : ℕ := 10 ^ 18

def BIGINT_SCALING_FACTOR : ℤ := 10 ^ 18

def DECIMAL_COLLATERAL_GAS_COMPENSATION_DIVISOR : ℕ := 200

def decimalize (bigInt : ℤ) : ℚ := ofUnits DECIMAL_SCALING_FACTOR bigInt

/-- `null` for a trove without debt. -/
def calculateCollateralRatio (collateral debt price : ℚ) : Option ℚ :=
  if debt = 0 then none
  else some (truncate DECIMAL_SCALING_FACTOR (collateral * price / debt))

/-! ## Operations -/

inductive TroveOperation where
  | openTrove
  | closeTrove
  | adjustTrove
  | accrueRewards
  | liquidateInNormalMode
  | liquidateInRecoveryMode
  | redeemCollateral
  deriving DecidableEq

namespace TroveOperation

def isBorrowerOperation : TroveOperation → Bool
  | openTrove | closeTrove | adjustTrove => true
  | _ => false

def isLiquidation : TroveOperation → Bool
  | liquidateInNormalMode | liquidateInRecoveryMode => true
  | _ => false

def isRecoveryModeLiquidation : TroveOperation → Bool
  | liquidateInRecoveryMode => true
  | _ => false

def isRedemption : TroveOperation → Bool
  | redeemCollateral => true
  | _ => false

end TroveOperation

def getTroveOperationFromBorrowerOperation : BorrowerOperation → TroveOperation
  | .openTrove => .openTrove
  | .closeTrove => .closeTrove
  | .adjustTrove => .adjustTrove

def getTroveOperationFromTroveManagerOperation : TroveManagerOperation → TroveOperation
  | .applyPendingRewards => .accrueRewards
  | .liquidateInNormalMode => .liquidateInNormalMode
  | .liquidateInRecoveryMode => .liquidateInRecoveryMode
  | .redeemCollateral => .redeemCollateral

inductive StabilityDepositOperation where
  | depositTokens
  | withdrawTokens
  | withdrawCollateralGain
  deriving DecidableEq

/-! ## Entities -/

structure Global where
  numberOfOpenTroves : Int32
  numberOfLiquidatedTroves : Int32
  numberOfRedeemedTroves : Int32
  numberOfTrovesClosedByOwner : Int32
  totalNumberOfTroves : Int32
  rawTotalRedistributedCollateral : ℤ
  rawTotalRedistributedDebt : ℤ
  tmpDepositUpdate : Option ℤ

structure SystemState where
  price : Option ℚ
  totalCollateral : ℚ
  totalDebt : ℚ
  tokensInStabilityPool : ℚ

inductive TroveStatus where
  | «open»
  | closedByOwner
  | closedByLiquidation
  | closedByRedemption
  deriving DecidableEq

structure Trove where
  status : TroveStatus
  collateral : ℚ
  debt : ℚ
  rawCollateral : ℤ
  rawDebt : ℤ
  rawStake : ℤ
  rawSnapshotOfTotalRedistributedCollateral : ℤ
  rawSnapshotOfTotalRedistributedDebt : ℤ

/-- The store.  Deposits that were never saved hold nothing; troves that were never saved are `none`. -/
structure Store where
  global : Global
  systemState : SystemState
  troves : Address → Option Trove
  /-- `StabilityDeposit.depositedAmount`. -/
  depositedAmount : Address → ℚ

/-- The store before the first event. -/
def Store.empty : Store where
  global := ⟨0, 0, 0, 0, 0, 0, 0, none⟩
  systemState := ⟨none, 0, 0, 0⟩
  troves := fun _ => none
  depositedAmount := fun _ => 0

/-! ## The system state -/

/-- What `updateTrove` records of a change of a trove. -/
structure TroveChange where
  troveOperation : TroveOperation
  collateralBefore : ℚ
  debtBefore : ℚ
  collateralRatioBefore : Option ℚ
  collateralChange : ℚ
  debtChange : ℚ

namespace SystemState

def tryToOffsetWithTokensFromStabilityPool (collateralToLiquidate debtToLiquidate : ℚ)
    (s : SystemState) : SystemState :=
  if debtToLiquidate ≤ s.tokensInStabilityPool then
    -- completely offset
    { s with
      totalCollateral := s.totalCollateral - collateralToLiquidate
      totalDebt := s.totalDebt - debtToLiquidate
      tokensInStabilityPool := s.tokensInStabilityPool - debtToLiquidate }
  else if 0 < s.tokensInStabilityPool then
    -- partially offset, emptying the pool
    { s with
      totalCollateral := s.totalCollateral -
        truncate DECIMAL_SCALING_FACTOR
          (collateralToLiquidate * s.tokensInStabilityPool / debtToLiquidate)
      totalDebt := s.totalDebt - s.tokensInStabilityPool
      tokensInStabilityPool := 0 }
  else s

/-- `!isRecoveryModeLiquidation(operation) || troveChange.collateralRatioBefore > DECIMAL_ONE`; the
comparison with `null` traps. -/
def offsets (troveChange : TroveChange) : Option Bool :=
  if troveChange.troveOperation.isRecoveryModeLiquidation then do
    let collateralRatioBefore ← troveChange.collateralRatioBefore
    return decide (1 < collateralRatioBefore)
  else some true

def updateByTroveChange (troveChange : TroveChange) (s : SystemState) : Option SystemState :=
  let operation := troveChange.troveOperation
  if operation.isBorrowerOperation || operation.isRedemption then
    some { s with
      totalCollateral := s.totalCollateral + troveChange.collateralChange
      totalDebt := s.totalDebt + troveChange.debtChange }
  else if operation.isLiquidation then do
    let collateral := troveChange.collateralBefore
    let debt := troveChange.debtBefore
    let collateralGasCompensation := truncate DECIMAL_SCALING_FACTOR
      (collateral / DECIMAL_COLLATERAL_GAS_COMPENSATION_DIVISOR)
    let s := { s with totalCollateral := s.totalCollateral - collateralGasCompensation }
    let offset ← offsets troveChange
    if offset then
      return s.tryToOffsetWithTokensFromStabilityPool (collateral - collateralGasCompensation) debt
    else return s
  -- accrued rewards move nothing in or out of the system
  else some s

def updateByStabilityDepositChange (operation : StabilityDepositOperation)
    (depositedAmountChange : ℚ) (s : SystemState) : SystemState :=
  if operation = .depositTokens ∨ operation = .withdrawTokens then
    { s with tokensInStabilityPool := s.tokensInStabilityPool + depositedAmountChange }
  else s

end SystemState

/-! ## Counters -/

namespace Global

def increaseNumberOfOpenTroves (global : Global) : Global :=
  { global with
    numberOfOpenTroves := global.numberOfOpenTroves + 1
    totalNumberOfTroves := global.totalNumberOfTroves + 1 }

def increaseNumberOfLiquidatedTroves (global : Global) : Global :=
  { global with
    numberOfLiquidatedTroves := global.numberOfLiquidatedTroves + 1
    numberOfOpenTroves := global.numberOfOpenTroves - 1 }

def decreaseNumberOfLiquidatedTroves (global : Global) : Global :=
  { global with
    numberOfLiquidatedTroves := global.numberOfLiquidatedTroves - 1
    numberOfOpenTroves := global.numberOfOpenTroves + 1 }

def increaseNumberOfRedeemedTroves (global : Global) : Global :=
  { global with
    numberOfRedeemedTroves := global.numberOfRedeemedTroves + 1
    numberOfOpenTroves := global.numberOfOpenTroves - 1 }

def decreaseNumberOfRedeemedTroves (global : Global) : Global :=
  { global with
    numberOfRedeemedTroves := global.numberOfRedeemedTroves - 1
    numberOfOpenTroves := global.numberOfOpenTroves + 1 }

def increaseNumberOfTrovesClosedByOwner (global : Global) : Global :=
  { global with
    numberOfTrovesClosedByOwner := global.numberOfTrovesClosedByOwner + 1
    numberOfOpenTroves := global.numberOfOpenTroves - 1 }

def decreaseNumberOfTrovesClosedByOwner (global : Global) : Global :=
  { global with
    numberOfTrovesClosedByOwner := global.numberOfTrovesClosedByOwner - 1
    numberOfOpenTroves := global.numberOfOpenTroves + 1 }

end Global

/-- What `setTroveStatus` does to the counters when the status of a trove changes. -/
def countStatusChange (statusBefore status : TroveStatus) (global : Global) : Global :=
  match status with
  | .«open» =>
    match statusBefore with
    | .closedByOwner => global.decreaseNumberOfTrovesClosedByOwner
    | .closedByLiquidation => global.decreaseNumberOfLiquidatedTroves
    | .closedByRedemption => global.decreaseNumberOfRedeemedTroves
    | .«open» => global
  -- the number of open troves is decreased whatever the status was before
  | .closedByOwner => global.increaseNumberOfTrovesClosedByOwner
  | .closedByLiquidation => global.increaseNumberOfLiquidatedTroves
  | .closedByRedemption => global.increaseNumberOfRedeemedTroves

/-- `setTroveStatus`, with the counters after it. -/
def setTroveStatus (trove : Trove) (status : TroveStatus) (global : Global) : Trove × Global :=
  if status ≠ trove.status then
    ({ trove with status }, countStatusChange trove.status status global)
  else (trove, global)

namespace Store

/-- Only a change of the price is recorded, so the price is the last one emitted. -/
def updatePrice (lastGoodPrice : ℤ) (g : Store) : Store :=
  { g with systemState := { g.systemState with price := some (decimalize lastGoodPrice) } }

/-! ## Troves -/

/-- A trove that `getTrove` creates; its raw fields are not set before `updateTrove` sets them. -/
def newTrove : Trove := ⟨.«open», 0, 0, 0, 0, 0, 0, 0⟩

/-- A trove that is not found is counted at once, but it is up to the caller to save it. -/
def getTrove (borrower : Address) (g : Store) : Trove × Store :=
  match g.troves borrower with
  | some trove => (trove, g)
  | none => (newTrove, { g with global := g.global.increaseNumberOfOpenTroves })

/-- The fields that `updateTrove` sets. -/
def setAmounts (coll debt stake : ℤ) (global : Global) (trove : Trove) : Trove where
  status := trove.status
  collateral := decimalize coll
  debt := decimalize debt
  rawCollateral := coll
  rawDebt := debt
  rawStake := stake
  rawSnapshotOfTotalRedistributedCollateral :=
    if stake ≠ 0 then global.rawTotalRedistributedCollateral else 0
  rawSnapshotOfTotalRedistributedDebt :=
    if stake ≠ 0 then global.rawTotalRedistributedDebt else 0

/-- The status that `updateTrove` infers. -/
def statusAfter (operation : TroveOperation) (coll : ℤ) : TroveStatus :=
  if coll = 0 then
    if operation.isLiquidation then .closedByLiquidation
    else if operation.isRedemption then .closedByRedemption
    else .closedByOwner
  else .«open»

def updateTrove (operation : TroveOperation) (borrower : Address) (coll debt stake : ℤ) (g : Store) :
    Option Store :=
  let (trove, g) := g.getTrove borrower
  let newCollateral := decimalize coll
  let newDebt := decimalize debt
  -- nothing is saved then, not even the snapshots
  if newCollateral = trove.collateral ∧ newDebt = trove.debt then some g
  else do
    let price ← g.systemState.price
    let systemState ← g.systemState.updateByTroveChange
      { troveOperation := operation
        collateralBefore := trove.collateral
        debtBefore := trove.debt
        collateralRatioBefore := calculateCollateralRatio trove.collateral trove.debt price
        collateralChange := newCollateral - trove.collateral
        debtChange := newDebt - trove.debt }
    let (trove, global) := setTroveStatus (setAmounts coll debt stake g.global trove)
      (statusAfter operation coll) g.global
    return { g with systemState, global, troves := Function.update g.troves borrower (some trove) }

def applyRedistributionToTroveBeforeLiquidation (borrower : Address) (g : Store) :
    Option Store := do
  let global := g.global
  -- reading the raw fields of a new trove traps
  let trove ← g.troves borrower
  let redistributedCollateral :=
    ((global.rawTotalRedistributedCollateral - trove.rawSnapshotOfTotalRedistributedCollateral) *
      trove.rawStake).tdiv BIGINT_SCALING_FACTOR
  let redistributedDebt :=
    ((global.rawTotalRedistributedDebt - trove.rawSnapshotOfTotalRedistributedDebt) *
      trove.rawStake).tdiv BIGINT_SCALING_FACTOR
  updateTrove .accrueRewards borrower (trove.rawCollateral + redistributedCollateral)
    (trove.rawDebt + redistributedDebt) 0 g

def updateTotalRedistributed (L_ETH L_LUSDDebt : ℤ) (g : Store) : Store :=
  { g with
    global := { g.global with
      rawTotalRedistributedCollateral := L_ETH, rawTotalRedistributedDebt := L_LUSDDebt } }

/-! ## Deposits -/

def updateStabilityDepositByOperation (user : Address) (operation : StabilityDepositOperation)
    (newDepositedAmount : ℚ) (g : Store) : Store :=
  { g with
    systemState := g.systemState.updateByStabilityDepositChange operation
      (newDepositedAmount - g.depositedAmount user)
    depositedAmount := Function.update g.depositedAmount user newDepositedAmount }

def updateStabilityDeposit (user : Address) (amount : ℤ) (g : Store) : Store :=
  let newDepositedAmount := decimalize amount
  if newDepositedAmount = g.depositedAmount user then g
  else g.updateStabilityDepositByOperation user
    (if g.depositedAmount user < newDepositedAmount then .depositTokens else .withdrawTokens)
    newDepositedAmount

def withdrawCollateralGainFromStabilityDeposit (user : Address) (ETH LUSDLoss : ℤ) (g : Store) :
    Store :=
  if ETH = 0 ∧ LUSDLoss = 0 then g
  else g.updateStabilityDepositByOperation user .withdrawCollateralGain
    (g.depositedAmount user - decimalize LUSDLoss)

/-- `swapTmpDepositUpdate`, without the value before. -/
def swapTmpDepositUpdate (valueToSetIfNull : ℤ) (g : Store) : Store :=
  { g with
    global := { g.global with
      tmpDepositUpdate :=
        if g.global.tmpDepositUpdate = none then some valueToSetIfNull else none } }

def handleUserDepositChanged (depositor : Address) (newDeposit : ℤ) (g : Store) : Store :=
  match g.global.tmpDepositUpdate with
  | some _ => (g.swapTmpDepositUpdate newDeposit).updateStabilityDeposit depositor newDeposit
  | none => g.swapTmpDepositUpdate newDeposit

def handleETHGainWithdrawn (depositor : Address) (ETH LUSDLoss : ℤ) (g : Store) : Store :=
  -- the dummy value signals that the gains have been withdrawn
  let g' := (g.swapTmpDepositUpdate 0).withdrawCollateralGainFromStabilityDeposit depositor ETH LUSDLoss
  match g.global.tmpDepositUpdate with
  | some depositUpdate => g'.updateStabilityDeposit depositor depositUpdate
  | none => g'

/-! ## Replaying a log -/

/-- The handler of an event. -/
def handle (g : Store) : Event → Option Store
  | .lastGoodPriceUpdated lastGoodPrice => some (g.updatePrice lastGoodPrice)
  | .troveUpdatedByBorrower borrower debt coll stake operation =>
    g.updateTrove (getTroveOperationFromBorrowerOperation operation) borrower coll debt stake
  | .troveUpdated borrower debt coll stake operation =>
    g.updateTrove (getTroveOperationFromTroveManagerOperation operation) borrower coll debt stake
  | .troveLiquidated borrower => g.applyRedistributionToTroveBeforeLiquidation borrower
  | .LTermsUpdated L_ETH L_LUSDDebt => some (g.updateTotalRedistributed L_ETH L_LUSDDebt)
  | .userDepositChanged depositor newDeposit => some (g.handleUserDepositChanged depositor newDeposit)
  | .ETHGainWithdrawn depositor ETH LUSDLoss =>
    some (g.handleETHGainWithdrawn depositor ETH LUSDLoss)

/-- The store after the events of a log, in order. -/
def replay (log : List Event) (g : Store) : Option Store := log.foldlM handle g

end Store

end Liquity.Subgraph
