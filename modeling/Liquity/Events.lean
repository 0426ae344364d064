import Liquity.Ledger

/-!
# The event log

The events of a completed call that an indexer of troves and deposits reads, in the order in which the
contracts emit them.  A call that reverts leaves no events.  Where the source emits an amount from a
local variable that it has just stored, the log reads it from storage.
-/

open Lib

namespace Liquity

/-- `BorrowerOperations.BorrowerOperation`. -/
inductive BorrowerOperation where
  | openTrove
  | closeTrove
  | adjustTrove
  deriving DecidableEq

/-- `TroveManager.TroveManagerOperation`. -/
inductive TroveManagerOperation where
  | applyPendingRewards
  | liquidateInNormalMode
  | liquidateInRecoveryMode
  | redeemCollateral
  deriving DecidableEq

inductive Event where
  | lastGoodPriceUpdated (lastGoodPrice : Nat)
  /-- `TroveUpdated` of `BorrowerOperations`. -/
  | troveUpdatedByBorrower (borrower : Address) (debt coll stake : Nat)
      (operation : BorrowerOperation)
  /-- `TroveUpdated` of `TroveManager`. -/
  | troveUpdated (borrower : Address) (debt coll stake : Nat) (operation : TroveManagerOperation)
  | troveLiquidated (borrower : Address)
  | LTermsUpdated (L_ETH L_LUSDDebt : Nat)
  | userDepositChanged (depositor : Address) (newDeposit : Nat)
  | ETHGainWithdrawn (depositor : Address) (ETH LUSDLoss : Nat)
  deriving DecidableEq

/-- The events of what follows a computation, if that does not revert. -/
def eventsAfter {α : Type} (x : Tx α) (f : α → List Event) : List Event :=
  match x with
  | .ok a => f a
  | .error _ => []

theorem eventsAfter_ok {α : Type} {x : Tx α} {a : α} (f : α → List Event) (h : x = .ok a) :
    eventsAfter x f = f a := by
  rw [h]
  rfl

namespace TroveManager

/-- `TroveUpdated` with the amounts that a trove has in storage. -/
def updated (operation : TroveManagerOperation) (borrower : Address) (t : TroveManager) : Event :=
  let trove := t.troves borrower
  .troveUpdated borrower trove.debt trove.coll trove.stake operation

/-- The event of `_applyPendingRewards`, from the storage before: the rewards are added to the
trove. -/
def applyPendingRewardsLog (borrower : Address) (t : TroveManager) : List Event :=
  if t.hasPendingRewards borrower then [updated .applyPendingRewards borrower (t.applied borrower)]
  else []

/-! ## Liquidations -/

/-- The events of a trove that is liquidated. -/
def liquidatedLog (operation : TroveManagerOperation) (borrower : Address) : List Event :=
  [.troveLiquidated borrower, .troveUpdated borrower 0 0 0 operation]

section Loops

variable (d : Deployment)

/-- The events of a round in Recovery Mode, from the storage before and after: those of a liquidation,
or none for a trove that `_liquidateRecoveryMode` leaves as it is. -/
def liquidateInRecoveryModeLog (user : Address) (t t' : TroveManager) : List Event :=
  if (t'.troves user).status = (t.troves user).status then []
  else liquidatedLog .liquidateInRecoveryMode user

/-- The events of `sequenceRecoveryModeLoop`. -/
def sequenceRecoveryModeLog (price : Nat) (firstUser : Address) :
    (rounds : Nat) → (user : Address) → LoopState → List Event
  | 0, _, _ => []
  | rounds + 1, user, l =>
    if user ≠ firstUser then
      let nextUser := l.system.sortedTroves.getPrev user
      eventsAfter (l.system.troveManager.getCurrentICR user price) fun ICR =>
        if l.vars.backToNormalMode = false then
          if MCR ≤ ICR ∧ l.vars.remainingLUSDInStabPool = 0 then []
          else eventsAfter (liquidateInRecoveryMode d price user ICR l) fun l' =>
            liquidateInRecoveryModeLog user l.system.troveManager l'.system.troveManager ++
              sequenceRecoveryModeLog price firstUser rounds nextUser l'
        else if ICR < MCR then eventsAfter (liquidateInNormalMode d user l) fun l =>
          liquidatedLog .liquidateInNormalMode user ++
            sequenceRecoveryModeLog price firstUser rounds nextUser l
        else []
    else []

/-- The events of `sequenceNormalModeLoop`. -/
def sequenceNormalModeLog (price : Nat) : (rounds : Nat) → LoopState → List Event
  | 0, _ => []
  | rounds + 1, l =>
    let user := l.system.sortedTroves.getLast
    eventsAfter (l.system.troveManager.getCurrentICR user price) fun ICR =>
      if ICR < MCR then eventsAfter (liquidateInNormalMode d user l) fun l =>
        liquidatedLog .liquidateInNormalMode user ++
          sequenceNormalModeLog price rounds l
      else []

/-- The events of `batchRecoveryModeLoop`. -/
def batchRecoveryModeLog (price : Nat) : (troveArray : List Address) → LoopState → List Event
  | [], _ => []
  | user :: rest, l =>
    if (l.system.troveManager.troves user).status ≠ .active then batchRecoveryModeLog price rest l
    else eventsAfter (l.system.troveManager.getCurrentICR user price) fun ICR =>
      if l.vars.backToNormalMode = false then
        if MCR ≤ ICR ∧ l.vars.remainingLUSDInStabPool = 0 then batchRecoveryModeLog price rest l
        else eventsAfter (liquidateInRecoveryMode d price user ICR l) fun l' =>
          liquidateInRecoveryModeLog user l.system.troveManager l'.system.troveManager ++
            batchRecoveryModeLog price rest l'
      else if ICR < MCR then eventsAfter (liquidateInNormalMode d user l) fun l =>
        liquidatedLog .liquidateInNormalMode user ++
          batchRecoveryModeLog price rest l
      else batchRecoveryModeLog price rest l

/-- The events of `batchNormalModeLoop`. -/
def batchNormalModeLog (price : Nat) : (troveArray : List Address) → LoopState → List Event
  | [], _ => []
  | user :: rest, l =>
    eventsAfter (l.system.troveManager.getCurrentICR user price) fun ICR =>
      if ICR < MCR then eventsAfter (liquidateInNormalMode d user l) fun l =>
        liquidatedLog .liquidateInNormalMode user ++
          batchNormalModeLog price rest l
      else batchNormalModeLog price rest l

/-- The events of the tally of `liquidateTroves`. -/
def liquidateTrovesTotalsLog (price n : Nat) (s : System) : List Event :=
  let LUSDInStabPool := s.stabilityPool.totalLUSDDeposits
  eventsAfter (s.checkRecoveryMode price) fun recoveryModeAtStart =>
    if recoveryModeAtStart then eventsAfter (startRecoveryMode LUSDInStabPool s) fun l =>
      sequenceRecoveryModeLog d price s.sortedTroves.getFirst n s.sortedTroves.getLast l
    else sequenceNormalModeLog d price n (startNormalMode LUSDInStabPool s)

/-- The events of the tally of `batchLiquidateTroves`. -/
def batchLiquidateTrovesTotalsLog (price : Nat) (troveArray : List Address) (s : System) :
    List Event :=
  let LUSDInStabPool := s.stabilityPool.totalLUSDDeposits
  eventsAfter (s.checkRecoveryMode price) fun recoveryModeAtStart =>
    if recoveryModeAtStart then eventsAfter (startRecoveryMode LUSDInStabPool s) fun l =>
      batchRecoveryModeLog d price troveArray l
    else batchNormalModeLog d price troveArray (startNormalMode LUSDInStabPool s)

/-- The event of `_redistributeDebtAndColl`, with the accumulators as it leaves them. -/
def redistributeDebtAndCollLog (debt : Nat) (t : TroveManager) : List Event :=
  if debt = 0 then [] else [.LTermsUpdated t.L_ETH t.L_LUSDDebt]

end Loops

/-! ## Redemptions -/

/-- The events of `redemptionLoop`: the rewards of a trove, and what is left of it once its lot is
taken. -/
def redemptionLog (d : Deployment) (price : Nat) (hints : RedemptionHints) :
    (rounds : Nat) → (currentBorrower : Address) → (maxIterations : Nat) → RedemptionState →
      List Event
  | 0, _, _, _ => []
  | rounds + 1, currentBorrower, maxIterations, r =>
    if currentBorrower ≠ 0 ∧ 0 < r.remainingLUSD ∧ 0 < maxIterations then
      let nextUserToCheck := r.system.sortedTroves.getPrev currentBorrower
      let single := applyPendingRewardsInternal d currentBorrower r.system >>=
        redeemCollateralFromTrove d currentBorrower r.remainingLUSD price hints
      applyPendingRewardsLog currentBorrower r.system.troveManager ++ eventsAfter single fun single =>
        if single.1.cancelledPartial then []
        else
          updated .redeemCollateral currentBorrower single.2.troveManager ::
            redemptionLog d price hints rounds nextUserToCheck (maxIterations - 1)
              { remainingLUSD := r.remainingLUSD - single.1.LUSDLot
                totalLUSDToRedeem := r.totalLUSDToRedeem + single.1.LUSDLot
                totalETHDrawn := r.totalETHDrawn + single.1.ETHLot
                system := single.2 }
    else []

/-- The events of the loop of `redeemCollateral`. -/
def redeemCollateralLog (d : Deployment) (price LUSDamount : Nat) (hints : RedemptionHints)
    (maxIterations : Nat) (s : System) : List Event :=
  eventsAfter (firstRedeemable hints.firstRedemptionHint price s) fun currentBorrower =>
    redemptionLog d price hints (s.sortedTroves.size + 1) currentBorrower
      (if maxIterations = 0 then 2 ^ 256 - 1 else maxIterations)
      { remainingLUSD := LUSDamount, totalLUSDToRedeem := 0, totalETHDrawn := 0, system := s }

end TroveManager

namespace BorrowerOperations

/-- `TroveUpdated` with the amounts that a trove has in storage. -/
def updated (operation : BorrowerOperation) (borrower : Address) (t : TroveManager) : Event :=
  let trove := t.troves borrower
  .troveUpdatedByBorrower borrower trove.debt trove.coll trove.stake operation

/-- The events of `_adjustTrove` and `closeTrove`, from the storage before and after. -/
def troveLog (operation : BorrowerOperation) (price : Nat) (borrower : Address)
    (t t' : TroveManager) : List Event :=
  .lastGoodPriceUpdated price :: (TroveManager.applyPendingRewardsLog borrower t ++
    [updated operation borrower t'])

end BorrowerOperations

namespace StabilityPool

/-- What a depositor operation reads; neither the issuance of LQTY nor the tag is part of it. -/
def depositReading (depositor : Address) (p : StabilityPool) : Tx DepositReading :=
  p.readDeposit depositor (p.deposits depositor).initialValue

/-- The events of `provideToSP` and `withdrawFromSP`, whose new deposit is `newDeposit` of the
compounded one. -/
def depositLog (depositor : Address) (newDeposit : Nat → Nat) (p : StabilityPool) : List Event :=
  eventsAfter (p.depositReading depositor) fun reading =>
    [.userDepositChanged depositor (newDeposit reading.compoundedLUSDDeposit),
      .ETHGainWithdrawn depositor reading.depositorETHGain reading.LUSDLoss]

/-- The events of `withdrawETHGainToTrove` before it calls `BorrowerOperations`. -/
def gainToTroveLog (depositor : Address) (p : StabilityPool) : List Event :=
  eventsAfter (p.depositReading depositor) fun reading =>
    [.ETHGainWithdrawn depositor reading.depositorETHGain reading.LUSDLoss,
      .userDepositChanged depositor reading.compoundedLUSDDeposit]

end StabilityPool

open BorrowerOperations TroveManager StabilityPool in
/-- The events of a completed call that took `s` to `s'`.  `fetchPrice` emits the price that it returns
unless that is the one it emitted last, which an indexer then ignores. -/
def Call.log (d : Deployment) (env : Env) (s s' : System) : Call → List Event
  | .openTrove .. =>
    [.lastGoodPriceUpdated env.price,
      BorrowerOperations.updated .openTrove env.sender s'.troveManager]
  | .addColl .. | .withdrawColl .. | .withdrawLUSD .. | .repayLUSD .. | .adjustTrove .. =>
    troveLog .adjustTrove env.price env.sender s.troveManager s'.troveManager
  | .closeTrove => troveLog .closeTrove env.price env.sender s.troveManager s'.troveManager
  | .liquidate b =>
    .lastGoodPriceUpdated env.price :: eventsAfter (batchLiquidateTrovesTotals d env.price [b] s) fun l =>
      batchLiquidateTrovesTotalsLog d env.price [b] s ++
        redistributeDebtAndCollLog l.totals.totalDebtToRedistribute s'.troveManager
  | .liquidateTroves n =>
    .lastGoodPriceUpdated env.price :: eventsAfter (liquidateTrovesTotals d env.price n s) fun l =>
      liquidateTrovesTotalsLog d env.price n s ++
        redistributeDebtAndCollLog l.totals.totalDebtToRedistribute s'.troveManager
  | .batchLiquidateTroves troveArray =>
    .lastGoodPriceUpdated env.price ::
      eventsAfter (batchLiquidateTrovesTotals d env.price troveArray s) fun l =>
        batchLiquidateTrovesTotalsLog d env.price troveArray s ++
          redistributeDebtAndCollLog l.totals.totalDebtToRedistribute s'.troveManager
  | .redeemCollateral LUSDamount hints maxIterations _ =>
    .lastGoodPriceUpdated env.price ::
      redeemCollateralLog d env.price LUSDamount hints maxIterations s
  | .provideToSP amount _ => depositLog env.sender (· + amount) s.stabilityPool
  | .withdrawFromSP amount =>
    (if amount = 0 then [] else [.lastGoodPriceUpdated env.price]) ++
      depositLog env.sender (fun compounded => compounded - LiquityMath.min amount compounded)
        s.stabilityPool
  | .withdrawETHGainToTrove .. =>
    gainToTroveLog env.sender s.stabilityPool ++
      troveLog .adjustTrove env.price env.sender s.troveManager s'.troveManager
  | .claimCollateral | .registerFrontEnd .. | .stake .. | .unstake .. | .transferLUSD .. |
    .approveLUSD .. | .transferLUSDFrom .. | .transferLQTY .. | .approveLQTY .. |
    .transferLQTYFrom .. => []

/-- The events of a transaction that took `s` to `s'`. -/
def Transaction.log (d : Deployment) (t : Transaction) (s s' : System) : List Event :=
  t.call.log d t.env { s with timestamp := t.env.timestamp } s'

end Liquity
