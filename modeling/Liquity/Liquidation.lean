import Liquity.StabilityPool

/-!
# `TroveManager`: liquidations

Single-trove liquidation in both modes, the four loops (sequence or batch, normal or recovery
mode) and the three entry points.  The loop bodies, which the source repeats in every loop, are
`liquidateInNormalMode` and `liquidateInRecoveryMode`.
-/

open Lib

namespace Liquity

open SafeMath LiquityMath LiquityBase

structure LiquidationValues where
  entireTroveDebt : Nat
  entireTroveColl : Nat
  collGasCompensation : Nat
  LUSDGasCompensation : Nat
  debtToOffset : Nat
  collToSendToSP : Nat
  debtToRedistribute : Nat
  collToRedistribute : Nat
  collSurplus : Nat
  deriving DecidableEq

structure LiquidationTotals where
  totalCollInSequence : Nat
  totalDebtInSequence : Nat
  totalCollGasCompensation : Nat
  totalLUSDGasCompensation : Nat
  totalDebtToOffset : Nat
  totalCollToSendToSP : Nat
  totalDebtToRedistribute : Nat
  totalCollToRedistribute : Nat
  totalCollSurplus : Nat
  deriving DecidableEq

/-- The memory struct as Solidity allocates it. -/
def LiquidationValues.zero : LiquidationValues := ⟨0, 0, 0, 0, 0, 0, 0, 0, 0⟩

def LiquidationTotals.zero : LiquidationTotals := ⟨0, 0, 0, 0, 0, 0, 0, 0, 0⟩

namespace TroveManager

/-! ## Splitting a trove -/

/-- How a trove's debt and collateral are split between the Stability Pool and the other troves. -/
structure OffsetAndRedistribution where
  debtToOffset : Nat
  collToSendToSP : Nat
  debtToRedistribute : Nat
  collToRedistribute : Nat

def getOffsetAndRedistributionVals (debt coll LUSDInStabPool : Nat) :
    Tx OffsetAndRedistribution :=
  if 0 < LUSDInStabPool then do
    let debtToOffset := LiquityMath.min debt LUSDInStabPool
    let scaled ← mul coll debtToOffset
    let collToSendToSP ← div scaled debt
    let debtToRedistribute ← sub debt debtToOffset
    let collToRedistribute ← sub coll collToSendToSP
    return { debtToOffset, collToSendToSP, debtToRedistribute, collToRedistribute }
  else .ok
    { debtToOffset := 0, collToSendToSP := 0, debtToRedistribute := debt,
      collToRedistribute := coll }

def getCappedOffsetVals (entireTroveDebt entireTroveColl price : Nat) : Tx LiquidationValues := do
  let scaled ← mul entireTroveDebt MCR
  let cappedCollPortion ← div scaled price
  let collGasCompensation := getCollGasCompensation cappedCollPortion
  let collToSendToSP ← sub cappedCollPortion collGasCompensation
  let collSurplus ← sub entireTroveColl cappedCollPortion
  return {
    entireTroveDebt, entireTroveColl, collGasCompensation
    LUSDGasCompensation := LUSD_GAS_COMPENSATION
    debtToOffset := entireTroveDebt
    collToSendToSP
    debtToRedistribute := 0
    collToRedistribute := 0
    collSurplus }

/-! ## Liquidating one trove -/

section Single

variable (d : Deployment)

/-- What every liquidated trove goes through: its pending rewards move to the Active Pool, its stake
is removed and it is closed.  The split of its debt and collateral reads no storage, so the callers
compute it before these three calls where the source computes it between them. -/
def closeLiquidatedTrove (borrower : Address) (entire : EntireDebtAndColl) (s : System) :
    Tx System := do
  -- the list and the array of owners are still intact here; only the last call touches them
  let s ← movePendingTroveRewardsToActivePool d entire.pendingLUSDDebtReward
    entire.pendingETHReward s
  let s ← s.onTroveManager (removeStakeInternal borrower)
  closeTroveInternal d borrower .closedByLiquidation s

/-- The liquidation values of a trove whose collateral, less the gas compensation, is split by
`vals`. -/
def fullLiquidationValues (entire : EntireDebtAndColl) (vals : OffsetAndRedistribution) :
    LiquidationValues :=
  { entireTroveDebt := entire.debt
    entireTroveColl := entire.coll
    collGasCompensation := getCollGasCompensation entire.coll
    LUSDGasCompensation := LUSD_GAS_COMPENSATION
    debtToOffset := vals.debtToOffset
    collToSendToSP := vals.collToSendToSP
    debtToRedistribute := vals.debtToRedistribute
    collToRedistribute := vals.collToRedistribute
    collSurplus := 0 }

def liquidateNormalMode (borrower : Address) (LUSDInStabPool : Nat) (s : System) :
    Tx (LiquidationValues × System) := do
  let entire ← s.troveManager.getEntireDebtAndColl borrower
  let collToLiquidate ← sub entire.coll (getCollGasCompensation entire.coll)
  let vals ← getOffsetAndRedistributionVals entire.debt collToLiquidate LUSDInStabPool
  let s ← closeLiquidatedTrove d borrower entire s
  return (fullLiquidationValues entire vals, s)

/-- Books a surplus, if there is one. -/
def accountSurplus (borrower : Address) (collSurplus : Nat) (s : System) : Tx System :=
  if 0 < collSurplus then
    s.onCollSurplusPool (CollSurplusPool.accountSurplus d d.troveManager borrower collSurplus)
  else .ok s

def liquidateRecoveryMode (borrower : Address) (ICR LUSDInStabPool TCR price : Nat) (s : System) :
    Tx (LiquidationValues × System) :=
  -- don't liquidate if last trove
  if s.troveManager.troveOwners.length ≤ 1 then .ok (.zero, s)
  else do
    let entire ← s.troveManager.getEntireDebtAndColl borrower
    let collToLiquidate ← sub entire.coll (getCollGasCompensation entire.coll)
    -- at most 100%: nothing is offset
    if ICR ≤ pct100 then do
      let vals :=
        { debtToOffset := 0, collToSendToSP := 0, debtToRedistribute := entire.debt,
          collToRedistribute := collToLiquidate }
      let s ← closeLiquidatedTrove d borrower entire s
      return (fullLiquidationValues entire vals, s)
    -- below the minimum: as in Normal Mode
    else if pct100 < ICR ∧ ICR < MCR then do
      let vals ← getOffsetAndRedistributionVals entire.debt collToLiquidate LUSDInStabPool
      let s ← closeLiquidatedTrove d borrower entire s
      return (fullLiquidationValues entire vals, s)
    -- below the TCR, and the Stability Pool can take the whole debt
    else if MCR ≤ ICR ∧ ICR < TCR ∧ entire.debt ≤ LUSDInStabPool then do
      assertThat (LUSDInStabPool ≠ 0)
      let single ← getCappedOffsetVals entire.debt entire.coll price
      let s ← closeLiquidatedTrove d borrower entire s
      let s ← accountSurplus d borrower single.collSurplus s
      return (single, s)
    -- everything else is skipped, with zero values
    else return (.zero, s)

end Single

/-! ## Running totals -/

def addLiquidationValuesToTotals (oldTotals : LiquidationTotals) (single : LiquidationValues) :
    Tx LiquidationTotals := do
  let totalCollGasCompensation ← add oldTotals.totalCollGasCompensation single.collGasCompensation
  let totalLUSDGasCompensation ← add oldTotals.totalLUSDGasCompensation single.LUSDGasCompensation
  let totalDebtInSequence ← add oldTotals.totalDebtInSequence single.entireTroveDebt
  let totalCollInSequence ← add oldTotals.totalCollInSequence single.entireTroveColl
  let totalDebtToOffset ← add oldTotals.totalDebtToOffset single.debtToOffset
  let totalCollToSendToSP ← add oldTotals.totalCollToSendToSP single.collToSendToSP
  let totalDebtToRedistribute ← add oldTotals.totalDebtToRedistribute single.debtToRedistribute
  let totalCollToRedistribute ← add oldTotals.totalCollToRedistribute single.collToRedistribute
  let totalCollSurplus ← add oldTotals.totalCollSurplus single.collSurplus
  return {
    totalCollInSequence, totalDebtInSequence, totalCollGasCompensation, totalLUSDGasCompensation
    totalDebtToOffset, totalCollToSendToSP, totalDebtToRedistribute, totalCollToRedistribute
    totalCollSurplus }

def checkPotentialRecoveryMode (entireSystemColl entireSystemDebt price : Nat) : Tx Bool := do
  let TCR ← computeCR entireSystemColl entireSystemDebt price
  return decide (TCR < CCR)

/-- The loop variables of a liquidation sequence. -/
structure LiquidationSequence where
  remainingLUSDInStabPool : Nat
  backToNormalMode : Bool
  entireSystemDebt : Nat
  entireSystemColl : Nat

/-- What a loop carries from one trove to the next. -/
structure LoopState where
  vars : LiquidationSequence
  totals : LiquidationTotals
  system : System

section Loops

variable (d : Deployment)

/-- The loop body in Normal Mode (and in Recovery Mode after the system has left it). -/
def liquidateInNormalMode (user : Address) (l : LoopState) : Tx LoopState := do
  let single ← liquidateNormalMode d user l.vars.remainingLUSDInStabPool l.system
  let remainingLUSDInStabPool ← sub l.vars.remainingLUSDInStabPool single.1.debtToOffset
  let totals ← addLiquidationValuesToTotals l.totals single.1
  return { vars := { l.vars with remainingLUSDInStabPool }, totals, system := single.2 }

/-- The loop body while the system is in Recovery Mode. -/
def liquidateInRecoveryMode (price : Nat) (user : Address) (ICR : Nat) (l : LoopState) :
    Tx LoopState := do
  let TCR ← computeCR l.vars.entireSystemColl l.vars.entireSystemDebt price
  let single ←
    liquidateRecoveryMode d user ICR l.vars.remainingLUSDInStabPool TCR price l.system
  let remainingLUSDInStabPool ← sub l.vars.remainingLUSDInStabPool single.1.debtToOffset
  -- redistributed amounts stay in the system; what is offset, paid or set aside leaves it
  let entireSystemDebt ← sub l.vars.entireSystemDebt single.1.debtToOffset
  let afterSP ← sub l.vars.entireSystemColl single.1.collToSendToSP
  let afterGas ← sub afterSP single.1.collGasCompensation
  let entireSystemColl ← sub afterGas single.1.collSurplus
  let totals ← addLiquidationValuesToTotals l.totals single.1
  let inRecoveryMode ← checkPotentialRecoveryMode entireSystemColl entireSystemDebt price
  return {
    vars := {
      remainingLUSDInStabPool, entireSystemDebt, entireSystemColl
      backToNormalMode := !inRecoveryMode }
    totals
    system := single.2 }

/-- The loop of `_getTotalsFromLiquidateTrovesSequence_RecoveryMode`: `user` walks from the last
trove upwards and never reaches `firstUser`. -/
def sequenceRecoveryModeLoop (price : Nat) (firstUser : Address) :
    (rounds : Nat) → (user : Address) → LoopState → Tx LoopState
  | 0, _, l => .ok l
  | rounds + 1, user, l =>
    if user ≠ firstUser then do
      -- saved first, because a liquidation removes `user` from the list
      let nextUser := l.system.sortedTroves.getPrev user
      let ICR ← l.system.troveManager.getCurrentICR user price
      if l.vars.backToNormalMode = false then
        if MCR ≤ ICR ∧ l.vars.remainingLUSDInStabPool = 0 then return l
        else do
          let l ← liquidateInRecoveryMode d price user ICR l
          sequenceRecoveryModeLoop price firstUser rounds nextUser l
      else if ICR < MCR then do
        let l ← liquidateInNormalMode d user l
        sequenceRecoveryModeLoop price firstUser rounds nextUser l
      else return l
    else .ok l

/-- The loop of `_getTotalsFromLiquidateTrovesSequence_NormalMode`. -/
def sequenceNormalModeLoop (price : Nat) : (rounds : Nat) → LoopState → Tx LoopState
  | 0, l => .ok l
  | rounds + 1, l => do
    let user := l.system.sortedTroves.getLast
    let ICR ← l.system.troveManager.getCurrentICR user price
    if ICR < MCR then do
      let l ← liquidateInNormalMode d user l
      sequenceNormalModeLoop price rounds l
    else return l

/-- The loop of `_getTotalFromBatchLiquidate_RecoveryMode`. -/
def batchRecoveryModeLoop (price : Nat) : (troveArray : List Address) → LoopState → Tx LoopState
  | [], l => .ok l
  | user :: rest, l =>
    if (l.system.troveManager.troves user).status ≠ .active then batchRecoveryModeLoop price rest l
    else do
      let ICR ← l.system.troveManager.getCurrentICR user price
      if l.vars.backToNormalMode = false then
        -- `continue`, where the sequence breaks
        if MCR ≤ ICR ∧ l.vars.remainingLUSDInStabPool = 0 then batchRecoveryModeLoop price rest l
        else do
          let l ← liquidateInRecoveryMode d price user ICR l
          batchRecoveryModeLoop price rest l
      else if ICR < MCR then do
        let l ← liquidateInNormalMode d user l
        batchRecoveryModeLoop price rest l
      else batchRecoveryModeLoop price rest l

/-- The loop of `_getTotalsFromBatchLiquidate_NormalMode`. -/
def batchNormalModeLoop (price : Nat) : (troveArray : List Address) → LoopState → Tx LoopState
  | [], l => .ok l
  | user :: rest, l => do
    -- no check of the status: a closed trove has no debt and the largest ratio
    let ICR ← l.system.troveManager.getCurrentICR user price
    if ICR < MCR then do
      let l ← liquidateInNormalMode d user l
      batchNormalModeLoop price rest l
    else batchNormalModeLoop price rest l

/-- The loop state before the first trove, in Recovery Mode. -/
def startRecoveryMode (LUSDInStabPool : Nat) (s : System) : Tx LoopState := do
  let entireSystemDebt ← s.getEntireSystemDebt
  let entireSystemColl ← s.getEntireSystemColl
  return {
    vars := {
      remainingLUSDInStabPool := LUSDInStabPool, backToNormalMode := false
      entireSystemDebt, entireSystemColl }
    totals := .zero
    system := s }

/-- The loop state before the first trove, in Normal Mode; the system totals stay unset. -/
def startNormalMode (LUSDInStabPool : Nat) (s : System) : LoopState :=
  { vars := {
      remainingLUSDInStabPool := LUSDInStabPool, backToNormalMode := false
      entireSystemDebt := 0, entireSystemColl := 0 }
    totals := .zero
    system := s }

def getTotalsFromLiquidateTrovesSequence_RecoveryMode (price LUSDInStabPool n : Nat)
    (s : System) : Tx LoopState := do
  let l ← startRecoveryMode LUSDInStabPool s
  sequenceRecoveryModeLoop d price s.sortedTroves.getFirst n s.sortedTroves.getLast l

def getTotalsFromLiquidateTrovesSequence_NormalMode (price LUSDInStabPool n : Nat)
    (s : System) : Tx LoopState :=
  sequenceNormalModeLoop d price n (startNormalMode LUSDInStabPool s)

def getTotalFromBatchLiquidate_RecoveryMode (price LUSDInStabPool : Nat)
    (troveArray : List Address) (s : System) : Tx LoopState := do
  let l ← startRecoveryMode LUSDInStabPool s
  batchRecoveryModeLoop d price troveArray l

def getTotalsFromBatchLiquidate_NormalMode (price LUSDInStabPool : Nat)
    (troveArray : List Address) (s : System) : Tx LoopState :=
  batchNormalModeLoop d price troveArray (startNormalMode LUSDInStabPool s)

/-- The tally of `liquidateTroves`, in the mode the system is in. -/
def liquidateTrovesTotals (price n : Nat) (s : System) : Tx LoopState := do
  -- both modes read the deposits before anything is settled
  let LUSDInStabPool := s.stabilityPool.totalLUSDDeposits
  let recoveryModeAtStart ← s.checkRecoveryMode price
  if recoveryModeAtStart then
    getTotalsFromLiquidateTrovesSequence_RecoveryMode d price LUSDInStabPool n s
  else getTotalsFromLiquidateTrovesSequence_NormalMode d price LUSDInStabPool n s

/-- The tally of `batchLiquidateTroves`, in the mode the system is in. -/
def batchLiquidateTrovesTotals (price : Nat) (troveArray : List Address) (s : System) :
    Tx LoopState := do
  let LUSDInStabPool := s.stabilityPool.totalLUSDDeposits
  let recoveryModeAtStart ← s.checkRecoveryMode price
  if recoveryModeAtStart then
    getTotalFromBatchLiquidate_RecoveryMode d price LUSDInStabPool troveArray s
  else getTotalsFromBatchLiquidate_NormalMode d price LUSDInStabPool troveArray s

end Loops

/-! ## Settling the totals -/

section Settle

variable (d : Deployment)

def sendLUSDGasCompensation (liquidator : Address) (LUSD : Nat) (s : System) : Tx System :=
  if 0 < LUSD then
    s.onLUSDToken (LUSDToken.returnFromPool d d.troveManager d.gasPool liquidator LUSD)
  else .ok s

def sendGasCompensation (liquidator : Address) (LUSD ETH : Nat) (s : System) : Tx System := do
  let s ← sendLUSDGasCompensation d liquidator LUSD s
  if 0 < ETH then ActivePool.sendETH d d.troveManager liquidator ETH s else return s

def sendCollSurplus (collSurplus : Nat) (s : System) : Tx System :=
  if 0 < collSurplus then ActivePool.sendETH d d.troveManager d.collSurplusPool collSurplus s
  else .ok s

/-- The second half of `liquidateTroves` and `batchLiquidateTroves`: move the tallied amounts to
their pools, refresh the snapshots and pay the caller. -/
def settleLiquidation (env : Env) (totals : LiquidationTotals) (s : System) : Tx System := do
  require (0 < totals.totalDebtInSequence) "TroveManager: nothing to liquidate"
  let s ← StabilityPool.offset d d.troveManager totals.totalDebtToOffset
    totals.totalCollToSendToSP env.timestamp s
  let s ← redistributeDebtAndColl d totals.totalDebtToRedistribute totals.totalCollToRedistribute s
  let s ← sendCollSurplus d totals.totalCollSurplus s
  let s ← updateSystemSnapshots_excludeCollRemainder totals.totalCollGasCompensation s
  -- `vars.liquidatedColl`, only logged, but computed with checked subtractions
  let afterGas ← sub totals.totalCollInSequence totals.totalCollGasCompensation
  let _liquidatedColl ← sub afterGas totals.totalCollSurplus
  sendGasCompensation d env.sender totals.totalLUSDGasCompensation
    totals.totalCollGasCompensation s

def liquidateTroves (env : Env) (n : Nat) (s : System) : Tx System := do
  let l ← liquidateTrovesTotals d env.price n s
  settleLiquidation d env l.totals l.system

def batchLiquidateTroves (env : Env) (troveArray : List Address) (s : System) : Tx System := do
  require (troveArray.length ≠ 0) "TroveManager: Calldata address array must not be empty"
  let l ← batchLiquidateTrovesTotals d env.price troveArray s
  settleLiquidation d env l.totals l.system

def liquidate (env : Env) (borrower : Address) (s : System) : Tx System := do
  requireTroveIsActive borrower s.troveManager
  batchLiquidateTroves d env [borrower] s

end Settle

end TroveManager

end Liquity
