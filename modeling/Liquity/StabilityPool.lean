import Liquity.TroveManager

/-!
# `StabilityPool`: offsets, gains and compounded deposits

The running product `P`, the reward sums per epoch and scale, and the functions that read a
deposit back from its snapshots.  The depositor-facing entry points are in `Liquity.Deposits`.
-/

open Lib

namespace Liquity

open SafeMath LiquityMath

namespace StabilityPool

variable (d : Deployment)

def SCALE_FACTOR : Nat := 10 ^ 9

/-- Writes one entry of a nested mapping `epoch => scale => sum`. -/
def setSum (sums : Nat → Nat → Nat) (epoch scale value : Nat) : Nat → Nat → Nat :=
  Function.update sums epoch (Function.update (sums epoch) scale value)

/-! ## LQTY issuance -/

/-- The LQTY per unit staked and the remainder carried to the next issuance. -/
def computeLQTYPerUnitStaked (LQTYIssuance totalLUSDDeposits : Nat) (p : StabilityPool) :
    Tx (Nat × StabilityPool) := do
  let scaled ← mul LQTYIssuance DECIMAL_PRECISION
  let LQTYNumerator ← add scaled p.lastLQTYError
  let LQTYPerUnitStaked ← div LQTYNumerator totalLUSDDeposits
  let distributed ← mul LQTYPerUnitStaked totalLUSDDeposits
  let lastLQTYError ← sub LQTYNumerator distributed
  return (LQTYPerUnitStaked, { p with lastLQTYError })

def updateG (LQTYIssuance : Nat) (p : StabilityPool) : Tx StabilityPool :=
  if p.totalLUSDDeposits = 0 ∨ LQTYIssuance = 0 then .ok p
  else do
    let r ← p.computeLQTYPerUnitStaked LQTYIssuance p.totalLUSDDeposits
    let p := r.2
    -- scaled by the product, so that a deposit divides by the product of its own snapshot
    let marginalLQTYGain ← mul r.1 p.P
    let G ← add (p.epochToScaleToG p.currentEpoch p.currentScale) marginalLQTYGain
    return { p with epochToScaleToG := setSum p.epochToScaleToG p.currentEpoch p.currentScale G }

def triggerLQTYIssuance (timestamp : Nat) (s : System) : Tx System := do
  let issued ← s.communityIssuance.issueLQTY d d.stabilityPool timestamp
  let s := { s with communityIssuance := issued.2 }
  s.onStabilityPool (updateG issued.1)

/-! ## Offset -/

/-- The loss per unit staked, rounded up, and the excess charge carried to the next offset. -/
def computeLUSDLossPerUnitStaked (debtToOffset totalLUSDDeposits lastLUSDLossError : Nat) :
    Tx (Nat × Nat) :=
  if debtToOffset = totalLUSDDeposits then .ok (DECIMAL_PRECISION, 0)
  else do
    let scaled ← mul debtToOffset DECIMAL_PRECISION
    -- what the offset before charged too much is taken off this one
    let LUSDLossNumerator ← sub scaled lastLUSDLossError
    let quotient ← div LUSDLossNumerator totalLUSDDeposits
    let LUSDLossPerUnitStaked ← add quotient 1
    let charged ← mul LUSDLossPerUnitStaked totalLUSDDeposits
    let newError ← sub charged LUSDLossNumerator
    return (LUSDLossPerUnitStaked, newError)

/-- `(ETHGainPerUnitStaked, LUSDLossPerUnitStaked)` and the pool with the new error trackers. -/
def computeRewardsPerUnitStaked (collToAdd debtToOffset totalLUSDDeposits : Nat)
    (p : StabilityPool) : Tx ((Nat × Nat) × StabilityPool) := do
  let scaled ← mul collToAdd DECIMAL_PRECISION
  let ETHNumerator ← add scaled p.lastETHError_Offset
  assertThat (debtToOffset ≤ totalLUSDDeposits)
  -- rounded against the depositors, while the ETH gain below is rounded down
  let loss ← computeLUSDLossPerUnitStaked debtToOffset totalLUSDDeposits p.lastLUSDLossError_Offset
  let ETHGainPerUnitStaked ← div ETHNumerator totalLUSDDeposits
  let distributed ← mul ETHGainPerUnitStaked totalLUSDDeposits
  let lastETHError_Offset ← sub ETHNumerator distributed
  return ((ETHGainPerUnitStaked, loss.1),
    { p with lastETHError_Offset, lastLUSDLossError_Offset := loss.2 })

/-- The new product, scale and epoch for a product factor. -/
structure NewProduct where
  newP : Nat
  scale : Nat
  epoch : Nat

def computeNewProduct (newProductFactor : Nat) (p : StabilityPool) : Tx NewProduct :=
  if newProductFactor = 0 then do
    -- the loss per unit is 1e18: the pool counts as emptied
    let epoch ← LiquitySafeMath128.add p.currentEpoch 1
    return { newP := DECIMAL_PRECISION, scale := 0, epoch }
  else do
    let product ← mul p.P newProductFactor
    let newP ← div product DECIMAL_PRECISION
    if newP < SCALE_FACTOR then do
      -- multiplied up before the division, to keep the digits the first division dropped
      let scaled ← mul product SCALE_FACTOR
      let newP ← div scaled DECIMAL_PRECISION
      let scale ← LiquitySafeMath128.add p.currentScale 1
      return { newP, scale, epoch := p.currentEpoch }
    else return { newP, scale := p.currentScale, epoch := p.currentEpoch }

def updateRewardSumAndProduct (ETHGainPerUnitStaked LUSDLossPerUnitStaked : Nat)
    (p : StabilityPool) : Tx StabilityPool := do
  assertThat (LUSDLossPerUnitStaked ≤ DECIMAL_PRECISION)
  let newProductFactor ← sub DECIMAL_PRECISION LUSDLossPerUnitStaked
  let currentS := p.epochToScaleToSum p.currentEpoch p.currentScale
  let marginalETHGain ← mul ETHGainPerUnitStaked p.P
  -- the sum of the epoch and scale before this offset changes them
  let newS ← add currentS marginalETHGain
  let sums := setSum p.epochToScaleToSum p.currentEpoch p.currentScale newS
  let product ← p.computeNewProduct newProductFactor
  -- fails where one change of scale was not enough
  assertThat (0 < product.newP)
  return { p with
    epochToScaleToSum := sums
    P := product.newP
    currentScale := product.scale
    currentEpoch := product.epoch }

def decreaseLUSD (amount : Nat) (p : StabilityPool) : Tx StabilityPool := do
  let totalLUSDDeposits ← sub p.totalLUSDDeposits amount
  return { p with totalLUSDDeposits }

def moveOffsetCollAndDebt (collToAdd debtToOffset : Nat) (s : System) : Tx System := do
  let s ← s.onActivePool (ActivePool.decreaseLUSDDebt d d.stabilityPool debtToOffset)
  let s ← s.onStabilityPool (decreaseLUSD debtToOffset)
  let s ← s.onLUSDToken (LUSDToken.burn d d.stabilityPool d.stabilityPool debtToOffset)
  ActivePool.sendETH d d.stabilityPool d.stabilityPool collToAdd s

def offset (caller : Address) (debtToOffset collToAdd timestamp : Nat) (s : System) :
    Tx System := do
  require (caller = d.troveManager) "StabilityPool: Caller is not TroveManager"
  let totalLUSD := s.stabilityPool.totalLUSDDeposits
  if totalLUSD = 0 ∨ debtToOffset = 0 then return s
  else do
    -- LQTY accrues on the deposits as they were before the offset
    let s ← triggerLQTYIssuance d timestamp s
    let rewards ← s.stabilityPool.computeRewardsPerUnitStaked collToAdd debtToOffset totalLUSD
    let p ← rewards.2.updateRewardSumAndProduct rewards.1.1 rewards.1.2
    moveOffsetCollAndDebt d collToAdd debtToOffset { s with stabilityPool := p }

/-! ## Gains and compounded deposits -/

/-- The gain of a stake from sums indexed by epoch and scale, over at most one scale change. -/
def gainFromSnapshots (sums : Nat → Nat → Nat) (sumSnapshot initialStake : Nat)
    (snapshots : Snapshots) : Tx Nat := do
  let firstPortion ← sub (sums snapshots.epoch snapshots.scale) sumSnapshot
  let nextScale ← LiquitySafeMath128.add snapshots.scale 1
  -- what was earned after the first change of scale counts a billionth
  let secondPortion ← div (sums snapshots.epoch nextScale) SCALE_FACTOR
  let portions ← add firstPortion secondPortion
  let scaled ← mul initialStake portions
  let perProduct ← div scaled snapshots.P
  div perProduct DECIMAL_PRECISION

def getETHGainFromSnapshots (initialDeposit : Nat) (snapshots : Snapshots) (p : StabilityPool) :
    Tx Nat :=
  gainFromSnapshots p.epochToScaleToSum snapshots.S initialDeposit snapshots

def getDepositorETHGain (depositor : Address) (p : StabilityPool) : Tx Nat :=
  let initialDeposit := (p.deposits depositor).initialValue
  if initialDeposit = 0 then .ok 0
  else p.getETHGainFromSnapshots initialDeposit (p.depositSnapshots depositor)

def getLQTYGainFromSnapshots (initialStake : Nat) (snapshots : Snapshots) (p : StabilityPool) :
    Tx Nat :=
  gainFromSnapshots p.epochToScaleToG snapshots.G initialStake snapshots

def getDepositorLQTYGain (depositor : Address) (p : StabilityPool) : Tx Nat :=
  let initialDeposit := (p.deposits depositor).initialValue
  if initialDeposit = 0 then .ok 0
  else do
    let frontEndTag := (p.deposits depositor).frontEndTag
    -- an untagged depositor keeps the whole gain
    let kickbackRate :=
      if frontEndTag = 0 then DECIMAL_PRECISION else (p.frontEnds frontEndTag).kickbackRate
    let gain ← p.getLQTYGainFromSnapshots initialDeposit (p.depositSnapshots depositor)
    let scaled ← mul kickbackRate gain
    div scaled DECIMAL_PRECISION

def getFrontEndLQTYGain (frontEnd : Address) (p : StabilityPool) : Tx Nat :=
  let frontEndStake := p.frontEndStakes frontEnd
  if frontEndStake = 0 then .ok 0
  else do
    let frontEndShare ← sub DECIMAL_PRECISION (p.frontEnds frontEnd).kickbackRate
    let gain ← p.getLQTYGainFromSnapshots frontEndStake (p.frontEndSnapshots frontEnd)
    let scaled ← mul frontEndShare gain
    div scaled DECIMAL_PRECISION

/-- The stake after `scaleDiff` scale changes, before the dust cut. -/
def compoundedStakeAtScale (initialStake snapshot_P scaleDiff : Nat) (p : StabilityPool) :
    Tx Nat :=
  if scaleDiff = 0 then do
    let scaled ← mul initialStake p.P
    div scaled snapshot_P
  else if scaleDiff = 1 then do
    let scaled ← mul initialStake p.P
    let perProduct ← div scaled snapshot_P
    div perProduct SCALE_FACTOR
  -- two changes of scale: at most a billionth is left
  else .ok 0

def getCompoundedStakeFromSnapshots (initialStake : Nat) (snapshots : Snapshots)
    (p : StabilityPool) : Tx Nat :=
  if snapshots.epoch < p.currentEpoch then .ok 0
  else do
    let scaleDiff ← LiquitySafeMath128.sub p.currentScale snapshots.scale
    let compoundedStake ← p.compoundedStakeAtScale initialStake snapshots.P scaleDiff
    let dust ← div initialStake (10 ^ 9)
    -- less than a billionth of the stake is cut to zero
    return if compoundedStake < dust then 0 else compoundedStake

def getCompoundedLUSDDeposit (depositor : Address) (p : StabilityPool) : Tx Nat :=
  let initialDeposit := (p.deposits depositor).initialValue
  if initialDeposit = 0 then .ok 0
  else p.getCompoundedStakeFromSnapshots initialDeposit (p.depositSnapshots depositor)

def getCompoundedFrontEndStake (frontEnd : Address) (p : StabilityPool) : Tx Nat :=
  let frontEndStake := p.frontEndStakes frontEnd
  if frontEndStake = 0 then .ok 0
  else p.getCompoundedStakeFromSnapshots frontEndStake (p.frontEndSnapshots frontEnd)

/-! ## Snapshots -/

def updateDepositAndSnapshots (depositor : Address) (newValue : Nat) (p : StabilityPool) :
    StabilityPool :=
  if newValue = 0 then
    { p with
      deposits := Function.update p.deposits depositor { initialValue := 0, frontEndTag := 0 }
      depositSnapshots := Function.update p.depositSnapshots depositor ⟨0, 0, 0, 0, 0⟩ }
  else
    { p with
      deposits := Function.update p.deposits depositor
        { p.deposits depositor with initialValue := newValue }
      depositSnapshots := Function.update p.depositSnapshots depositor
        { P := p.P
          S := p.epochToScaleToSum p.currentEpoch p.currentScale
          G := p.epochToScaleToG p.currentEpoch p.currentScale
          scale := p.currentScale
          epoch := p.currentEpoch } }

def updateFrontEndStakeAndSnapshots (frontEnd : Address) (newValue : Nat) (p : StabilityPool) :
    StabilityPool :=
  if newValue = 0 then
    { p with
      frontEndStakes := Function.update p.frontEndStakes frontEnd 0
      frontEndSnapshots := Function.update p.frontEndSnapshots frontEnd ⟨0, 0, 0, 0, 0⟩ }
  else
    { p with
      frontEndStakes := Function.update p.frontEndStakes frontEnd newValue
      frontEndSnapshots := Function.update p.frontEndSnapshots frontEnd
        -- `S` stays: front ends earn no ETH
        { p.frontEndSnapshots frontEnd with
          P := p.P
          G := p.epochToScaleToG p.currentEpoch p.currentScale
          scale := p.currentScale
          epoch := p.currentEpoch } }

end StabilityPool

end Liquity
