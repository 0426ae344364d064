import Liquity.Redemption

/-!
# `BorrowerOperations`
-/

open Lib

namespace Liquity

open SafeMath LiquityMath LiquityBase

namespace BorrowerOperations

variable (d : Deployment)

/-! ## Requirements -/

def requireSingularCollChange (value collWithdrawal : Nat) : Tx Unit :=
  require (value = 0 ∨ collWithdrawal = 0) "BorrowerOperations: Cannot withdraw and add coll"

def requireNonZeroAdjustment (value collWithdrawal LUSDChange : Nat) : Tx Unit :=
  require (value ≠ 0 ∨ collWithdrawal ≠ 0 ∨ LUSDChange ≠ 0)
    "BorrowerOps: There must be either a collateral change or a debt change"

def requireTroveisActive (borrower : Address) (s : System) : Tx Unit :=
  require ((s.troveManager.troves borrower).status = .active)
    "BorrowerOps: Trove does not exist or is closed"

def requireTroveisNotActive (borrower : Address) (s : System) : Tx Unit :=
  require ((s.troveManager.troves borrower).status ≠ .active) "BorrowerOps: Trove is active"

def requireNonZeroDebtChange (LUSDChange : Nat) : Tx Unit :=
  require (0 < LUSDChange) "BorrowerOps: Debt increase requires non-zero debtChange"

def requireNotInRecoveryMode (price : Nat) (s : System) : Tx Unit := do
  let inRecoveryMode ← s.checkRecoveryMode price
  require (inRecoveryMode = false) "BorrowerOps: Operation not permitted during Recovery Mode"

def requireNoCollWithdrawal (collWithdrawal : Nat) : Tx Unit :=
  require (collWithdrawal = 0) "BorrowerOps: Collateral withdrawal not permitted Recovery Mode"

def requireICRisAboveMCR (newICR : Nat) : Tx Unit :=
  require (MCR ≤ newICR)
    "BorrowerOps: An operation that would result in ICR < MCR is not permitted"

def requireICRisAboveCCR (newICR : Nat) : Tx Unit :=
  require (CCR ≤ newICR) "BorrowerOps: Operation must leave trove with ICR >= CCR"

def requireNewICRisAboveOldICR (newICR oldICR : Nat) : Tx Unit :=
  require (oldICR ≤ newICR) "BorrowerOps: Cannot decrease your Trove's ICR in Recovery Mode"

def requireNewTCRisAboveCCR (newTCR : Nat) : Tx Unit :=
  require (CCR ≤ newTCR)
    "BorrowerOps: An operation that would result in TCR < CCR is not permitted"

def requireAtLeastMinNetDebt (netDebt : Nat) : Tx Unit :=
  require (MIN_NET_DEBT ≤ netDebt) "BorrowerOps: Trove's net debt must be greater than minimum"

def requireValidLUSDRepayment (currentDebt debtRepayment : Nat) : Tx Unit := do
  let repayable ← sub currentDebt LUSD_GAS_COMPENSATION
  require (debtRepayment ≤ repayable)
    "BorrowerOps: Amount repaid must not be larger than the Trove's debt"

def requireSufficientLUSDBalance (borrower : Address) (debtRepayment : Nat) (s : System) :
    Tx Unit :=
  require (debtRepayment ≤ s.lusdToken.balances borrower)
    "BorrowerOps: Caller doesnt have enough LUSD to make repayment"

def requireValidMaxFeePercentage (maxFeePercentage : Nat) (isRecoveryMode : Bool) : Tx Unit :=
  if isRecoveryMode then
    require (maxFeePercentage ≤ DECIMAL_PRECISION)
      "Max fee percentage must less than or equal to 100%"
  else
    require (BORROWING_FEE_FLOOR ≤ maxFeePercentage ∧ maxFeePercentage ≤ DECIMAL_PRECISION)
      "Max fee percentage must be between 0.5% and 100%"

/-! ## Helper functions -/

/-- `_isIncrease ? _amount.add(_change) : _amount.sub(_change)`. -/
def applyChange (isIncrease : Bool) (amount change : Nat) : Tx Nat :=
  if isIncrease then add amount change else sub amount change

/-- `(newColl, newDebt)`. -/
def getNewTroveAmounts (coll debt collChange : Nat) (isCollIncrease : Bool) (debtChange : Nat)
    (isDebtIncrease : Bool) : Tx (Nat × Nat) := do
  let newColl ← applyChange isCollIncrease coll collChange
  let newDebt ← applyChange isDebtIncrease debt debtChange
  return (newColl, newDebt)

def getNewNominalICRFromTroveChange (coll debt collChange : Nat) (isCollIncrease : Bool)
    (debtChange : Nat) (isDebtIncrease : Bool) : Tx Nat := do
  let amounts ← getNewTroveAmounts coll debt collChange isCollIncrease debtChange isDebtIncrease
  computeNominalCR amounts.1 amounts.2

def getNewICRFromTroveChange (coll debt collChange : Nat) (isCollIncrease : Bool)
    (debtChange : Nat) (isDebtIncrease : Bool) (price : Nat) : Tx Nat := do
  let amounts ← getNewTroveAmounts coll debt collChange isCollIncrease debtChange isDebtIncrease
  computeCR amounts.1 amounts.2 price

def getNewTCRFromTroveChange (collChange : Nat) (isCollIncrease : Bool) (debtChange : Nat)
    (isDebtIncrease : Bool) (price : Nat) (s : System) : Tx Nat := do
  let totalColl ← s.getEntireSystemColl
  let totalDebt ← s.getEntireSystemDebt
  let totalColl ← applyChange isCollIncrease totalColl collChange
  let totalDebt ← applyChange isDebtIncrease totalDebt debtChange
  computeCR totalColl totalDebt price

/-- `(collChange, isCollIncrease)`. -/
def getCollChange (collReceived requestedCollWithdrawal : Nat) : Nat × Bool :=
  if collReceived ≠ 0 then (collReceived, true) else (requestedCollWithdrawal, false)

/-- Decays the base rate, mints the fee to the LQTY stakers and returns it. -/
def triggerBorrowingFee (timestamp LUSDAmount maxFeePercentage : Nat) (s : System) :
    Tx (Nat × System) := do
  let s ← s.onTroveManager
    (TroveManager.decayBaseRateFromBorrowing d d.borrowerOperations timestamp)
  let LUSDFee ← s.troveManager.getBorrowingFee LUSDAmount
  requireUserAcceptsFee LUSDFee LUSDAmount maxFeePercentage
  let s ← s.onLQTYStaking (LQTYStaking.increaseF_LUSD d d.borrowerOperations LUSDFee)
  let s ← s.onLUSDToken (LUSDToken.mint d d.borrowerOperations d.lqtyStaking LUSDFee)
  return (LUSDFee, s)

def activePoolAddColl (amount : Nat) (s : System) : Tx System :=
  orRevert (s.callValue d d.borrowerOperations d.activePool amount)
    "BorrowerOps: Sending ETH to ActivePool failed"

def withdrawLUSDInternal (account : Address) (LUSDAmount netDebtIncrease : Nat) (s : System) :
    Tx System := do
  let s ← s.onActivePool (ActivePool.increaseLUSDDebt d d.borrowerOperations netDebtIncrease)
  s.onLUSDToken (LUSDToken.mint d d.borrowerOperations account LUSDAmount)

def repayLUSDInternal (account : Address) (LUSD : Nat) (s : System) : Tx System := do
  let s ← s.onActivePool (ActivePool.decreaseLUSDDebt d d.borrowerOperations LUSD)
  s.onLUSDToken (LUSDToken.burn d d.borrowerOperations account LUSD)

/-! ## `openTrove` -/

/-- The borrowing fee and the system after it was charged; none in Recovery Mode. -/
def openTroveFee (env : Env) (isRecoveryMode : Bool) (maxFeePercentage LUSDAmount : Nat)
    (s : System) : Tx (Nat × System) :=
  if isRecoveryMode = false then
    triggerBorrowingFee d env.timestamp LUSDAmount maxFeePercentage s
  else .ok (0, s)

def requireValidOpening (env : Env) (isRecoveryMode : Bool) (ICR compositeDebt : Nat)
    (s : System) : Tx Unit :=
  if isRecoveryMode then requireICRisAboveCCR ICR
  else do
    requireICRisAboveMCR ICR
    -- predicted from the pools as they are now, before the trove is created
    let newTCR ← getNewTCRFromTroveChange env.value true compositeDebt true env.price s
    requireNewTCRisAboveCCR newTCR

/-- Sets the trove's properties, stake and snapshots and puts it on the list and in the array. -/
def createTrove (borrower : Address) (coll compositeDebt NICR : Nat)
    (upperHint lowerHint : Address) (s : System) : Tx System := do
  let bo := d.borrowerOperations
  let s ← s.onTroveManager (TroveManager.setTroveStatus d bo borrower .active)
  let s ← s.onTroveManager (TroveManager.increaseTroveColl d bo borrower coll)
  let s ← s.onTroveManager (TroveManager.increaseTroveDebt d bo borrower compositeDebt)
  let s ← s.onTroveManager (TroveManager.updateTroveRewardSnapshots d bo borrower)
  let s ← s.onTroveManager (TroveManager.updateStakeAndTotalStakes d bo borrower)
  -- the trove's own ratio is passed in; the list asks for those of the others
  let s ← s.onSortedTroves
    (SortedTroves.insert s.troveManager.getNominalICR d bo borrower NICR upperHint lowerHint)
  s.onTroveManager (TroveManager.addTroveOwnerToArray d bo borrower)

def openTrove (env : Env) (maxFeePercentage LUSDAmount : Nat) (upperHint lowerHint : Address)
    (s : System) : Tx System := do
  let isRecoveryMode ← s.checkRecoveryMode env.price
  requireValidMaxFeePercentage maxFeePercentage isRecoveryMode
  requireTroveisNotActive env.sender s
  let feeAndSystem ← openTroveFee d env isRecoveryMode maxFeePercentage LUSDAmount s
  let s := feeAndSystem.2
  let netDebt ← add LUSDAmount feeAndSystem.1
  requireAtLeastMinNetDebt netDebt
  let compositeDebt ← getCompositeDebt netDebt
  -- the ratios are those of the trove with the fee and the gas reserve on top
  assertThat (0 < compositeDebt)
  let ICR ← computeCR env.value compositeDebt env.price
  let NICR ← computeNominalCR env.value compositeDebt
  requireValidOpening env isRecoveryMode ICR compositeDebt s
  let s ← createTrove d env.sender env.value compositeDebt NICR upperHint lowerHint s
  let s ← activePoolAddColl d env.value s
  let s ← withdrawLUSDInternal d env.sender LUSDAmount netDebt s
  -- the gas reserve is debt of the trove, minted to the gas pool
  withdrawLUSDInternal d d.gasPool LUSD_GAS_COMPENSATION LUSD_GAS_COMPENSATION s

/-! ## `adjustTrove` -/

/-- The arguments of `_adjustTrove`, with `msg.sender` and `msg.value` of the call. -/
structure Adjustment where
  borrower : Address
  collWithdrawal : Nat
  LUSDChange : Nat
  isDebtIncrease : Bool
  upperHint : Address
  lowerHint : Address
  maxFeePercentage : Nat

def requireValidDebtIncrease (a : Adjustment) (isRecoveryMode : Bool) : Tx Unit :=
  if a.isDebtIncrease then do
    requireValidMaxFeePercentage a.maxFeePercentage isRecoveryMode
    requireNonZeroDebtChange a.LUSDChange
  else .ok ()

/-- The borrowing fee of an adjustment that increases the debt in Normal Mode. -/
def adjustmentFee (timestamp : Nat) (a : Adjustment) (isRecoveryMode : Bool) (s : System) :
    Tx (Nat × System) :=
  if a.isDebtIncrease = true ∧ isRecoveryMode = false then
    triggerBorrowingFee d timestamp a.LUSDChange a.maxFeePercentage s
  else .ok (0, s)

/-- The local variables of `_adjustTrove` that its checks read. -/
structure AdjustmentVars where
  collChange : Nat
  isCollIncrease : Bool
  netDebtChange : Nat
  debt : Nat
  coll : Nat
  oldICR : Nat
  newICR : Nat

def requireValidAdjustmentInCurrentMode (price : Nat) (isRecoveryMode : Bool) (a : Adjustment)
    (vars : AdjustmentVars) (s : System) : Tx Unit :=
  if isRecoveryMode then do
    requireNoCollWithdrawal a.collWithdrawal
    -- more collateral or less debt is always allowed in Recovery Mode
    if a.isDebtIncrease then do
      requireICRisAboveCCR vars.newICR
      requireNewICRisAboveOldICR vars.newICR vars.oldICR
    else .ok ()
  else do
    requireICRisAboveMCR vars.newICR
    let newTCR ← getNewTCRFromTroveChange vars.collChange vars.isCollIncrease vars.netDebtChange
      a.isDebtIncrease price s
    requireNewTCRisAboveCCR newTCR

def requireValidRepayment (a : Adjustment) (vars : AdjustmentVars) (s : System) : Tx Unit :=
  if a.isDebtIncrease = false ∧ 0 < a.LUSDChange then do
    let netDebt ← getNetDebt vars.debt
    -- the trove must keep the minimum net debt
    let newNetDebt ← sub netDebt vars.netDebtChange
    requireAtLeastMinNetDebt newNetDebt
    requireValidLUSDRepayment vars.debt vars.netDebtChange
    requireSufficientLUSDBalance a.borrower vars.netDebtChange s
  else .ok ()

def changeTroveColl (borrower : Address) (collChange : Nat) (isCollIncrease : Bool) (s : System) :
    Tx System :=
  if isCollIncrease then
    s.onTroveManager (TroveManager.increaseTroveColl d d.borrowerOperations borrower collChange)
  else
    s.onTroveManager (TroveManager.decreaseTroveColl d d.borrowerOperations borrower collChange)

def changeTroveDebt (borrower : Address) (debtChange : Nat) (isDebtIncrease : Bool) (s : System) :
    Tx System :=
  if isDebtIncrease then
    s.onTroveManager (TroveManager.increaseTroveDebt d d.borrowerOperations borrower debtChange)
  else
    s.onTroveManager (TroveManager.decreaseTroveDebt d d.borrowerOperations borrower debtChange)

def updateTroveFromAdjustment (borrower : Address) (collChange : Nat) (isCollIncrease : Bool)
    (debtChange : Nat) (isDebtIncrease : Bool) (s : System) : Tx System := do
  let s ← changeTroveColl d borrower collChange isCollIncrease s
  changeTroveDebt d borrower debtChange isDebtIncrease s

def moveTokensFromAdjustment (account : Address) (LUSDChange : Nat) (isDebtIncrease : Bool)
    (netDebtChange : Nat) (s : System) : Tx System :=
  if isDebtIncrease then withdrawLUSDInternal d account LUSDChange netDebtChange s
  else repayLUSDInternal d account LUSDChange s

def moveETHFromAdjustment (account : Address) (collChange : Nat) (isCollIncrease : Bool)
    (s : System) : Tx System :=
  if isCollIncrease then activePoolAddColl d collChange s
  else ActivePool.sendETH d d.borrowerOperations account collChange s

def moveTokensAndETHfromAdjustment (account : Address) (collChange : Nat) (isCollIncrease : Bool)
    (LUSDChange : Nat) (isDebtIncrease : Bool) (netDebtChange : Nat) (s : System) :
    Tx System := do
  let s ← moveTokensFromAdjustment d account LUSDChange isDebtIncrease netDebtChange s
  moveETHFromAdjustment d account collChange isCollIncrease s

/-- The checks of `_adjustTrove` that run before any state changes. -/
def requireValidAdjustment (env : Env) (a : Adjustment) (isRecoveryMode : Bool) (s : System) :
    Tx Unit := do
  requireValidDebtIncrease a isRecoveryMode
  requireSingularCollChange env.value a.collWithdrawal
  requireNonZeroAdjustment env.value a.collWithdrawal a.LUSDChange
  requireTroveisActive a.borrower s
  -- a borrower adjusting their own trove, or a pure ETH transfer from the Stability Pool
  assertThat (env.sender = a.borrower ∨
    (env.sender = d.stabilityPool ∧ 0 < env.value ∧ a.LUSDChange = 0))

/-- The local variables of `_adjustTrove`, once the borrowing fee is known. -/
def adjustmentVars (env : Env) (a : Adjustment) (LUSDFee : Nat) (s : System) :
    Tx AdjustmentVars := do
  let change := getCollChange env.value a.collWithdrawal
  let netDebtChange ← add a.LUSDChange LUSDFee
  -- read after the pending rewards were applied, so no reward is missing from the ratios
  let debt := (s.troveManager.troves a.borrower).debt
  let coll := (s.troveManager.troves a.borrower).coll
  let oldICR ← computeCR coll debt env.price
  let newICR ← getNewICRFromTroveChange coll debt change.1 change.2 netDebtChange
    a.isDebtIncrease env.price
  assertThat (a.collWithdrawal ≤ coll)
  return {
    collChange := change.1, isCollIncrease := change.2, netDebtChange, debt, coll, oldICR, newICR }

/-- The state changes of `_adjustTrove` after all checks have passed. -/
def performAdjustment (sender : Address) (a : Adjustment) (vars : AdjustmentVars) (s : System) :
    Tx System := do
  let s ← updateTroveFromAdjustment d a.borrower vars.collChange vars.isCollIncrease
    vars.netDebtChange a.isDebtIncrease s
  let s ← s.onTroveManager
    (TroveManager.updateStakeAndTotalStakes d d.borrowerOperations a.borrower)
  -- from the amounts before the change, which is now applied in storage too
  let newNICR ← getNewNominalICRFromTroveChange vars.coll vars.debt vars.collChange
    vars.isCollIncrease vars.netDebtChange a.isDebtIncrease
  let s ← s.onSortedTroves
    (SortedTroves.reInsert s.troveManager.getNominalICR d d.borrowerOperations a.borrower newNICR
      a.upperHint a.lowerHint)
  moveTokensAndETHfromAdjustment d sender vars.collChange vars.isCollIncrease a.LUSDChange
    a.isDebtIncrease vars.netDebtChange s

def adjustTroveInternal (env : Env) (a : Adjustment) (s : System) : Tx System := do
  let isRecoveryMode ← s.checkRecoveryMode env.price
  requireValidAdjustment d env a isRecoveryMode s
  let s ← TroveManager.applyPendingRewards d d.borrowerOperations a.borrower s
  let feeAndSystem ← adjustmentFee d env.timestamp a isRecoveryMode s
  let s := feeAndSystem.2
  let vars ← adjustmentVars env a feeAndSystem.1 s
  requireValidAdjustmentInCurrentMode env.price isRecoveryMode a vars s
  requireValidRepayment a vars s
  performAdjustment d env.sender a vars s

/-! ## The variants of `adjustTrove` -/

def addColl (env : Env) (upperHint lowerHint : Address) (s : System) : Tx System :=
  adjustTroveInternal d env ⟨env.sender, 0, 0, false, upperHint, lowerHint, 0⟩ s

def moveETHGainToTrove (env : Env) (borrower upperHint lowerHint : Address) (s : System) :
    Tx System := do
  require (env.sender = d.stabilityPool) "BorrowerOps: Caller is not Stability Pool"
  adjustTroveInternal d env ⟨borrower, 0, 0, false, upperHint, lowerHint, 0⟩ s

def withdrawColl (env : Env) (collWithdrawal : Nat) (upperHint lowerHint : Address) (s : System) :
    Tx System :=
  adjustTroveInternal d env ⟨env.sender, collWithdrawal, 0, false, upperHint, lowerHint, 0⟩ s

def withdrawLUSD (env : Env) (maxFeePercentage LUSDAmount : Nat) (upperHint lowerHint : Address)
    (s : System) : Tx System :=
  adjustTroveInternal d env
    ⟨env.sender, 0, LUSDAmount, true, upperHint, lowerHint, maxFeePercentage⟩ s

def repayLUSD (env : Env) (LUSDAmount : Nat) (upperHint lowerHint : Address) (s : System) :
    Tx System :=
  adjustTroveInternal d env ⟨env.sender, 0, LUSDAmount, false, upperHint, lowerHint, 0⟩ s

def adjustTrove (env : Env) (maxFeePercentage collWithdrawal LUSDChange : Nat)
    (isDebtIncrease : Bool) (upperHint lowerHint : Address) (s : System) : Tx System :=
  adjustTroveInternal d env
    ⟨env.sender, collWithdrawal, LUSDChange, isDebtIncrease, upperHint, lowerHint,
      maxFeePercentage⟩ s

/-! ## `closeTrove` and `claimCollateral` -/

def closeTrove (env : Env) (s : System) : Tx System := do
  requireTroveisActive env.sender s
  requireNotInRecoveryMode env.price s
  let s ← TroveManager.applyPendingRewards d d.borrowerOperations env.sender s
  let coll := (s.troveManager.troves env.sender).coll
  let debt := (s.troveManager.troves env.sender).debt
  let repayment ← sub debt LUSD_GAS_COMPENSATION
  requireSufficientLUSDBalance env.sender repayment s
  -- predicted from the pools, which by now hold the trove's rewards
  let newTCR ← getNewTCRFromTroveChange coll false debt false env.price s
  requireNewTCRisAboveCCR newTCR
  let s ← s.onTroveManager (TroveManager.removeStake d d.borrowerOperations env.sender)
  let s ← TroveManager.closeTrove d d.borrowerOperations env.sender s
  let s ← repayLUSDInternal d env.sender repayment s
  -- the gas reserve pays its own share of the debt
  let s ← repayLUSDInternal d d.gasPool LUSD_GAS_COMPENSATION s
  ActivePool.sendETH d d.borrowerOperations env.sender coll s

def claimCollateral (env : Env) (s : System) : Tx System :=
  CollSurplusPool.claimColl d d.borrowerOperations env.sender s

end BorrowerOperations

end Liquity
