import Liquity.LibBase.Trove

/-!
# `validateTroveChange`

The frontend's check of a change of a trove before it is sent.
-/

open Lib

namespace Liquity.DevFrontend

open LibBase Decimal

/-! ## Descriptions -/

/-- A piece of an `ErrorDescription`; an `Amount` is a number and how it is shown. -/
inductive Fragment where
  | text (s : String)
  /-- In `COIN`. -/
  | lusd (amount : Decimal)
  /-- In `BTC`, with 6 digits. -/
  | btc (amount : Decimal)
  /-- `mcrPercent` and `ccrPercent`. -/
  | percent (ratio : Decimal)
  deriving DecidableEq

abbrev ErrorDescription := List Fragment

/-- What `validateTroveChange` returns, but for the description of a valid change. -/
inductive Validation where
  | unchanged
  | invalid (description : ErrorDescription)
  | valid (change : TroveChange)
  deriving DecidableEq

structure TroveChangeValidationSelectedState where
  price : Decimal
  total : Trove
  accountBalance : Decimal
  lusdBalance : Decimal
  numberOfTroves : Nat

structure TroveChangeValidationContext extends TroveChangeValidationSelectedState where
  originalTrove : Trove
  resultingTrove : Trove
  recoveryMode : Bool
  wouldTriggerRecoveryMode : Bool

def totalDebtTooLow : ErrorDescription :=
  [.text "Total debt must be at least ", .lusd LUSD_MINIMUM_DEBT, .text "."]

def ratioBelowMinimum : ErrorDescription :=
  [.text "Collateral ratio must be at least ", .percent MINIMUM_COLLATERAL_RATIO, .text "."]

/-- The text with how far `amount` exceeds `balance`. -/
def exceeds (before : String) (unit : Decimal → Fragment) (amount balance : Decimal)
    (after : String) : Js ErrorDescription := do
  let excess ← amount.sub balance
  return [.text before, unit excess, .text after]

def depositExceedsBalance (depositCollateral accountBalance : Decimal) : Js ErrorDescription :=
  exceeds "The amount you're trying to deposit exceeds your balance by " .btc depositCollateral
    accountBalance "."

/-! ## The checks, by type of change -/

def validateTroveCreation (params : TroveCreationParams) (context : TroveChangeValidationContext) :
    Js (Option ErrorDescription) :=
  if params.borrowLUSD.lt LUSD_MINIMUM_NET_DEBT then
    .ok (some [.text "You must borrow at least ", .lusd LUSD_MINIMUM_NET_DEBT, .text "."])
  else if context.recoveryMode = true ∧
      ¬ context.resultingTrove.isOpenableInRecoveryMode context.price then
    .ok (some [.text "You're not allowed to open a Trove with less than ",
      .percent CRITICAL_COLLATERAL_RATIO, .text (" Collateral Ratio during recovery mode. " ++
        "Please increase your Trove's Collateral Ratio.")])
  else if context.recoveryMode = false ∧
      context.resultingTrove.collateralRatioIsBelowMinimum context.price then
    .ok (some ratioBelowMinimum)
  else if context.recoveryMode = false ∧ context.wouldTriggerRecoveryMode = true then
    .ok (some [.text ("You're not allowed to open a Trove that would cause the Total Collateral " ++
      "Ratio to fall below "), .percent CRITICAL_COLLATERAL_RATIO,
      .text ". Please increase your Trove's Collateral Ratio."])
  else if params.depositCollateral.gt context.accountBalance then do
    let description ← depositExceedsBalance params.depositCollateral context.accountBalance
    return some description
  else .ok none

/-- The checks on the ratios, in the current mode. -/
def validateAdjustmentRatios (params : TroveAdjustmentParams)
    (context : TroveChangeValidationContext) : Option ErrorDescription :=
  if context.recoveryMode then
    if params.withdrawCollateral.isSome then
      some [.text "You're not allowed to withdraw collateral during recovery mode."]
    else if params.borrowLUSD.isSome = true ∧
        context.resultingTrove.collateralRatioIsBelowCritical context.price then
      some [.text "Your collateral ratio must be at least ", .percent CRITICAL_COLLATERAL_RATIO,
        .text " to borrow during recovery mode. Please improve your collateral ratio."]
    else if params.borrowLUSD.isSome = true ∧
        (context.resultingTrove.collateralRatio context.price).lt
          (context.originalTrove.collateralRatio context.price) then
      some [.text "You're not allowed to decrease your collateral ratio during recovery mode."]
    else none
  else if context.resultingTrove.collateralRatioIsBelowMinimum context.price then
    some ratioBelowMinimum
  else if context.wouldTriggerRecoveryMode then
    some [.text ("The adjustment you're trying to make would cause the Total Collateral Ratio to " ++
      "fall below "), .percent CRITICAL_COLLATERAL_RATIO,
      .text ". Please increase your Trove's Collateral Ratio."]
  else none

/-- The checks on `repayLUSD`, if it is there. -/
def validateRepayment (params : TroveAdjustmentParams) (context : TroveChangeValidationContext) :
    Js (Option ErrorDescription) :=
  match params.repayLUSD with
  | none => .ok none
  | some repayLUSD =>
    if context.resultingTrove.debt.lt LUSD_MINIMUM_DEBT then .ok (some totalDebtTooLow)
    else if repayLUSD.gt context.lusdBalance then do
      let description ← exceeds "The amount you're trying to repay exceeds your balance by " .lusd
        repayLUSD context.lusdBalance "."
      return some description
    else .ok none

def validateDeposit (params : TroveAdjustmentParams) (context : TroveChangeValidationContext) :
    Js (Option ErrorDescription) :=
  match params.depositCollateral with
  | none => .ok none
  | some depositCollateral =>
    if depositCollateral.gt context.accountBalance then do
      let description ← depositExceedsBalance depositCollateral context.accountBalance
      return some description
    else .ok none

def validateTroveAdjustment (params : TroveAdjustmentParams)
    (context : TroveChangeValidationContext) : Js (Option ErrorDescription) := do
  match validateAdjustmentRatios params context with
  | some description => return some description
  | none =>
    match ← validateRepayment params context with
    | some description => return some description
    | none => validateDeposit params context

def validateTroveClosure (params : TroveClosureParams) (context : TroveChangeValidationContext) :
    Js (Option ErrorDescription) :=
  if context.numberOfTroves = 1 then
    .ok (some [.text ("You're not allowed to close your Position when there are no other Troves in " ++
      "the system.")])
  else if context.recoveryMode then
    .ok (some [.text "You're not allowed to close your Position during recovery mode."])
  else if (params.repayLUSD.getD ZERO).gt context.lusdBalance then do
    let description ← exceeds "You need " .lusd (params.repayLUSD.getD ZERO) context.lusdBalance
      " more to close your Position."
    return some description
  else if context.wouldTriggerRecoveryMode then
    .ok (some [.text ("You're not allowed to close a Position if it would cause the Total " ++
      "Collateralization Ratio to fall below "), .percent CRITICAL_COLLATERAL_RATIO,
      .text ". Please wait until the Total Collateral Ratio increases."])
  else .ok none

/-! ## `validateTroveChange` -/

def validationContext (originalTrove resultingTrove : Trove)
    (selectedState : TroveChangeValidationSelectedState) : TroveChangeValidationContext :=
  { selectedState with
    originalTrove
    resultingTrove
    recoveryMode := decide (selectedState.total.collateralRatioIsBelowCritical selectedState.price)
    -- `subtract` stops at zero
    wouldTriggerRecoveryMode :=
      decide (((selectedState.total.subtract originalTrove).add
        resultingTrove).collateralRatioIsBelowCritical selectedState.price) }

/-- The error of a change that can be sent, or none. -/
def validateChange (change : TroveChange) (context : TroveChangeValidationContext) :
    Js (Option ErrorDescription) :=
  match change with
  | .invalidCreation .. => .ok (some totalDebtTooLow)
  | .creation params => validateTroveCreation params context
  | .closure params => validateTroveClosure params context
  | .adjustment params _ => validateTroveAdjustment params context

def validateTroveChange (originalTrove adjustedTrove : Trove) (borrowingRate : Decimal)
    (selectedState : TroveChangeValidationSelectedState) : Js Validation := do
  match ← originalTrove.whatChanged adjustedTrove borrowingRate with
  | none => return .unchanged
  | some change =>
    -- the change is applied again to get the trove as it will be, which may differ a little
    let resultingTrove ← originalTrove.apply (some change) borrowingRate
    match ← validateChange change (validationContext originalTrove resultingTrove selectedState) with
    | some description => return .invalid description
    | none => return .valid change

end Liquity.DevFrontend
