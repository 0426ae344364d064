import Liquity.LibBase.Decimal

/-!
# `Trove`

Troves as the SDK computes with them: how one trove differs from another, and what a change of a
trove results in.
-/

open Lib

namespace Liquity.LibBase

open Decimal

/-! ## Parameters of a change -/

inductive CollateralChange where
  | depositCollateral (amount : Decimal)
  | withdrawCollateral (amount : Decimal)
  deriving DecidableEq

inductive DebtChange where
  | borrowLUSD (amount : Decimal)
  | repayLUSD (amount : Decimal)
  deriving DecidableEq

structure TroveCreationParams where
  depositCollateral : Decimal
  borrowLUSD : Decimal
  deriving DecidableEq

structure TroveClosureParams where
  withdrawCollateral : Decimal
  repayLUSD : Option Decimal
  deriving DecidableEq

/-- At most one of `depositCollateral` and `withdrawCollateral`, and one of `borrowLUSD` and
`repayLUSD`. -/
structure TroveAdjustmentParams where
  collateralChange : Option CollateralChange
  debtChange : Option DebtChange
  deriving DecidableEq

namespace TroveAdjustmentParams

def depositCollateral (params : TroveAdjustmentParams) : Option Decimal :=
  match params.collateralChange with
  | some (.depositCollateral amount) => some amount
  | _ => none

def withdrawCollateral (params : TroveAdjustmentParams) : Option Decimal :=
  match params.collateralChange with
  | some (.withdrawCollateral amount) => some amount
  | _ => none

def borrowLUSD (params : TroveAdjustmentParams) : Option Decimal :=
  match params.debtChange with
  | some (.borrowLUSD amount) => some amount
  | _ => none

def repayLUSD (params : TroveAdjustmentParams) : Option Decimal :=
  match params.debtChange with
  | some (.repayLUSD amount) => some amount
  | _ => none

end TroveAdjustmentParams

inductive TroveCreationError where
  | missingLiquidationReserve
  deriving DecidableEq

inductive SetToZero where
  | collateral
  | debt
  deriving DecidableEq

/-! ## `_normalizeTroveCreation` -/

def allowedTroveCreationKeys : List String := ["depositCollateral", "borrowLUSD"]

def quoted (keys : List String) : String :=
  ", ".intercalate (keys.map fun k => "'" ++ k ++ "'")

def checkAllowedTroveCreationKeys (entries : List (String × Decimal)) : Js Unit :=
  let badKeys := (entries.map Prod.fst).filter fun k => k ∉ allowedTroveCreationKeys
  require (badKeys = []) ("TroveCreationParams: property " ++ quoted badKeys ++ " not allowed")

def troveCreationParamsFromEntries (entries : List (String × Decimal)) : Js TroveCreationParams :=
  match entries.lookup "depositCollateral", entries.lookup "borrowLUSD" with
  | some depositCollateral, some borrowLUSD => .ok { depositCollateral, borrowLUSD }
  | _, _ =>
    let missingKeys := allowedTroveCreationKeys.filter fun k => (entries.lookup k).isNone
    .error (.reason ("TroveCreationParams: property " ++ quoted missingKeys ++ " missing"))

/-- The parameters are a record, given by its entries; absent values are `undefined`. -/
def normalizeTroveCreation (params : List (String × Option Decimal)) : Js TroveCreationParams := do
  let definedEntries := params.filterMap fun e => e.2.map fun v => (e.1, v)
  checkAllowedTroveCreationKeys definedEntries
  troveCreationParamsFromEntries definedEntries

/-! ## `_normalizeTroveAdjustment` -/

def allowedTroveAdjustmentKeys : List String :=
  ["depositCollateral", "withdrawCollateral", "borrowLUSD", "repayLUSD"]

def checkAllowedTroveAdjustmentKeys (entries : List (String × Decimal)) : Js Unit :=
  let badKeys := (entries.map Prod.fst).filter fun k => k ∉ allowedTroveAdjustmentKeys
  require (badKeys = []) ("TroveAdjustmentParams: property " ++ quoted badKeys ++ " not allowed")

def collateralChangeFrom (depositCollateral withdrawCollateral : Option Decimal) :
    Js (Option CollateralChange) :=
  match depositCollateral, withdrawCollateral with
  | some _, some _ =>
    .error (.reason ("TroveAdjustmentParams: 'depositCollateral' and 'withdrawCollateral' " ++
      "can't be present at the same time"))
  | some amount, none => .ok (some (.depositCollateral amount))
  | none, some amount => .ok (some (.withdrawCollateral amount))
  | none, none => .ok none

def debtChangeFrom (borrowLUSD repayLUSD : Option Decimal) : Js (Option DebtChange) :=
  match borrowLUSD, repayLUSD with
  | some _, some _ =>
    .error (.reason
      "TroveAdjustmentParams: 'borrowLUSD' and 'repayLUSD' can't be present at the same time")
  | some amount, none => .ok (some (.borrowLUSD amount))
  | none, some amount => .ok (some (.repayLUSD amount))
  | none, none => .ok none

def troveAdjustmentParamsFromEntries (entries : List (String × Decimal)) :
    Js TroveAdjustmentParams := do
  let collateralChange ←
    collateralChangeFrom (entries.lookup "depositCollateral") (entries.lookup "withdrawCollateral")
  let debtChange ← debtChangeFrom (entries.lookup "borrowLUSD") (entries.lookup "repayLUSD")
  require (collateralChange ≠ none ∨ debtChange ≠ none)
    "TroveAdjustmentParams: must include at least one non-zero parameter"
  return { collateralChange, debtChange }

def normalizeTroveAdjustment (params : List (String × Option Decimal)) : Js TroveAdjustmentParams := do
  let definedEntries := params.filterMap fun e => e.2.map fun v => (e.1, v)
  checkAllowedTroveAdjustmentKeys definedEntries
  let nonZeroEntries := definedEntries.filter fun e => ¬ e.2.isZero
  troveAdjustmentParamsFromEntries nonZeroEntries

def CollateralChange.entry : CollateralChange → String × Option Decimal
  | .depositCollateral amount => ("depositCollateral", some amount)
  | .withdrawCollateral amount => ("withdrawCollateral", some amount)

def DebtChange.entry : DebtChange → String × Option Decimal
  | .borrowLUSD amount => ("borrowLUSD", some amount)
  | .repayLUSD amount => ("repayLUSD", some amount)

/-- `Object.entries` of the parameters. -/
def TroveAdjustmentParams.entries (params : TroveAdjustmentParams) : List (String × Option Decimal) :=
  (params.debtChange.map DebtChange.entry).toList ++
    (params.collateralChange.map CollateralChange.entry).toList

/-! ## Fees -/

def applyFee (borrowingRate debtIncrease : Decimal) : Decimal :=
  debtIncrease.mul (ONE.add borrowingRate)

def unapplyFee (borrowingRate debtIncrease : Decimal) : Decimal :=
  debtIncrease.divCeil (ONE.add borrowingRate)

/-- The fee is rounded down, whichever way it is added. -/
theorem applyFee_bigNumber (borrowingRate debtIncrease : Decimal) :
    (applyFee borrowingRate debtIncrease).bigNumber =
      debtIncrease.bigNumber + borrowingRate.bigNumber * debtIncrease.bigNumber / DIGITS := by
  change debtIncrease.bigNumber * (DIGITS + borrowingRate.bigNumber) / DIGITS = _
  rw [Nat.mul_add, Nat.mul_comm _ DIGITS, Nat.mul_add_div DIGITS_pos, Nat.mul_comm]

/-! ## Troves -/

structure Trove where
  collateral : Decimal
  debt : Decimal
  deriving DecidableEq

inductive TroveChange where
  | invalidCreation (invalidTrove : Trove) (error : TroveCreationError)
  | creation (params : TroveCreationParams)
  | closure (params : TroveClosureParams)
  | adjustment (params : TroveAdjustmentParams) (setToZero : Option SetToZero)
  deriving DecidableEq

def emptyTrove : Trove := ⟨ZERO, ZERO⟩

namespace Trove

def isEmpty (t : Trove) : Prop := t.collateral.isZero ∧ t.debt.isZero

instance (t : Trove) : Decidable t.isEmpty := inferInstanceAs (Decidable (_ ∧ _))

def netDebt (t : Trove) : Js Decimal := do
  require (¬ t.debt.lt LUSD_LIQUIDATION_RESERVE) "netDebt should not be used when debt < 0.1"
  t.debt.sub LUSD_LIQUIDATION_RESERVE

def collateralRatio (t : Trove) (price : Decimal) : Decimal := t.collateral.mulDiv price t.debt

def collateralRatioIsBelowMinimum (t : Trove) (price : Decimal) : Prop :=
  (t.collateralRatio price).lt MINIMUM_COLLATERAL_RATIO

def collateralRatioIsBelowCritical (t : Trove) (price : Decimal) : Prop :=
  (t.collateralRatio price).lt CRITICAL_COLLATERAL_RATIO

def isOpenableInRecoveryMode (t : Trove) (price : Decimal) : Prop :=
  (t.collateralRatio price).gte CRITICAL_COLLATERAL_RATIO

instance (t : Trove) (price : Decimal) : Decidable (t.collateralRatioIsBelowMinimum price) :=
  inferInstanceAs (Decidable (Decimal.lt _ _))
instance (t : Trove) (price : Decimal) : Decidable (t.collateralRatioIsBelowCritical price) :=
  inferInstanceAs (Decidable (Decimal.lt _ _))
instance (t : Trove) (price : Decimal) : Decidable (t.isOpenableInRecoveryMode price) :=
  inferInstanceAs (Decidable (Decimal.gte _ _))

def add (t that : Trove) : Trove := ⟨t.collateral.add that.collateral, t.debt.add that.debt⟩

def addCollateral (t : Trove) (collateral : Decimal) : Trove :=
  ⟨t.collateral.add collateral, t.debt⟩

def addDebt (t : Trove) (debt : Decimal) : Trove := ⟨t.collateral, t.debt.add debt⟩

/-- `a.gt(b) ? a.sub(b) : Decimal.ZERO` -/
def monus (a b : Decimal) : Decimal := if a.gt b then ⟨a.bigNumber - b.bigNumber⟩ else ZERO

def subtract (t that : Trove) : Trove :=
  ⟨monus t.collateral that.collateral, monus t.debt that.debt⟩

def subtractCollateral (t : Trove) (collateral : Decimal) : Trove :=
  ⟨monus t.collateral collateral, t.debt⟩

def subtractDebt (t : Trove) (debt : Decimal) : Trove := ⟨t.collateral, monus t.debt debt⟩

def multiply (t : Trove) (multiplier : Decimal) : Trove :=
  ⟨t.collateral.mul multiplier, t.debt.mul multiplier⟩

def setCollateral (t : Trove) (collateral : Decimal) : Trove := ⟨collateral, t.debt⟩

def setDebt (t : Trove) (debt : Decimal) : Trove := ⟨t.collateral, debt⟩

def debtChange (t that : Trove) (borrowingRate : Decimal) : Js DebtChange :=
  if that.debt.gt t.debt then do
    let increase ← that.debt.sub t.debt
    return .borrowLUSD (unapplyFee borrowingRate increase)
  else do
    let decrease ← t.debt.sub that.debt
    return .repayLUSD decrease

def collateralChange (t that : Trove) : Js CollateralChange :=
  if that.collateral.gt t.collateral then do
    let increase ← that.collateral.sub t.collateral
    return .depositCollateral increase
  else do
    let decrease ← t.collateral.sub that.collateral
    return .withdrawCollateral decrease

/-- `value.zero && field` -/
def zeroed (value : Decimal) (field : SetToZero) : Option SetToZero :=
  if value.isZero then some field else none

/-- `none` when the troves are equal. -/
def whatChanged (t that : Trove) (borrowingRate : Decimal) : Js (Option TroveChange) :=
  if t.collateral = that.collateral ∧ t.debt = that.debt then .ok none
  else if t.isEmpty then
    if that.debt.lt LUSD_LIQUIDATION_RESERVE then
      .ok (some (.invalidCreation that .missingLiquidationReserve))
    else do
      let netDebt ← that.netDebt
      return some (.creation
        { depositCollateral := that.collateral, borrowLUSD := unapplyFee borrowingRate netDebt })
  else if that.isEmpty then do
    let netDebt ← t.netDebt
    return some (.closure
      { withdrawCollateral := t.collateral
        repayLUSD := if netDebt.isZero then none else some netDebt })
  else if t.collateral = that.collateral then do
    let debtChange ← t.debtChange that borrowingRate
    return some (.adjustment ⟨none, some debtChange⟩ (zeroed that.debt .debt))
  else if t.debt = that.debt then do
    let collateralChange ← t.collateralChange that
    return some (.adjustment ⟨some collateralChange, none⟩ (zeroed that.collateral .collateral))
  else do
    let debtChange ← t.debtChange that borrowingRate
    let collateralChange ← t.collateralChange that
    return some (.adjustment ⟨some collateralChange, some debtChange⟩
      ((zeroed that.debt .debt).or (zeroed that.collateral .collateral)))

/-- The adjusted trove, when none of its amounts is set to zero. -/
def applyAdjustment (t : Trove) (params : TroveAdjustmentParams) (setToZero : Option SetToZero)
    (borrowingRate : Decimal) : Trove :=
  let collateralDecrease := params.withdrawCollateral.getD ZERO
  let collateralIncrease := params.depositCollateral.getD ZERO
  let debtDecrease := params.repayLUSD.getD ZERO
  let debtIncrease := (params.borrowLUSD.map (applyFee borrowingRate)).getD ZERO
  match setToZero with
  | some .collateral => ((t.setCollateral ZERO).addDebt debtIncrease).subtractDebt debtDecrease
  | some .debt =>
    ((t.setDebt ZERO).addCollateral collateralIncrease).subtractCollateral collateralDecrease
  | none =>
    (t.add ⟨collateralIncrease, debtIncrease⟩).subtract ⟨collateralDecrease, debtDecrease⟩

def apply (t : Trove) (change : Option TroveChange) (borrowingRate : Decimal) : Js Trove :=
  match change with
  | none => .ok t
  | some (.invalidCreation invalidTrove _) => do
    require t.isEmpty "Can't create onto existing Trove"
    return invalidTrove
  | some (.creation params) => do
    require t.isEmpty "Can't create onto existing Trove"
    return ⟨params.depositCollateral,
      LUSD_LIQUIDATION_RESERVE.add (applyFee borrowingRate params.borrowLUSD)⟩
  | some (.closure _) => do
    require (¬ t.isEmpty) "Can't close empty Trove"
    return emptyTrove
  | some (.adjustment params setToZero) =>
    .ok (t.applyAdjustment params setToZero borrowingRate)

def create (params : List (String × Option Decimal)) (borrowingRate : Decimal) : Js Trove := do
  let params ← normalizeTroveCreation params
  emptyTrove.apply (some (.creation params)) borrowingRate

def adjust (t : Trove) (params : List (String × Option Decimal)) (borrowingRate : Decimal) :
    Js Trove := do
  let params ← normalizeTroveAdjustment params
  t.apply (some (.adjustment params none)) borrowingRate

def adjustTo (t that : Trove) (borrowingRate : Decimal) : Js TroveAdjustmentParams := do
  let change ← t.whatChanged that borrowingRate
  match change with
  | some (.adjustment params _) => return params
  | _ => .error .assertion

end Trove

/-! ## Pending rewards -/

structure TroveWithPendingRedistribution extends Trove where
  stake : Decimal
  snapshotOfTotalRedistributed : Trove

def TroveWithPendingRedistribution.applyRedistribution (t : TroveWithPendingRedistribution)
    (totalRedistributed : Trove) : Trove :=
  t.toTrove.add ((totalRedistributed.subtract t.snapshotOfTotalRedistributed).multiply t.stake)

end Liquity.LibBase
