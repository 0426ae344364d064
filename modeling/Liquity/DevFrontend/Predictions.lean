import Liquity.DevFrontend.ValidateTroveChange
import Liquity.LibEthers.EthersLiquity
import Liquity.Properties.SdkTrove
import Liquity.Properties.SystemRatio

/-!
# What the frontend predicts

The frontend's numbers are the contract's: the ratios of troves and totals, the mode, and the trove
that a change results in.  Only the liquidation reserve of a new trove is another one.
-/

open Lib

namespace Liquity

open LiquityMath TroveManager LibBase LibEthers DevFrontend Decimal

variable {d : Deployment} {s : System} {env : Env} {price : Nat} {balance : Decimal}

/-! ## The SDK's numbers are the contract's -/

/-- The state of the frontend's store, as the chain has it.  No requirement depends on the account's
own balance. -/
def System.selectForTroveChangeValidation (s : System) (env : Env) (accountBalance : Decimal) :
    TroveChangeValidationSelectedState where
  price := ⟨env.price⟩
  total := getTotal s
  accountBalance
  lusdBalance := getLUSDBalance s env.sender
  numberOfTroves := getNumberOfTroves s

theorem LibBase.Trove.collateralRatio_of_computeCR {coll debt r : Nat}
    (h : computeCR coll debt price = .ok r) :
    (⟨⟨coll⟩, ⟨debt⟩⟩ : LibBase.Trove).collateralRatio ⟨price⟩ = ⟨r⟩ := by
  rcases Nat.eq_zero_or_pos debt with rfl | hpos
  · cases h
    rfl
  · rw [computeCR_ok hpos h]
    exact if_neg (Nat.pos_iff_ne_zero.mp hpos)

theorem getTotal_eq (s : System) : getTotal s = ⟨⟨s.totalColl⟩, ⟨s.totalDebt⟩⟩ := rfl

theorem MINIMUM_COLLATERAL_RATIO_eq : MINIMUM_COLLATERAL_RATIO = ⟨MCR⟩ := by decide
theorem CRITICAL_COLLATERAL_RATIO_eq : CRITICAL_COLLATERAL_RATIO = ⟨CCR⟩ := by decide

section Ratios

variable {coll debt r : Nat}

theorem below_minimum_iff (h : computeCR coll debt price = .ok r) :
    (⟨⟨coll⟩, ⟨debt⟩⟩ : LibBase.Trove).collateralRatioIsBelowMinimum ⟨price⟩ ↔ r < MCR := by
  rw [LibBase.Trove.collateralRatioIsBelowMinimum, LibBase.Trove.collateralRatio_of_computeCR h,
    MINIMUM_COLLATERAL_RATIO_eq]
  rfl

theorem below_critical_iff (h : computeCR coll debt price = .ok r) :
    (⟨⟨coll⟩, ⟨debt⟩⟩ : LibBase.Trove).collateralRatioIsBelowCritical ⟨price⟩ ↔ r < CCR := by
  rw [LibBase.Trove.collateralRatioIsBelowCritical, LibBase.Trove.collateralRatio_of_computeCR h,
    CRITICAL_COLLATERAL_RATIO_eq]
  rfl

theorem openable_iff (h : computeCR coll debt price = .ok r) :
    (⟨⟨coll⟩, ⟨debt⟩⟩ : LibBase.Trove).isOpenableInRecoveryMode ⟨price⟩ ↔ CCR ≤ r := by
  rw [LibBase.Trove.isOpenableInRecoveryMode, LibBase.Trove.collateralRatio_of_computeCR h,
    CRITICAL_COLLATERAL_RATIO_eq]
  rfl

end Ratios

/-- Both sides agree on the mode. -/
theorem recoveryMode_eq {recovery : Bool} (h : s.checkRecoveryMode price = .ok recovery) :
    decide ((getTotal s).collateralRatioIsBelowCritical ⟨price⟩) = recovery := by
  obtain ⟨TCR, hTCR, rfl⟩ := System.checkRecoveryMode_ok h
  have hratio := below_critical_iff (System.getTCR_ok.mp hTCR).2.2
  rw [getTotal_eq]
  exact decide_eq_decide.mpr hratio

theorem LibBase.Trove.monus_eq (a b : Decimal) :
    LibBase.Trove.monus a b = ⟨a.bigNumber - b.bigNumber⟩ := by
  unfold LibBase.Trove.monus
  split
  · rfl
  next hle =>
    have hle : a.bigNumber ≤ b.bigNumber := Nat.not_lt.mp hle
    rw [Nat.sub_eq_zero_of_le hle]
    rfl

/-- The total that the frontend predicts, when a part of it is replaced. -/
theorem total_subtract_add (C D coll debt coll' debt' : Nat) :
    ((⟨⟨C⟩, ⟨D⟩⟩ : LibBase.Trove).subtract ⟨⟨coll⟩, ⟨debt⟩⟩).add ⟨⟨coll'⟩, ⟨debt'⟩⟩ =
      ⟨⟨C - coll + coll'⟩, ⟨D - debt + debt'⟩⟩ := by
  simp only [LibBase.Trove.subtract, LibBase.Trove.add, LibBase.Trove.monus_eq, Decimal.add]

/-- A borrower whose stored trove is all there is to it. -/
structure NoPendingRewards (s : System) (borrower : Address) : Prop where
  ETH : s.troveManager.getPendingETHReward borrower = .ok 0
  LUSDDebt : s.troveManager.getPendingLUSDDebtReward borrower = .ok 0

theorem mul_eq_zero_of_pending {stake growth : Nat} (h : 0 = stake * growth / DECIMAL_PRECISION) :
    (⟨growth⟩ : Decimal).mul ⟨stake⟩ = ZERO := by
  unfold Decimal.mul
  rw [Nat.mul_comm]
  exact congrArg Decimal.mk h.symm

theorem getTrove_eq (hs : Sound d s .none) {b : Address} (hb : NoPendingRewards s b) :
    getTrove s b = ⟨⟨(s.troveManager.troves b).coll⟩, ⟨(s.troveManager.troves b).debt⟩⟩ := by
  by_cases hactive : (s.troveManager.troves b).status = .active
  · have hETH := (getPendingETHReward_ok hactive hb.ETH).2
    have hLUSD := (getPendingLUSDDebtReward_ok hactive hb.LUSDDebt).2
    simp only [getTrove, getTroveBeforeRedistribution, if_pos hactive,
      TroveWithPendingRedistribution.applyRedistribution, getTotalRedistributed,
      LibBase.Trove.subtract, LibBase.Trove.multiply, LibBase.Trove.monus_eq, LibBase.Trove.add,
      mul_eq_zero_of_pending hETH, mul_eq_zero_of_pending hLUSD]
    rfl
  · obtain ⟨hcoll, hdebt, -⟩ := hs.registered.inactive b hactive
    simp only [getTrove, getTroveBeforeRedistribution, if_neg hactive,
      TroveWithPendingRedistribution.applyRedistribution, LibBase.Trove.multiply, Decimal.mul, ZERO,
      Nat.mul_zero, hcoll, hdebt]
    rfl

/-! ## What a valid change is -/

/-- A change that is let through, with the trove it results in. -/
theorem validateTroveChange_valid {original adjusted : LibBase.Trove} {rate : Decimal}
    {state : TroveChangeValidationSelectedState} {change : TroveChange}
    (h : validateTroveChange original adjusted rate state = .ok (.valid change)) :
    ∃ resulting, original.whatChanged adjusted rate = .ok (some change) ∧
      original.apply (some change) rate = .ok resulting ∧
      validateChange change (validationContext original resulting state) = .ok none := by
  simp only [validateTroveChange, bind_ok] at h
  obtain ⟨changed, hchanged, h⟩ := h
  cases changed with
  | none =>
    cases h
  | some changed =>
    simp only [bind_ok] at h
    obtain ⟨resulting, hresulting, error, herror, h⟩ := h
    cases error with
    | some description => cases h
    | none =>
      cases h
      exact ⟨resulting, hchanged, hresulting, herror⟩

/-- Collateral is not deposited and withdrawn at once. -/
theorem LibBase.TroveAdjustmentParams.depositCollateral_of_withdraw {params : TroveAdjustmentParams}
    {w : Decimal} (h : params.withdrawCollateral = some w) : params.depositCollateral = none := by
  unfold TroveAdjustmentParams.withdrawCollateral at h
  unfold TroveAdjustmentParams.depositCollateral
  split at h <;> simp_all

theorem LibBase.TroveAdjustmentParams.borrowLUSD_of_repay {params : TroveAdjustmentParams}
    {r : Decimal} (h : params.repayLUSD = some r) : params.borrowLUSD = none := by
  unfold TroveAdjustmentParams.repayLUSD at h
  unfold TroveAdjustmentParams.borrowLUSD
  split at h <;> simp_all

section WhatChanged

variable {original adjusted : LibBase.Trove} {rate : Decimal} {params : TroveAdjustmentParams}
  {setToZero : Option SetToZero}

theorem sub_of_isZero {a b c : Decimal} (hb : b.isZero) (h : a.sub b = .ok c) : c = a := by
  obtain ⟨-, rfl⟩ := Decimal.sub_ok.mp h
  have hb : b.bigNumber = 0 := hb
  rw [hb]
  rfl

theorem debtChange_zero {change : DebtChange} (hzero : adjusted.debt.isZero)
    (h : original.debtChange adjusted rate = .ok change) : change = .repayLUSD original.debt := by
  have hzero' : adjusted.debt.bigNumber = 0 := hzero
  have hle : ¬ adjusted.debt.gt original.debt := by
    intro hgt
    have hgt : original.debt.bigNumber < adjusted.debt.bigNumber := hgt
    omega
  rw [LibBase.Trove.debtChange, if_neg hle] at h
  obtain ⟨decrease, hdecrease, h⟩ := bind_ok.mp h
  cases h
  rw [sub_of_isZero hzero hdecrease]

theorem collateralChange_zero {change : CollateralChange} (hzero : adjusted.collateral.isZero)
    (h : original.collateralChange adjusted = .ok change) :
    change = .withdrawCollateral original.collateral := by
  have hzero' : adjusted.collateral.bigNumber = 0 := hzero
  have hle : ¬ adjusted.collateral.gt original.collateral := by
    intro hgt
    have hgt : original.collateral.bigNumber < adjusted.collateral.bigNumber := hgt
    omega
  rw [LibBase.Trove.collateralChange, if_neg hle] at h
  obtain ⟨decrease, hdecrease, h⟩ := bind_ok.mp h
  cases h
  rw [sub_of_isZero hzero hdecrease]

theorem zeroed_eq {value : Decimal} {field field' : SetToZero}
    (h : LibBase.Trove.zeroed value field = some field') : value.isZero ∧ field = field' := by
  unfold LibBase.Trove.zeroed at h
  split at h
  next hzero => exact ⟨hzero, Option.some.inj h⟩
  next => cases h

/-- An amount that is set to zero is taken away as a whole. -/
structure AdjustedBy (original : LibBase.Trove) (params : TroveAdjustmentParams)
    (setToZero : Option SetToZero) : Prop where
  nonempty : ¬ original.isEmpty
  collateral : setToZero = some .collateral → params.withdrawCollateral = some original.collateral
  debt : setToZero = some .debt → params.repayLUSD = some original.debt

theorem whatChanged_adjustment
    (h : original.whatChanged adjusted rate = .ok (some (.adjustment params setToZero))) :
    AdjustedBy original params setToZero := by
  unfold LibBase.Trove.whatChanged at h
  split at h
  · cases h
  split at h
  · split at h
    · cases h
    · obtain ⟨netDebt, -, h⟩ := bind_ok.mp h
      cases h
  next hempty =>
  split at h
  · obtain ⟨netDebt, -, h⟩ := bind_ok.mp h
    cases h
  split at h
  · obtain ⟨debtChange, hdebt, h⟩ := bind_ok.mp h
    cases h
    refine ⟨hempty, fun hset => ?_, fun hset => ?_⟩
    · cases (zeroed_eq hset).2
    · rw [debtChange_zero (zeroed_eq hset).1 hdebt]
      rfl
  split at h
  · obtain ⟨collateralChange, hcoll, h⟩ := bind_ok.mp h
    cases h
    refine ⟨hempty, fun hset => ?_, fun hset => ?_⟩
    · rw [collateralChange_zero (zeroed_eq hset).1 hcoll]
      rfl
    · cases (zeroed_eq hset).2
  · simp only [bind_ok] at h
    obtain ⟨debtChange, hdebt, collateralChange, hcoll, h⟩ := h
    cases h
    refine ⟨hempty, fun hset => ?_, fun hset => ?_⟩
    · rcases Option.or_eq_some_iff.mp hset with hset | ⟨-, hset⟩
      · cases (zeroed_eq hset).2
      · rw [collateralChange_zero (zeroed_eq hset).1 hcoll]
        rfl
    · rcases Option.or_eq_some_iff.mp hset with hset | ⟨-, hset⟩
      · rw [debtChange_zero (zeroed_eq hset).1 hdebt]
        rfl
      · cases (zeroed_eq hset).2

/-- What an adjustment results in, however it is computed. -/
theorem AdjustedBy.applied (h : AdjustedBy original params setToZero) :
    original.applyAdjustment params setToZero rate =
      ⟨⟨original.collateral.bigNumber + (params.depositCollateral.getD ZERO).bigNumber -
          (params.withdrawCollateral.getD ZERO).bigNumber⟩,
        ⟨original.debt.bigNumber + ((params.borrowLUSD.map (applyFee rate)).getD ZERO).bigNumber -
          (params.repayLUSD.getD ZERO).bigNumber⟩⟩ := by
  unfold LibBase.Trove.applyAdjustment
  match setToZero with
  | none =>
    simp only [LibBase.Trove.subtract, LibBase.Trove.add, LibBase.Trove.monus_eq, Decimal.add]
  | some .collateral =>
    have hwithdraw := h.collateral rfl
    have hdeposit := params.depositCollateral_of_withdraw hwithdraw
    simp only [LibBase.Trove.subtractDebt, LibBase.Trove.addDebt, LibBase.Trove.setCollateral,
      LibBase.Trove.monus_eq, Decimal.add, hwithdraw, hdeposit, Option.getD_some, Option.getD_none,
      ZERO, Nat.add_zero, Nat.sub_self]
  | some .debt =>
    have hrepay := h.debt rfl
    have hborrow := params.borrowLUSD_of_repay hrepay
    simp only [LibBase.Trove.subtractCollateral, LibBase.Trove.addCollateral, LibBase.Trove.setDebt,
      LibBase.Trove.monus_eq, Decimal.add, hrepay, hborrow, Option.getD_some, Option.getD_none,
      Option.map_none, ZERO, Nat.add_zero, Nat.sub_self]

end WhatChanged

/-! ## Room for the contract's reserve -/

/-- What the contract reserves for a liquidation beyond the SDK. -/
def reserveGap : Decimal :=
  ⟨LUSD_GAS_COMPENSATION - LUSD_LIQUIDATION_RESERVE.bigNumber⟩

/-- With the contract's reserve, a new trove still has the ratio that its mode asks for, and in Normal
Mode leaves the system its ratio; a trove from which LUSD is repaid keeps the minimum debt. -/
def LeavesRoom (resulting : LibBase.Trove) (state : TroveChangeValidationSelectedState) :
    TroveChange → Prop
  | .creation _ =>
    let trove := resulting.addDebt reserveGap
    if state.total.collateralRatioIsBelowCritical state.price then
      trove.isOpenableInRecoveryMode state.price
    else ¬ trove.collateralRatioIsBelowMinimum state.price ∧
      ¬ (state.total.add trove).collateralRatioIsBelowCritical state.price
  | .adjustment params _ =>
    params.repayLUSD.isSome = true → ¬ resulting.debt.lt (LUSD_MINIMUM_DEBT.add reserveGap)
  | _ => True

instance (resulting : LibBase.Trove) (state : TroveChangeValidationSelectedState)
    (change : TroveChange) : Decidable (LeavesRoom resulting state change) :=
  match change with
  | .creation _ => inferInstanceAs (Decidable (ite _ _ _))
  | .adjustment params _ => inferInstanceAs (Decidable (params.repayLUSD.isSome = true → _))
  | .invalidCreation .. | .closure _ => .isTrue trivial

theorem LUSD_MINIMUM_DEBT_add_reserveGap :
    (LUSD_MINIMUM_DEBT.add reserveGap).bigNumber = MIN_NET_DEBT + LUSD_GAS_COMPENSATION := by decide

/-- The debt of a new trove, with the contract's reserve. -/
theorem created_addDebt_reserveGap (deposit borrow rate : Decimal) :
    (⟨deposit, LUSD_LIQUIDATION_RESERVE.add (applyFee rate borrow)⟩ : LibBase.Trove).addDebt
        reserveGap =
      ⟨deposit, ⟨borrow.bigNumber + rate.bigNumber * borrow.bigNumber / DECIMAL_PRECISION +
        LUSD_GAS_COMPENSATION⟩⟩ := by
  have hreserve : LUSD_LIQUIDATION_RESERVE.bigNumber + reserveGap.bigNumber =
      LUSD_GAS_COMPENSATION := by decide
  refine congrArg (LibBase.Trove.mk deposit) (Decimal.ext ?_)
  change LUSD_LIQUIDATION_RESERVE.bigNumber + (applyFee rate borrow).bigNumber +
    reserveGap.bigNumber = _
  rw [applyFee_bigNumber, ← hreserve]
  change _ + (_ + _ / DECIMAL_PRECISION) + _ = _ + _ / DECIMAL_PRECISION + (_ + _)
  omega
end Liquity
