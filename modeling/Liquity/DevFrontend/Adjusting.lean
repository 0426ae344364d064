import Liquity.DevFrontend.Predictions
import Liquity.Requirements

/-!
# Adjusting a trove from the frontend
-/

open Lib

namespace Liquity

open LiquityMath TroveManager LibBase LibEthers DevFrontend Decimal

variable {d : Deployment} {s s' : System} {env : Env} {balance : Decimal}

/-- Without pending rewards nothing changes when they are applied. -/
theorem RewardsApplied.trove_eq {b : Address} {s₁ : System} (h : RewardsApplied b s s₁)
    (hb : NoPendingRewards s b) :
    (s₁.troveManager.troves b).coll = (s.troveManager.troves b).coll ∧
      (s₁.troveManager.troves b).debt = (s.troveManager.troves b).debt := by
  rcases h.troveManager with ht | ⟨hpending, ht⟩
  · rw [ht]
    exact ⟨rfl, rfl⟩
  · have hactive : (s.troveManager.troves b).status = .active := by
      by_contra hinactive
      simp [hasPendingRewards, hinactive] at hpending
    have hETH := (getPendingETHReward_ok hactive hb.ETH).2
    have hLUSD := (getPendingLUSDDebtReward_ok hactive hb.LUSDDebt).2
    rw [ht]
    simp [applied, ← hETH, ← hLUSD]

namespace BorrowerOperations

variable {a : Adjustment} {recovery : Bool} {s₁ : System} {r : Nat × System} {vars : AdjustmentVars}

/-- What the checks of an adjustment see. -/
structure Checking (d : Deployment) (env : Env) (a : Adjustment) (s : System) (recovery : Bool)
    (r : Nat × System) (vars : AdjustmentVars) : Prop where
  mode : s.checkRecoveryMode env.price = .ok recovery
  applied : ∃ s₁, RewardsApplied a.borrower s s₁ ∧
    adjustmentFee d env.timestamp a recovery s₁ = .ok r
  vars_ok : adjustmentVars env a r.1 r.2 = .ok vars

theorem adjustTroveInternal_meets (hd : d.Wired) (hs : Sound d s .none)
    (h : ∀ recovery r vars, Checking d env a s recovery r vars →
      MeetsRequirements (requireValidAdjustmentInCurrentMode env.price recovery a vars r.2) ∧
        MeetsRequirements (requireValidRepayment a vars r.2)) :
    MeetsRequirements (adjustTroveInternal d env a s) := by
  unfold adjustTroveInternal
  refine .bind (by simp) fun recovery hmode => .bind (by simp) fun _ _ => .bind (by simp) fun s₁ h₁ =>
    .bind (by simp) fun r hr => .bind (by simp) fun vars hvars => ?_
  have happlied : RewardsApplied a.borrower s s₁ := by
    obtain ⟨-, -, h₁⟩ := bind_ok.mp h₁
    exact (applyPendingRewardsInternal_evolves hd hs PlainOnly.plain h₁).2
  obtain ⟨hmodeValid, hrepay⟩ := h recovery r vars ⟨hmode, ⟨s₁, happlied, hr⟩, hvars⟩
  exact .bind hmodeValid fun _ _ => .bind hrepay fun _ _ => by simp

theorem adjustTroveInternal_checked (hd : d.Wired) (hs : Sound d s .none)
    (h : adjustTroveInternal d env a s = .ok s') :
    (s.troveManager.troves a.borrower).status = .active ∧ ∃ recovery r vars,
      Checking d env a s recovery r vars ∧ requireValidRepayment a vars r.2 = .ok () := by
  simp only [adjustTroveInternal, bind_ok, applyPendingRewards] at h
  obtain ⟨recovery, hmode, _, hvalid, s₁, ⟨-, -, h₁⟩, r, hr, vars, hvars, _, -, _, hrepay, -⟩ := h
  simp only [requireValidAdjustment, requireTroveisActive, bind_ok, require_ok, assertThat_ok] at hvalid
  obtain ⟨-, -, -, -, -, -, -, hactive, -⟩ := hvalid
  have happlied := (applyPendingRewardsInternal_evolves hd hs PlainOnly.plain h₁).2
  exact ⟨hactive, recovery, r, vars, ⟨hmode, ⟨s₁, happlied, hr⟩, hvars⟩, hrepay⟩

/-- The fee of an adjustment, at the rate that holds for it. -/
theorem adjustmentFee_fee {rate : Nat} {b : Address}
    (hrate : s.HasBorrowingRate env rate) (hmode : s.checkRecoveryMode env.price = .ok recovery)
    (happlied : RewardsApplied b s s₁) (h : adjustmentFee d env.timestamp a recovery s₁ = .ok r) :
    r.1 = if a.isDebtIncrease = true then rate * a.LUSDChange / DECIMAL_PRECISION else 0 := by
  obtain ⟨recovery', hmode', hzero, hdecayed⟩ := hrate
  rw [hmode] at hmode'
  cases hmode'
  unfold adjustmentFee at h
  split at h
  next hfee =>
    obtain ⟨charged, hcharged, hr⟩ := triggerBorrowingFee_fee h
    -- pending rewards do not change the base rate
    have hsame : s₁.troveManager.getBorrowingRateWithDecay env.timestamp =
        s.troveManager.getBorrowingRateWithDecay env.timestamp := by
      rcases happlied.troveManager with ht | ⟨-, ht⟩
      · rw [ht]
      · rw [ht]
        rfl
    rw [hsame, hdecayed hfee.2] at hcharged
    cases hcharged
    rw [hr, if_pos hfee.1]
  next hno =>
    cases h
    split
    next hinc =>
      have hrecovery : recovery = true := by
        by_contra hnormal
        exact hno ⟨hinc, by simpa using hnormal⟩
      rw [hzero hrecovery, Nat.zero_mul, Nat.zero_div]
    next => rfl

namespace Checking

/-- The checks see the stored trove, the totals, and the balances but for a fee. -/
theorem reads (h : Checking d env a s recovery r vars) (hb : NoPendingRewards s a.borrower) :
    vars.coll = (s.troveManager.troves a.borrower).coll ∧
      vars.debt = (s.troveManager.troves a.borrower).debt ∧
      (r.2.totalColl = s.totalColl ∧ r.2.totalDebt = s.totalDebt) ∧
      (a.isDebtIncrease = false → r.2.lusdToken = s.lusdToken) := by
  obtain ⟨s₁, happlied, hr⟩ := h.applied
  obtain ⟨-, -, hdebteq, hcolleq⟩ := adjustmentVars_ok h.vars_ok
  obtain ⟨hcoll, hdebt⟩ := happlied.trove_eq hb
  obtain ⟨_, _, _, heq⟩ := (adjustmentFee_ok hr).1.eq
  have hpools := happlied.pools
  refine ⟨?_, ?_, ⟨?_, ?_⟩, fun hdec => ?_⟩
  · rw [hcolleq, heq]
    exact hcoll
  · rw [hdebteq, heq]
    exact hdebt
  · rw [heq]
    exact hpools.1
  · rw [heq]
    exact hpools.2
  · have hnot : ¬ (a.isDebtIncrease = true ∧ recovery = false) := fun hinc => by simp [hdec] at hinc
    rw [adjustmentFee, if_neg hnot] at hr
    cases hr
    exact happlied.lusdToken

end Checking

/-- Collateral goes one way at most. -/
theorem applyChange_getCollChange {value withdrawal coll coll' change : Nat} {inc : Bool}
    (hone : value = 0 ∨ withdrawal = 0) (hchange : (change, inc) = getCollChange value withdrawal)
    (h : applyChange inc coll change = .ok coll') : coll' = coll + value - withdrawal := by
  unfold getCollChange at hchange
  split at hchange
  all_goals
    cases hchange
    rcases applyChange_ok h with ⟨hinc, rfl⟩ | ⟨hdec, hle, rfl⟩
  · omega
  · cases hdec
  · cases hinc
  · omega

end BorrowerOperations

/-- The arguments that the SDK gives `_adjustTrove`. -/
def adjustmentOf (env : Env) (options : TransactionOptions) (params : TroveAdjustmentParams) :
    BorrowerOperations.Adjustment where
  borrower := env.sender
  collWithdrawal := (params.withdrawCollateral.getD ZERO).bigNumber
  LUSDChange := ((params.borrowLUSD.or params.repayLUSD).getD ZERO).bigNumber
  isDebtIncrease := params.borrowLUSD.isSome
  upperHint := options.hints.1
  lowerHint := options.hints.2
  maxFeePercentage := options.maxBorrowingRate.bigNumber

theorem depositCollateral_or_withdrawCollateral (params : TroveAdjustmentParams) :
    (params.depositCollateral.getD ZERO).bigNumber = 0 ∨
      (params.withdrawCollateral.getD ZERO).bigNumber = 0 := by
  obtain ⟨_ | change, -⟩ := params
  · exact .inl rfl
  · cases change with
    | depositCollateral => exact .inr rfl
    | withdrawCollateral => exact .inl rfl

/-- The debt that the contract arrives at, fee included, is the one that the SDK predicts. -/
theorem applyChange_debt {params : TroveAdjustmentParams} {rate : Decimal} {fee debt debt' : Nat}
    (hfee : fee = if params.borrowLUSD.isSome = true then
      rate.bigNumber * ((params.borrowLUSD.or params.repayLUSD).getD ZERO).bigNumber /
        DECIMAL_PRECISION else 0)
    (h : BorrowerOperations.applyChange params.borrowLUSD.isSome debt
      (((params.borrowLUSD.or params.repayLUSD).getD ZERO).bigNumber + fee) = .ok debt') :
    debt' = debt + ((params.borrowLUSD.map (applyFee rate)).getD ZERO).bigNumber -
      (params.repayLUSD.getD ZERO).bigNumber := by
  obtain ⟨collateralChange, _ | change⟩ := params
  · have hfee : fee = 0 := hfee
    rcases BorrowerOperations.applyChange_ok h with ⟨hinc, -⟩ | ⟨-, -, rfl⟩
    · cases hinc
    · rw [hfee]
      rfl
  cases change with
  | borrowLUSD amount =>
    have hfee : fee = rate.bigNumber * amount.bigNumber / DECIMAL_PRECISION := hfee
    rcases BorrowerOperations.applyChange_ok h with ⟨-, rfl⟩ | ⟨hdec, -, -⟩
    · change _ = debt + (applyFee rate amount).bigNumber - 0
      rw [applyFee_bigNumber, hfee]
      rfl
    · cases hdec
  | repayLUSD amount =>
    have hfee : fee = 0 := hfee
    rcases BorrowerOperations.applyChange_ok h with ⟨hinc, -⟩ | ⟨-, -, rfl⟩
    · cases hinc
    · rw [hfee]
      rfl

section Adjusting

variable {recovery : Bool} {params : TroveAdjustmentParams} {setToZero : Option SetToZero}
  {options : TransactionOptions} {rate : Decimal} {resulting : LibBase.Trove} {r : Nat × System}
  {vars : BorrowerOperations.AdjustmentVars}

/-- The contract's new amounts are those of the trove that the frontend predicts. -/
theorem predicted_of_checking (hs : Sound d s .none) (hb : NoPendingRewards s env.sender)
    (hvalue : env.value = (params.depositCollateral.getD ZERO).bigNumber)
    (hrate : s.HasBorrowingRate env rate.bigNumber)
    (hadjusted : AdjustedBy (getTrove s env.sender) params setToZero)
    (hchecking : BorrowerOperations.Checking d env (adjustmentOf env options params) s recovery r vars) :
    ∃ coll debt, BorrowerOperations.applyChange vars.isCollIncrease vars.coll vars.collChange = .ok coll ∧
      BorrowerOperations.applyChange params.borrowLUSD.isSome vars.debt vars.netDebtChange = .ok debt ∧
      getTrove s env.sender = ⟨⟨vars.coll⟩, ⟨vars.debt⟩⟩ ∧
      (getTrove s env.sender).applyAdjustment params setToZero rate = ⟨⟨coll⟩, ⟨debt⟩⟩ ∧
      computeCR vars.coll vars.debt env.price = .ok vars.oldICR ∧
      computeCR coll debt env.price = .ok vars.newICR := by
  obtain ⟨coll, debt, hcoll, hdebt, hold, hnew⟩ :=
    BorrowerOperations.adjustmentVars_amounts hchecking.vars_ok
  obtain ⟨hchange, hnet, -, -⟩ := BorrowerOperations.adjustmentVars_ok hchecking.vars_ok
  obtain ⟨hcolleq, hdebteq, -, -⟩ := hchecking.reads hb
  obtain ⟨s₁, happlied, hr⟩ := hchecking.applied
  have htrove : getTrove s env.sender = ⟨⟨vars.coll⟩, ⟨vars.debt⟩⟩ := by
    rw [getTrove_eq hs hb, hcolleq, hdebteq]
    rfl
  refine ⟨coll, debt, hcoll, hdebt, htrove, ?_, hold, hnew⟩
  rw [hvalue] at hchange
  have hcoll' := BorrowerOperations.applyChange_getCollChange
    (depositCollateral_or_withdrawCollateral params) hchange hcoll
  rw [← hnet] at hdebt
  have hdebt' := applyChange_debt
    (BorrowerOperations.adjustmentFee_fee hrate hchecking.mode happlied hr) hdebt
  rw [hadjusted.applied, htrove, hcoll', hdebt']

theorem validateTroveAdjustment_none {context : TroveChangeValidationContext}
    (h : validateTroveAdjustment params context = .ok none) :
    validateAdjustmentRatios params context = none ∧ validateRepayment params context = .ok none := by
  unfold validateTroveAdjustment at h
  split at h
  · cases h
  next hratios =>
    obtain ⟨error, herror, h⟩ := bind_ok.mp h
    cases error with
    | some description => cases h
    | none => exact ⟨hratios, herror⟩

/-- In Recovery Mode nothing is withdrawn, and more debt needs the critical ratio and one that does
not fall. -/
theorem validRatios_recovery {context : TroveChangeValidationContext}
    (hrecovery : context.recoveryMode = true) (h : validateAdjustmentRatios params context = none) :
    params.withdrawCollateral = none ∧ (params.borrowLUSD.isSome = true →
      ¬ context.resultingTrove.collateralRatioIsBelowCritical context.price ∧
      ¬ (context.resultingTrove.collateralRatio context.price).lt
        (context.originalTrove.collateralRatio context.price)) := by
  rw [validateAdjustmentRatios, if_pos hrecovery] at h
  split at h
  · cases h
  next hwithdraw =>
  split at h
  · cases h
  next hcritical =>
  split at h
  · cases h
  next hfalls =>
  exact ⟨by simpa using hwithdraw, fun hborrow => ⟨fun hlow => hcritical ⟨hborrow, hlow⟩,
    fun hlow => hfalls ⟨hborrow, hlow⟩⟩⟩

theorem validRatios_normal {context : TroveChangeValidationContext}
    (hnormal : context.recoveryMode = false) (h : validateAdjustmentRatios params context = none) :
    ¬ context.resultingTrove.collateralRatioIsBelowMinimum context.price ∧
      context.wouldTriggerRecoveryMode = false := by
  rw [validateAdjustmentRatios, if_neg (by simp [hnormal])] at h
  split at h
  · cases h
  next hminimum =>
  split at h
  · cases h
  next htrigger => exact ⟨hminimum, by simpa using htrigger⟩

/-- The checks of an adjustment on ratios are those of the frontend. -/
theorem adjustmentInCurrentMode_meets (hs : Sound d s .none) (hb : NoPendingRewards s env.sender)
    (hvalue : env.value = (params.depositCollateral.getD ZERO).bigNumber)
    (hrate : s.HasBorrowingRate env rate.bigNumber)
    (hadjusted : AdjustedBy (getTrove s env.sender) params setToZero)
    (hresulting : (getTrove s env.sender).applyAdjustment params setToZero rate = resulting)
    (hratios : validateAdjustmentRatios params (validationContext (getTrove s env.sender) resulting
      (s.selectForTroveChangeValidation env balance)) = none)
    (hchecking : BorrowerOperations.Checking d env (adjustmentOf env options params) s recovery r vars) :
    MeetsRequirements (BorrowerOperations.requireValidAdjustmentInCurrentMode env.price recovery
      (adjustmentOf env options params) vars r.2) := by
  obtain ⟨coll, debt, hcoll, hdebt, htrove, hpredicted, hold, hnew⟩ :=
    predicted_of_checking hs hb hvalue hrate hadjusted hchecking
  rw [hpredicted] at hresulting
  subst hresulting
  obtain ⟨hcolleq, hdebteq, htotals, -⟩ := hchecking.reads hb
  have hmode : decide ((getTotal s).collateralRatioIsBelowCritical ⟨env.price⟩) = recovery :=
    recoveryMode_eq hchecking.mode
  cases recovery with
  | true =>
    obtain ⟨hwithdraw, hborrow⟩ := validRatios_recovery hmode hratios
    have hzero : (adjustmentOf env options params).collWithdrawal = 0 := by
      simp only [adjustmentOf, hwithdraw]
      rfl
    simp only [BorrowerOperations.requireValidAdjustmentInCurrentMode, if_true,
      BorrowerOperations.requireNoCollWithdrawal]
    refine .bind (by simp [hzero]) fun _ _ => ?_
    refine avoids_ite_iff.mpr ⟨fun hinc => ?_, fun _ => avoids_ok ()⟩
    obtain ⟨hcritical, hrise⟩ := hborrow hinc
    have hCCR : CCR ≤ vars.newICR := Nat.not_lt.mp ((below_critical_iff hnew).not.mp hcritical)
    have hrise : vars.oldICR ≤ vars.newICR := by
      have hrise : ¬ ((⟨⟨coll⟩, ⟨debt⟩⟩ : LibBase.Trove).collateralRatio ⟨env.price⟩).lt
          ((getTrove s env.sender).collateralRatio ⟨env.price⟩) := hrise
      rw [htrove, LibBase.Trove.collateralRatio_of_computeCR hold,
        LibBase.Trove.collateralRatio_of_computeCR hnew] at hrise
      exact Nat.not_lt.mp hrise
    exact .bind (by simp [BorrowerOperations.requireICRisAboveCCR, hCCR]) fun _ _ => by
      simp [BorrowerOperations.requireNewICRisAboveOldICR, hrise]
  | false =>
    obtain ⟨hminimum, htrigger⟩ := validRatios_normal hmode hratios
    have hMCR : MCR ≤ vars.newICR := Nat.not_lt.mp ((below_minimum_iff hnew).not.mp hminimum)
    simp only [BorrowerOperations.requireValidAdjustmentInCurrentMode, Bool.false_eq_true, if_false]
    refine .bind (by simp [BorrowerOperations.requireICRisAboveMCR, hMCR]) fun _ _ =>
      .bind (by simp) fun newTCR hnewTCR => ?_
    obtain ⟨-, -, C, D, hC, hD, hTCR⟩ := BorrowerOperations.getNewTCRFromTroveChange_ok hnewTCR
    -- the trove is part of the totals, so the frontend's subtraction does not stop at zero
    have hcollLe : vars.coll ≤ s.totalColl := by
      rw [hcolleq]
      exact (hs.books.coll_le env.sender).trans (Nat.le_add_right _ _)
    have hdebtLe : vars.debt ≤ s.totalDebt := by
      rw [hdebteq]
      exact (hs.books.debt_le env.sender).trans (Nat.le_add_right _ _)
    have hshiftC := BorrowerOperations.applyChange_shift hcoll hC
    have hshiftD := BorrowerOperations.applyChange_shift hdebt hD
    rw [htotals.1] at hshiftC
    rw [htotals.2] at hshiftD
    have hCeq : s.totalColl - vars.coll + coll = C := by omega
    have hDeq : s.totalDebt - vars.debt + debt = D := by omega
    have htrigger := of_decide_eq_false htrigger
    have htotal : ((getTotal s).subtract (getTrove s env.sender)).add ⟨⟨coll⟩, ⟨debt⟩⟩ =
        ⟨⟨C⟩, ⟨D⟩⟩ := by
      rw [getTotal_eq, htrove, total_subtract_add, hCeq, hDeq]
    have hCCR : ¬ newTCR < CCR := by
      rw [← below_critical_iff hTCR, ← htotal]
      exact htrigger
    simp [BorrowerOperations.requireNewTCRisAboveCCR, Nat.not_lt.mp hCCR]

/-- The checks of a repayment. -/
theorem repayment_meets (hs : Sound d s .none) (hb : NoPendingRewards s env.sender)
    (hvalue : env.value = (params.depositCollateral.getD ZERO).bigNumber)
    (hrate : s.HasBorrowingRate env rate.bigNumber)
    (hadjusted : AdjustedBy (getTrove s env.sender) params setToZero)
    (hresulting : (getTrove s env.sender).applyAdjustment params setToZero rate = resulting)
    (hrepayment : validateRepayment params (validationContext (getTrove s env.sender) resulting
      (s.selectForTroveChangeValidation env balance)) = .ok none)
    (hroom : LeavesRoom resulting (s.selectForTroveChangeValidation env balance)
      (.adjustment params setToZero))
    (hchecking : BorrowerOperations.Checking d env (adjustmentOf env options params) s recovery r vars) :
    MeetsRequirements
      (BorrowerOperations.requireValidRepayment (adjustmentOf env options params) vars r.2) := by
  unfold BorrowerOperations.requireValidRepayment
  refine avoids_ite_iff.mpr ⟨fun ⟨hdec, hpos⟩ => ?_, fun _ => avoids_ok ()⟩
  obtain ⟨coll, debt, -, hdebt, -, hpredicted, -, -⟩ :=
    predicted_of_checking hs hb hvalue hrate hadjusted hchecking
  rw [hpredicted] at hresulting
  subst hresulting
  have hborrow : params.borrowLUSD = none := by simpa [adjustmentOf] using hdec
  obtain ⟨repayLUSD, hrepay⟩ : ∃ repayLUSD, params.repayLUSD = some repayLUSD := by
    refine Option.ne_none_iff_exists'.mp fun hnone => ?_
    simp [adjustmentOf, hborrow, hnone, ZERO] at hpos
  -- nothing is charged, so the net change is the repayment
  obtain ⟨s₁, happlied, hr⟩ := hchecking.applied
  obtain ⟨-, hnet, -, -⟩ := BorrowerOperations.adjustmentVars_ok hchecking.vars_ok
  have hnofee := (BorrowerOperations.adjustmentFee_ok hr).2 hdec
  have hchange : vars.netDebtChange = repayLUSD.bigNumber := by
    rw [← hnet, hnofee]
    simp [adjustmentOf, hborrow, hrepay]
  rcases BorrowerOperations.applyChange_ok hdebt with ⟨hinc, -⟩ | ⟨-, hle, rfl⟩
  · simp [hborrow] at hinc
  have hmin : MIN_NET_DEBT + LUSD_GAS_COMPENSATION ≤ vars.debt - vars.netDebtChange := by
    have hge := hroom (by simp [hrepay])
    rw [← LUSD_MINIMUM_DEBT_add_reserveGap]
    exact Nat.not_lt.mp hge
  have hbalance : vars.netDebtChange ≤ r.2.lusdToken.balances env.sender := by
    rw [(hchecking.reads hb).2.2.2 hdec, hchange]
    simp only [validateRepayment, hrepay] at hrepayment
    split at hrepayment
    · cases hrepayment
    split at hrepayment
    · obtain ⟨_, -, h⟩ := bind_ok.mp hrepayment
      cases h
    next hge => exact Nat.not_lt.mp hge
  refine .bind (by simp [LiquityBase.getNetDebt]) fun netDebt hnetDebt => .bind (by simp)
    fun newNetDebt hnew => ?_
  obtain ⟨-, rfl⟩ := SafeMath.sub_ok.mp hnetDebt
  obtain ⟨-, rfl⟩ := SafeMath.sub_ok.mp hnew
  have hnewMin : MIN_NET_DEBT ≤ vars.debt - LUSD_GAS_COMPENSATION - vars.netDebtChange := by omega
  refine .bind (by simp [BorrowerOperations.requireAtLeastMinNetDebt, hnewMin]) fun _ _ =>
    .bind ?_ fun _ _ => ?_
  · refine .bind (by simp) fun repayable hrepayable => ?_
    obtain ⟨-, rfl⟩ := SafeMath.sub_ok.mp hrepayable
    have hfits : vars.netDebtChange ≤ vars.debt - LUSD_GAS_COMPENSATION := by omega
    simp [hfits]
  · simp [BorrowerOperations.requireSufficientLUSDBalance, adjustmentOf, hbalance]

/-- An adjustment that the frontend lets through. -/
theorem validAdjustment (env : Env) (options : TransactionOptions) (hd : d.Wired)
    (hs : Sound d s .none) (hb : NoPendingRewards s env.sender)
    (hvalue : env.value = (params.depositCollateral.getD ZERO).bigNumber)
    (hrate : s.HasBorrowingRate env rate.bigNumber)
    (hadjusted : AdjustedBy (getTrove s env.sender) params setToZero)
    (hresulting : (getTrove s env.sender).applyAdjustment params setToZero rate = resulting)
    (hvalid : validateTroveAdjustment params (validationContext (getTrove s env.sender) resulting
      (s.selectForTroveChangeValidation env balance)) = .ok none) :
    (LeavesRoom resulting (s.selectForTroveChangeValidation env balance) (.adjustment params setToZero) →
      MeetsRequirements ((adjustTrove env options params).call.body d env s)) ∧
    ∀ s', (adjustTrove env options params).call.body d env s = .ok s' →
      LeavesRoom resulting (s.selectForTroveChangeValidation env balance) (.adjustment params setToZero) := by
  obtain ⟨hratios, hrepayment⟩ := validateTroveAdjustment_none hvalid
  constructor
  · intro hroom
    exact BorrowerOperations.adjustTroveInternal_meets hd hs fun recovery r vars hchecking =>
      ⟨adjustmentInCurrentMode_meets hs hb hvalue hrate hadjusted hresulting hratios hchecking,
        repayment_meets hs hb hvalue hrate hadjusted hresulting hrepayment hroom hchecking⟩
  · intro s' h hrepay
    -- whatever succeeds keeps the contract's minimum debt
    obtain ⟨hactive, recovery, r, vars, hchecking, hchecked⟩ :=
      BorrowerOperations.adjustTroveInternal_checked (a := adjustmentOf env options params) hd hs h
    obtain ⟨coll, debt, -, hdebt, -, hpredicted, -, -⟩ :=
      predicted_of_checking hs hb hvalue hrate hadjusted hchecking
    obtain ⟨s₁, happlied, hr⟩ := hchecking.applied
    obtain ⟨-, hnet, -, -⟩ := BorrowerOperations.adjustmentVars_ok hchecking.vars_ok
    have hold : Ledger.minDebt ≤ vars.debt := by
      rw [(hchecking.reads hb).2.1]
      exact hs.books.minDebt _ hactive
    have hmin := BorrowerOperations.minDebt_of_repayment hold hdebt hnet
      (BorrowerOperations.adjustmentFee_ok hr).2 hchecked
    rw [hpredicted] at hresulting
    subst hresulting
    refine Nat.not_lt.mpr ?_
    rw [LUSD_MINIMUM_DEBT_add_reserveGap]
    exact hmin

end Adjusting
end Liquity
