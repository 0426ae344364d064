import Liquity.DevFrontend.Predictions
import Liquity.Requirements

/-!
# Opening a trove from the frontend
-/

open Lib

namespace Liquity

open LiquityMath TroveManager LibBase LibEthers DevFrontend Decimal

variable {d : Deployment} {s s' : System} {env : Env} {price : Nat} {balance : Decimal}

namespace BorrowerOperations

/-- The checks of an opening pass if they do for whatever fee is charged. -/
theorem openTrove_meets {maxFee amount : Nat} {upper lower : Address} (hmin : MIN_NET_DEBT ≤ amount)
    (hvalid : ∀ recovery r ICR, s.checkRecoveryMode env.price = .ok recovery →
      openTroveFee d env recovery maxFee amount s = .ok r →
      computeCR env.value (amount + r.1 + LUSD_GAS_COMPENSATION) env.price = .ok ICR →
      MeetsRequirements
        (requireValidOpening env recovery ICR (amount + r.1 + LUSD_GAS_COMPENSATION) r.2)) :
    MeetsRequirements (openTrove d env maxFee amount upper lower s) := by
  have hfee : ∀ recovery, MeetsRequirements (openTroveFee d env recovery maxFee amount s) := by
    simp [openTroveFee]
  unfold openTrove
  refine .bind (by simp) fun recovery hmode => .bind (by simp) fun _ _ => .bind ?_ fun _ _ =>
    .bind (hfee recovery) fun r hr => .bind (by simp) fun net hnet => .bind ?_ fun _ _ =>
    .bind (by simp [LiquityBase.getCompositeDebt]) fun debt hdebt => .bind (by simp) fun _ _ =>
    .bind (by simp) fun ICR hICR => .bind (by simp) fun NICR _ => .bind ?_ fun _ _ => by simp
  · simp [requireTroveisNotActive, borrowerRequirements]
  · obtain ⟨-, rfl⟩ := SafeMath.add_ok.mp hnet
    simp only [requireAtLeastMinNetDebt, avoids_require_iff]
    intro hlow
    omega
  · obtain ⟨-, rfl⟩ := SafeMath.add_ok.mp hnet
    obtain ⟨-, rfl⟩ := SafeMath.add_ok.mp hdebt
    exact hvalid recovery r ICR hmode hr hICR

theorem openTrove_checked {maxFee amount : Nat} {upper lower : Address}
    (h : openTrove d env maxFee amount upper lower s = .ok s') :
    ∃ recovery r ICR, s.checkRecoveryMode env.price = .ok recovery ∧
      openTroveFee d env recovery maxFee amount s = .ok r ∧
      computeCR env.value (amount + r.1 + LUSD_GAS_COMPENSATION) env.price = .ok ICR ∧
      requireValidOpening env recovery ICR (amount + r.1 + LUSD_GAS_COMPENSATION) r.2 = .ok () := by
  simp only [openTrove, bind_ok, SafeMath.add_ok, LiquityBase.getCompositeDebt] at h
  obtain ⟨recovery, hmode, -, -, -, -, r, hr, _, ⟨-, rfl⟩, -, -, _, ⟨-, rfl⟩, -, -, ICR, hICR, -, -, _,
    hvalid, -⟩ := h
  exact ⟨recovery, r, ICR, hmode, hr, hICR, hvalid⟩

end BorrowerOperations

section Opening

variable {recovery : Bool} {params : TroveCreationParams} {resulting : LibBase.Trove}
  {coll debt ICR newTCR : Nat} {s₁ : System}

theorem leavesRoom_creation_iff (hmode : s.checkRecoveryMode env.price = .ok recovery)
    (htrove : resulting.addDebt reserveGap = ⟨⟨coll⟩, ⟨debt⟩⟩)
    (hICR : computeCR coll debt env.price = .ok ICR) :
    LeavesRoom resulting (s.selectForTroveChangeValidation env balance) (.creation params) ↔
      if recovery = true then CCR ≤ ICR else MCR ≤ ICR ∧
        ¬ (⟨⟨s.totalColl + coll⟩, ⟨s.totalDebt + debt⟩⟩ :
          LibBase.Trove).collateralRatioIsBelowCritical ⟨env.price⟩ := by
  have hrecovery : (getTotal s).collateralRatioIsBelowCritical ⟨env.price⟩ ↔ recovery = true := by
    rw [← recoveryMode_eq hmode, decide_eq_true_iff]
  simp only [LeavesRoom, System.selectForTroveChangeValidation, htrove, hrecovery,
    openable_iff hICR, below_minimum_iff hICR, not_lt]
  rfl

/-- The ratio that an opening is checked against is the one of the total that the frontend adds up. -/
theorem openingTCR_iff (htotals : s₁.totalColl = s.totalColl ∧ s₁.totalDebt = s.totalDebt)
    (h : BorrowerOperations.getNewTCRFromTroveChange coll true debt true price s₁ = .ok newTCR) :
    (⟨⟨s.totalColl + coll⟩, ⟨s.totalDebt + debt⟩⟩ :
      LibBase.Trove).collateralRatioIsBelowCritical ⟨price⟩ ↔ newTCR < CCR := by
  obtain ⟨-, -, C, D, hC, hD, hTCR⟩ := BorrowerOperations.getNewTCRFromTroveChange_ok h
  obtain ⟨-, rfl⟩ := SafeMath.add_ok.mp hC
  obtain ⟨-, rfl⟩ := SafeMath.add_ok.mp hD
  rw [← htotals.1, ← htotals.2]
  exact below_critical_iff hTCR

/-- What the checks of an opening ask for is that the reserve fits. -/
theorem LeavesRoom.opening (hmode : s.checkRecoveryMode env.price = .ok recovery)
    (htrove : resulting.addDebt reserveGap = ⟨⟨env.value⟩, ⟨debt⟩⟩)
    (hICR : computeCR env.value debt env.price = .ok ICR)
    (htotals : s₁.totalColl = s.totalColl ∧ s₁.totalDebt = s.totalDebt)
    (h : LeavesRoom resulting (s.selectForTroveChangeValidation env balance) (.creation params)) :
    MeetsRequirements (BorrowerOperations.requireValidOpening env recovery ICR debt s₁) := by
  rw [leavesRoom_creation_iff hmode htrove hICR] at h
  cases recovery with
  | true =>
    simp only [if_true] at h
    simp [BorrowerOperations.requireValidOpening, BorrowerOperations.requireICRisAboveCCR, h]
  | false =>
    simp only [Bool.false_eq_true, if_false] at h
    simp only [BorrowerOperations.requireValidOpening, Bool.false_eq_true, if_false,
      BorrowerOperations.requireICRisAboveMCR]
    refine .bind (by simp [h.1]) fun _ _ => .bind (by simp) fun newTCR hnew => ?_
    have hCCR := h.2
    rw [openingTCR_iff htotals hnew] at hCCR
    simp [BorrowerOperations.requireNewTCRisAboveCCR, Nat.not_lt.mp hCCR]

theorem leavesRoom_of_opening (hmode : s.checkRecoveryMode env.price = .ok recovery)
    (htrove : resulting.addDebt reserveGap = ⟨⟨env.value⟩, ⟨debt⟩⟩)
    (hICR : computeCR env.value debt env.price = .ok ICR)
    (htotals : s₁.totalColl = s.totalColl ∧ s₁.totalDebt = s.totalDebt)
    (h : BorrowerOperations.requireValidOpening env recovery ICR debt s₁ = .ok ()) :
    LeavesRoom resulting (s.selectForTroveChangeValidation env balance) (.creation params) := by
  rw [leavesRoom_creation_iff hmode htrove hICR]
  cases recovery with
  | true =>
    simp only [if_true]
    exact (BorrowerOperations.requireValidOpening_ok h).1 rfl
  | false =>
    obtain ⟨newTCR, hCCR, hnew⟩ := (BorrowerOperations.requireValidOpening_ok h).2 rfl
    simp only [BorrowerOperations.requireValidOpening, Bool.false_eq_true, if_false, bind_ok,
      BorrowerOperations.requireICRisAboveMCR, require_ok] at h ⊢
    rw [openingTCR_iff htotals hnew]
    exact ⟨h.choose_spec.1, Nat.not_lt.mpr hCCR⟩

/-- An opening that the frontend lets through. -/
theorem validCreation (env : Env) (options : TransactionOptions) {rate : Decimal}
    {original : LibBase.Trove} (hvalue : env.value = params.depositCollateral.bigNumber)
    (hrate : s.HasBorrowingRate env rate.bigNumber)
    (happly : original.apply (some (.creation params)) rate = .ok resulting)
    (hvalid : validateTroveCreation params
      (validationContext original resulting (s.selectForTroveChangeValidation env balance)) = .ok none) :
    (LeavesRoom resulting (s.selectForTroveChangeValidation env balance) (.creation params) →
      MeetsRequirements ((openTrove env options params).call.body d env s)) ∧
    ∀ s', (openTrove env options params).call.body d env s = .ok s' →
      LeavesRoom resulting (s.selectForTroveChangeValidation env balance) (.creation params) := by
  have hresulting : ⟨params.depositCollateral,
      LUSD_LIQUIDATION_RESERVE.add (applyFee rate params.borrowLUSD)⟩ = resulting := by
    obtain ⟨-, -, h⟩ := bind_ok.mp happly
    exact pure_ok.mp h
  -- the fee is predicted to the last unit
  have hfacts : ∀ {recovery r}, s.checkRecoveryMode env.price = .ok recovery →
      BorrowerOperations.openTroveFee d env recovery options.maxBorrowingRate.bigNumber
        params.borrowLUSD.bigNumber s = .ok r →
      resulting.addDebt reserveGap =
        ⟨⟨env.value⟩, ⟨params.borrowLUSD.bigNumber + r.1 + LUSD_GAS_COMPENSATION⟩⟩ ∧
      r.2.totalColl = s.totalColl ∧ r.2.totalDebt = s.totalDebt := by
    intro recovery r hmode hr
    obtain ⟨_, _, _, heq⟩ := (BorrowerOperations.openTroveFee_ok hr).eq
    refine ⟨?_, by rw [heq]; rfl, by rw [heq]; rfl⟩
    rw [← hresulting, created_addDebt_reserveGap,
      BorrowerOperations.openTroveFee_fee hrate hmode hr, hvalue]
  constructor
  · intro hroom
    have hmin : MIN_NET_DEBT ≤ params.borrowLUSD.bigNumber := by
      unfold validateTroveCreation at hvalid
      split at hvalid
      · cases hvalid
      next hge => exact Nat.not_lt.mp hge
    refine BorrowerOperations.openTrove_meets hmin fun recovery r ICR hmode hr hICR => ?_
    obtain ⟨htrove, htotals⟩ := hfacts hmode hr
    exact hroom.opening hmode htrove hICR htotals
  · intro s' h
    obtain ⟨recovery, r, ICR, hmode, hr, hICR, hchecked⟩ := BorrowerOperations.openTrove_checked h
    obtain ⟨htrove, htotals⟩ := hfacts hmode hr
    exact leavesRoom_of_opening hmode htrove hICR htotals hchecked

end Opening
end Liquity
