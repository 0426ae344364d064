import Liquity.DevFrontend.Adjusting
import Liquity.DevFrontend.Opening

/-!
# What the frontend lets through

The frontend checks a change of a trove before it is sent.  Its rules are those of
`BorrowerOperations`, but for the liquidation reserve: a change that it lets through passes all
requirements if it leaves room for the contract's reserve, and is reverted if it does not.
-/

open Lib

namespace Liquity

open LiquityMath TroveManager LibBase LibEthers DevFrontend Decimal

variable {d : Deployment} {s s' : System} {env : Env} {balance : Decimal}

/-! ## Closing -/

theorem whatChanged_closure {original adjusted : LibBase.Trove} {rate : Decimal}
    {params : TroveClosureParams}
    (h : original.whatChanged adjusted rate = .ok (some (.closure params))) :
    (params.repayLUSD.getD ZERO).bigNumber =
      original.debt.bigNumber - LUSD_LIQUIDATION_RESERVE.bigNumber := by
  unfold LibBase.Trove.whatChanged at h
  split at h
  · cases h
  split at h
  · split at h
    · cases h
    · obtain ⟨netDebt, -, h⟩ := bind_ok.mp h
      cases h
  split at h
  · simp only [bind_ok, LibBase.Trove.netDebt, Decimal.sub_ok, pure_ok] at h
    obtain ⟨_, ⟨-, -, -, rfl⟩, h⟩ := h
    cases h
    split
    next hzero => exact hzero.symm
    next => rfl
  split at h
  · obtain ⟨debtChange, -, h⟩ := bind_ok.mp h
    cases h
  split at h
  · obtain ⟨collateralChange, -, h⟩ := bind_ok.mp h
    cases h
  · simp only [bind_ok] at h
    obtain ⟨debtChange, -, collateralChange, -, h⟩ := h
    cases h

/-- What the frontend checks before a trove is closed. -/
theorem validateTroveClosure_none {params : TroveClosureParams}
    {context : TroveChangeValidationContext} (h : validateTroveClosure params context = .ok none) :
    context.numberOfTroves ≠ 1 ∧ context.recoveryMode = false ∧
      (params.repayLUSD.getD ZERO).bigNumber ≤ context.lusdBalance.bigNumber ∧
      context.wouldTriggerRecoveryMode = false := by
  unfold validateTroveClosure at h
  split at h
  · cases h
  next hnumber =>
  split at h
  · cases h
  next hrecovery =>
  split at h
  · obtain ⟨_, -, h⟩ := bind_ok.mp h
    cases h
  next hbalance =>
  split at h
  · cases h
  next htrigger =>
  exact ⟨hnumber, by simpa using hrecovery, Nat.not_lt.mp hbalance, by simpa using htrigger⟩

/-- A borrower who is not alone leaves at least one trove on the list and in the array. -/
theorem more_than_one (hs : Sound d s .none) {b : Address}
    (hactive : (s.troveManager.troves b).status = .active) (hnumber : getNumberOfTroves s ≠ 1) :
    1 < s.troveManager.troveOwners.length ∧ 1 < s.sortedTroves.getSize := by
  have hpos := List.length_pos_of_mem ((hs.registered.mem_owners b).mpr hactive)
  have hlength : s.troveManager.troveOwners.length = s.sortedTroves.toList.length :=
    hs.registered.length_owners
  have hsize : s.sortedTroves.getSize = s.sortedTroves.toList.length := hs.list.size_eq
  have hnumber : s.troveManager.troveOwners.length ≠ 1 := hnumber
  omega

/-- Closing a trove that the frontend lets be closed. -/
theorem validClosure (env : Env) (hd : d.Wired) (hs : Sound d s .none)
    (hb : NoPendingRewards s env.sender)
    {adjusted resulting : LibBase.Trove} {rate : Decimal} {params : TroveClosureParams}
    (hchanged : (getTrove s env.sender).whatChanged adjusted rate = .ok (some (.closure params)))
    (happly : (getTrove s env.sender).apply (some (.closure params)) rate = .ok resulting)
    (hvalid : validateTroveClosure params (validationContext (getTrove s env.sender) resulting
      (s.selectForTroveChangeValidation env balance)) = .ok none) :
    MeetsRequirements (BorrowerOperations.closeTrove d env s) := by
  obtain ⟨_, hnonempty, hresulting⟩ := bind_ok.mp happly
  have hnonempty := require_ok.mp hnonempty
  obtain rfl := pure_ok.mp hresulting
  have htrove := getTrove_eq hs hb
  have hactive : (s.troveManager.troves env.sender).status = .active := by
    by_contra hinactive
    obtain ⟨hcoll, hdebt, -⟩ := hs.registered.inactive _ hinactive
    rw [htrove, hcoll, hdebt] at hnonempty
    exact hnonempty ⟨rfl, rfl⟩
  obtain ⟨hnumber, hnormal, hbalance, htrigger⟩ := validateTroveClosure_none hvalid
  rw [whatChanged_closure hchanged, htrove] at hbalance
  have hmore := more_than_one hs hactive hnumber
  unfold BorrowerOperations.closeTrove
  refine .bind (by simp [BorrowerOperations.requireTroveisActive, borrowerRequirements]) fun _ _ =>
    .bind ?_ fun _ _ => .bind (by simp) fun s₁ h₁ => ?_
  · refine .bind (by simp) fun recovery hmode => ?_
    rw [← recoveryMode_eq hmode]
    have hnormal : decide ((getTotal s).collateralRatioIsBelowCritical ⟨env.price⟩) = false := hnormal
    simp [hnormal]
  have happlied : RewardsApplied env.sender s s₁ := by
    obtain ⟨-, -, h₁⟩ := bind_ok.mp h₁
    exact (applyPendingRewardsInternal_evolves hd hs PlainOnly.plain h₁).2
  obtain ⟨hcoll, hdebt⟩ := happlied.trove_eq hb
  have htotals : s₁.totalColl = s.totalColl ∧ s₁.totalDebt = s.totalDebt := happlied.pools
  refine .bind (by simp) fun repayment hrepayment => .bind ?_ fun _ _ => .bind (by simp)
    fun newTCR hnewTCR => .bind ?_ fun _ _ => .bind (by simp) fun s₂ h₂ => .bind ?_ fun _ _ => by simp
  · -- the contract asks for less than the frontend, whose reserve is smaller
    obtain ⟨-, rfl⟩ := SafeMath.sub_ok.mp hrepayment
    have hsmall : LUSD_LIQUIDATION_RESERVE.bigNumber ≤ LUSD_GAS_COMPENSATION := by decide
    have hbalance : (s.troveManager.troves env.sender).debt - LUSD_LIQUIDATION_RESERVE.bigNumber ≤
        s₁.lusdToken.balances env.sender := by
      rw [happlied.lusdToken]
      exact hbalance
    have hfits : (s₁.troveManager.troves env.sender).debt - LUSD_GAS_COMPENSATION ≤
        s₁.lusdToken.balances env.sender := by
      rw [hdebt]
      omega
    simp [BorrowerOperations.requireSufficientLUSDBalance, hfits]
  · obtain ⟨-, -, C, D, hC, hD, hTCR⟩ := BorrowerOperations.getNewTCRFromTroveChange_ok hnewTCR
    obtain ⟨-, rfl⟩ := SafeMath.sub_ok.mp hC
    obtain ⟨-, rfl⟩ := SafeMath.sub_ok.mp hD
    rw [htotals.1, htotals.2, hcoll, hdebt] at hTCR
    have htotal : ((getTotal s).subtract (getTrove s env.sender)).add emptyTrove =
        ⟨⟨s.totalColl - (s.troveManager.troves env.sender).coll⟩,
          ⟨s.totalDebt - (s.troveManager.troves env.sender).debt⟩⟩ := by
      rw [getTotal_eq, htrove]
      exact total_subtract_add _ _ _ _ 0 0
    have hCCR : ¬ newTCR < CCR := by
      rw [← below_critical_iff hTCR, ← htotal]
      exact of_decide_eq_false htrigger
    simp [BorrowerOperations.requireNewTCRisAboveCCR, Nat.not_lt.mp hCCR]
  · -- neither rewards nor the stake change how many troves there are
    obtain ⟨t, ht, rfl⟩ := System.onTroveManager_ok.mp h₂
    have howners : t.troveOwners = s.troveManager.troveOwners := by
      simp only [removeStake, removeStakeInternal, bind_ok, pure_ok] at ht
      obtain ⟨-, -, _, -, rfl⟩ := ht
      change s₁.troveManager.troveOwners = s.troveManager.troveOwners
      rcases happlied.troveManager with heq | ⟨-, heq⟩
      · rw [heq]
      · rw [heq]
        rfl
    refine closeTrove_meets d _ _ _ ⟨?_, ?_⟩
    · exact howners ▸ hmore.1
    · change 1 < s₁.sortedTroves.getSize
      rw [happlied.sortedTroves]
      exact hmore.2

/-! ## Every change -/

/-- The transaction for a change that the frontend lets through, once its ether has arrived. -/
theorem validChange (hd : d.Wired) (hs : Sound d s .none) (hb : NoPendingRewards s env.sender)
    {options : TransactionOptions} {adjusted resulting : LibBase.Trove} {rate : Decimal}
    {change : TroveChange} {t : Transaction} (hrate : s.HasBorrowingRate t.env rate.bigNumber)
    (hchanged : (getTrove s env.sender).whatChanged adjusted rate = .ok (some change))
    (happly : (getTrove s env.sender).apply (some change) rate = .ok resulting)
    (hvalid : validateChange change (validationContext (getTrove s env.sender) resulting
      (s.selectForTroveChangeValidation env balance)) = .ok none)
    (ht : populate env options change = some t) :
    (LeavesRoom resulting (s.selectForTroveChangeValidation env balance) change →
      MeetsRequirements (t.call.body d t.env s)) ∧
    ∀ s', t.call.body d t.env s = .ok s' →
      LeavesRoom resulting (s.selectForTroveChangeValidation env balance) change := by
  cases change with
  | invalidCreation => cases ht
  | creation params =>
    cases ht
    exact validCreation { env with value := params.depositCollateral.bigNumber } options rfl hrate
      happly hvalid
  | closure params =>
    cases ht
    exact ⟨fun _ => validClosure { env with value := 0 } hd hs hb hchanged happly hvalid,
      fun _ _ => trivial⟩
  | adjustment params setToZero =>
    cases ht
    exact validAdjustment
      { env with value := (params.depositCollateral.getD ZERO).bigNumber } options hd hs hb rfl hrate
      (whatChanged_adjustment hchanged) (Except.ok.inj happly) hvalid

theorem populate_env {options : TransactionOptions} {change : TroveChange} {t : Transaction}
    (ht : populate env options change = some t) : ∃ value, t.env = { env with value } := by
  cases change with
  | invalidCreation => cases ht
  | creation | closure | adjustment =>
    cases ht
    exact ⟨_, rfl⟩

/-- A change that the frontend lets through is sent as a transaction that passes all requirements if
it leaves room for the contract's reserve, and that is reverted if it does not. -/
theorem validateTroveChange_sound_iff_leavesRoom (hd : d.Wired) (hr : Reachable d s) {env : Env}
    {balance : Decimal} {options : TransactionOptions} {adjusted : LibBase.Trove} {rate : Decimal}
    {change : TroveChange} {t : Transaction} (hb : NoPendingRewards s env.sender)
    (hrate : s.HasBorrowingRate env rate.bigNumber)
    (hvalid : validateTroveChange (getTrove s env.sender) adjusted rate
      (s.selectForTroveChangeValidation env balance) = .ok (.valid change))
    (ht : populate env options change = some t) (htv : t.Valid d s) :
    ∃ resulting, (getTrove s env.sender).apply (some change) rate = .ok resulting ∧
      (LeavesRoom resulting (s.selectForTroveChangeValidation env balance) change →
        MeetsRequirements (t.call.execute d t.env s)) ∧
      (¬ LeavesRoom resulting (s.selectForTroveChangeValidation env balance) change →
        ∀ s', t.call.execute d t.env s ≠ .ok s') := by
  obtain ⟨resulting, hchanged, happly, hchecked⟩ := validateTroveChange_valid hvalid
  obtain ⟨value, henv⟩ := populate_env ht
  have hs := hr.sound hd
  have hrate' : s.HasBorrowingRate t.env rate.bigNumber := by
    rw [henv]
    exact hrate
  -- neither the ether that arrives nor the time matters to what was validated
  have hbody : ∀ ether, EtherKept d s { s with timestamp := t.env.timestamp, ether } →
      (LeavesRoom resulting (s.selectForTroveChangeValidation env balance) change →
        MeetsRequirements (t.call.body d t.env { s with timestamp := t.env.timestamp, ether })) ∧
      ∀ s', t.call.body d t.env { s with timestamp := t.env.timestamp, ether } = .ok s' →
        LeavesRoom resulting (s.selectForTroveChangeValidation env balance) change := by
    intro ether hkept
    have hsilent : Evolves d PlainOnly s .none { s with timestamp := t.env.timestamp, ether } .none :=
      .silent hs rfl rfl hkept
    have hb' : NoPendingRewards { s with timestamp := t.env.timestamp, ether } env.sender :=
      ⟨hb.ETH, hb.LUSDDebt⟩
    exact validChange hd (hsilent.sound hd hs) hb' hrate' hchanged happly hchecked ht
  refine ⟨resulting, happly, fun hroom => ?_, fun hnoroom s' h => hnoroom ?_⟩
  · refine .bind (by simp [Call.receiveValue, borrowerRequirements]) fun s₁ h₁ => ?_
    obtain ⟨ether, rfl, -, hkept⟩ := t.call.receiveValue_ok hd htv.external h₁
    exact (hbody ether (hkept.congr rfl rfl rfl rfl)).1 hroom
  · obtain ⟨ether, h, -, hkept⟩ := Step.body hd ⟨htv, h⟩
    exact (hbody ether hkept).2 s' h

/-! ## A change that is let through and reverted -/

/-- A borrower who opens a trove in a system with one trove. -/
def sampleEnv : Env := ⟨103, 0, 0, 2000 * 10 ^ 18⟩

/-- 100 LUSD for the given collateral. -/
def sampleParams (coll : Nat) : TroveCreationParams := ⟨⟨coll⟩, ⟨100 * 10 ^ 18⟩⟩

def sampleOpen (coll : Nat) : Transaction :=
  openTrove sampleEnv ⟨⟨10 ^ 18⟩, 0, 0⟩ (sampleParams coll)

/-- The trove that the frontend predicts. -/
def sampleResulting (coll : Nat) : LibBase.Trove := ⟨⟨coll⟩, ⟨1006 * 10 ^ 17⟩⟩

/-- The frontend lets the borrower open this trove. -/
def SampleLetThrough (coll : Nat) (s : System) : Prop :=
  (s.checkRecoveryMode (2000 * 10 ^ 18) = .ok false ∧
    s.troveManager.getBorrowingRateWithDecay 0 = .ok MINIMUM_BORROWING_RATE.bigNumber) ∧
  (s.troveManager.getPendingETHReward 103 = .ok 0 ∧
    s.troveManager.getPendingLUSDDebtReward 103 = .ok 0) ∧
  (sampleOpen coll).Valid sampleDeployment s ∧
  validateTroveChange (getTrove s 103) (sampleResulting coll) MINIMUM_BORROWING_RATE
    (s.selectForTroveChangeValidation sampleEnv ⟨10 ^ 36⟩) =
      .ok (.valid (.creation (sampleParams coll)))

instance (coll : Nat) (s : System) : Decidable (SampleLetThrough coll s) :=
  inferInstanceAs (Decidable (_ ∧ _))

theorem validateTroveChange_sound_iff_leavesRoom_sample : ∃ s, Reachable sampleDeployment s ∧
    SampleLetThrough (10 ^ 17) s ∧
    MeetsRequirements
      ((sampleOpen (10 ^ 17)).call.execute sampleDeployment (sampleOpen (10 ^ 17)).env s) := by
  obtain ⟨s, hr, hthrough, happly, hroom⟩ := exists_reachable (fun _ _ => True)
    (sampleOpenings.take 1) (fun s => SampleLetThrough (10 ^ 17) s ∧
      (getTrove s 103).apply (some (.creation (sampleParams (10 ^ 17)))) MINIMUM_BORROWING_RATE =
        .ok (sampleResulting (10 ^ 17)) ∧
      LeavesRoom (sampleResulting (10 ^ 17)) (s.selectForTroveChangeValidation sampleEnv ⟨10 ^ 36⟩)
        (.creation (sampleParams (10 ^ 17))))
    (by decide +kernel)
  have hsame := hthrough
  obtain ⟨⟨hmode, hrate⟩, ⟨hETH, hLUSD⟩, htv, hvalid⟩ := hthrough
  have hrate : s.HasBorrowingRate sampleEnv MINIMUM_BORROWING_RATE.bigNumber :=
    System.hasBorrowingRate_normal hmode hrate
  have ht : populate sampleEnv ⟨⟨10 ^ 18⟩, 0, 0⟩ (.creation (sampleParams (10 ^ 17))) =
      some (sampleOpen (10 ^ 17)) := rfl
  obtain ⟨resulting, happly', hmeets, -⟩ := validateTroveChange_sound_iff_leavesRoom
    sampleDeployment_wired hr ⟨hETH, hLUSD⟩ hrate hvalid ht htv
  obtain rfl : resulting = sampleResulting (10 ^ 17) := Except.ok.inj (happly'.symm.trans happly)
  exact ⟨s, hr, hsame, hmeets hroom⟩

/-- With collateral for 110 percent of what the frontend counts as debt, the opening is refused for its
ratio. -/
theorem validateTroveChange_not_sound :
    ¬ ∀ (d : Deployment) (s : System) (env : Env) (balance : Decimal) (options : TransactionOptions)
      (adjusted : LibBase.Trove) (rate : Decimal) (change : TroveChange) (t : Transaction),
      d.Wired → Reachable d s → NoPendingRewards s env.sender →
      s.HasBorrowingRate env rate.bigNumber →
      validateTroveChange (getTrove s env.sender) adjusted rate
        (s.selectForTroveChangeValidation env balance) = .ok (.valid change) →
      populate env options change = some t → t.Valid d s →
      MeetsRequirements (t.call.execute d t.env s) := by
  intro hall
  obtain ⟨s, hr, ⟨⟨hmode, hrate⟩, ⟨hETH, hLUSD⟩, htv, hvalid⟩, hrefused⟩ :=
    exists_reachable (fun _ _ => True) (sampleOpenings.take 1) (fun s =>
      SampleLetThrough (5533 * 10 ^ 13) s ∧
      ¬ MeetsRequirements ((sampleOpen (5533 * 10 ^ 13)).call.execute sampleDeployment
        (sampleOpen (5533 * 10 ^ 13)).env s))
      (by decide +kernel)
  have hrate : s.HasBorrowingRate sampleEnv MINIMUM_BORROWING_RATE.bigNumber :=
    System.hasBorrowingRate_normal hmode hrate
  exact hrefused (hall sampleDeployment s sampleEnv ⟨10 ^ 36⟩ ⟨⟨10 ^ 18⟩, 0, 0⟩ _ _ _
    (sampleOpen (5533 * 10 ^ 13)) sampleDeployment_wired hr ⟨hETH, hLUSD⟩ hrate hvalid rfl htv)

end Liquity
