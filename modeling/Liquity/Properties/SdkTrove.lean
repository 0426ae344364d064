import Liquity.LibBase.Trove
import Liquity.Soundness

/-!
# The trove that the SDK predicts

`Trove.create` against the trove that `openTrove` stores.  The fees agree to the last unit; the
liquidation reserves of the two sides do not.
-/

open Lib

namespace Liquity

open SafeMath TroveManager

variable {d : Deployment} {s s' : System}

/-- The fee that is charged is the one at the decayed rate, rounded down. -/
theorem BorrowerOperations.triggerBorrowingFee_fee {timestamp amount maxFee : Nat}
    {r : Nat × System} (h : triggerBorrowingFee d timestamp amount maxFee s = .ok r) :
    ∃ rate, s.troveManager.getBorrowingRateWithDecay timestamp = .ok rate ∧
      r.1 = rate * amount / DECIMAL_PRECISION := by
  simp only [triggerBorrowingFee, bind_ok, pure_ok, System.onTroveManager_ok,
    decayBaseRateFromBorrowing, getBorrowingFee, calcBorrowingFee, mul_ok, div_ok] at h
  obtain ⟨_, ⟨t, ⟨-, -, baseRate, hbaseRate, -, -, ht⟩, rfl⟩, fee, ⟨rate, hrate, _, ⟨-, rfl⟩, -, rfl⟩,
    -, -, _, -, _, -, rfl⟩ := h
  obtain ⟨time, rfl⟩ := updateLastFeeOpTime_ok ht
  exact ⟨rate, bind_ok.mpr ⟨baseRate, hbaseRate, hrate⟩, rfl⟩

/-- The borrowing rate for an opening: none in Recovery Mode. -/
def System.HasBorrowingRate (s : System) (env : Env) (rate : Nat) : Prop :=
  ∃ recovery, s.checkRecoveryMode env.price = .ok recovery ∧ (recovery = true → rate = 0) ∧
    (recovery = false → s.troveManager.getBorrowingRateWithDecay env.timestamp = .ok rate)

theorem System.hasBorrowingRate_normal {env : Env} {rate : Nat}
    (hmode : s.checkRecoveryMode env.price = .ok false)
    (hrate : s.troveManager.getBorrowingRateWithDecay env.timestamp = .ok rate) :
    s.HasBorrowingRate env rate :=
  ⟨false, hmode, fun h => absurd h (by decide), fun _ => hrate⟩

/-- The fee of an opening, at the rate that holds for it. -/
theorem BorrowerOperations.openTroveFee_fee {env : Env} {recovery : Bool} {maxFee amount rate : Nat}
    {r : Nat × System} (hrate : s.HasBorrowingRate env rate)
    (hmode : s.checkRecoveryMode env.price = .ok recovery)
    (h : openTroveFee d env recovery maxFee amount s = .ok r) :
    r.1 = rate * amount / DECIMAL_PRECISION := by
  obtain ⟨recovery', hmode', hzero, hdecayed⟩ := hrate
  rw [hmode] at hmode'
  cases hmode'
  cases recovery with
  | true =>
    simp only [openTroveFee, Bool.true_eq_false, if_false] at h
    cases h
    rw [hzero rfl, Nat.zero_mul, Nat.zero_div]
  | false =>
    simp only [openTroveFee, if_true] at h
    obtain ⟨charged, hcharged, hfee⟩ := triggerBorrowingFee_fee h
    rw [hdecayed rfl] at hcharged
    cases hcharged
    exact hfee

/-- What `openTrove` stores. -/
theorem BorrowerOperations.openTrove_stores (hd : d.Wired) (hs : Sound d s .none) {env : Env}
    {maxFee amount rate : Nat} {upper lower : Address} (hrate : s.HasBorrowingRate env rate)
    (h : openTrove d env maxFee amount upper lower s = .ok s') :
    (s'.troveManager.troves env.sender).coll = env.value ∧
      (s'.troveManager.troves env.sender).debt =
        amount + rate * amount / DECIMAL_PRECISION + LUSD_GAS_COMPENSATION := by
  obtain ⟨recovery, r, stake, l, ether, hmode, hr, -, -, -, -, -, -, rfl⟩ := openTrove_ok hd hs h
  rw [← openTroveFee_fee hrate hmode hr]
  simp [register]

namespace LibBase

open Decimal

/-- The parameters `{ depositCollateral, borrowLUSD }`. -/
def creationParams (depositCollateral borrowLUSD : Nat) : List (String × Option Decimal) :=
  [("depositCollateral", some ⟨depositCollateral⟩), ("borrowLUSD", some ⟨borrowLUSD⟩)]

theorem Trove.create_eq (c x : Nat) (rate : Decimal) :
    Trove.create (creationParams c x) rate =
      .ok ⟨⟨c⟩, LUSD_LIQUIDATION_RESERVE.add (applyFee rate ⟨x⟩)⟩ := rfl

/-- The contract's reserve is five times the SDK's. -/
theorem reserve_gap :
    LUSD_LIQUIDATION_RESERVE.bigNumber + 4 * 10 ^ 17 = LUSD_GAS_COMPENSATION := by decide

end LibBase

open LibBase in
/-- Collateral and fee are as predicted, but the stored debt is always 0.4 LUSD above the
prediction. -/
theorem openTrove_debt_above_created (hd : d.Wired) (hr : Reachable d s) {env : Env}
    {maxFee amount : Nat} {upper lower : Address} {rate : Decimal}
    (hrate : s.HasBorrowingRate env rate.bigNumber)
    (h : Step d s ⟨env, .openTrove maxFee amount upper lower⟩ s') :
    ∃ predicted, Trove.create (creationParams env.value amount) rate = .ok predicted ∧
      predicted.collateral.bigNumber = (s'.troveManager.troves env.sender).coll ∧
      predicted.debt.bigNumber + 4 * 10 ^ 17 = (s'.troveManager.troves env.sender).debt ∧
      predicted ≠ ⟨⟨(s'.troveManager.troves env.sender).coll⟩,
        ⟨(s'.troveManager.troves env.sender).debt⟩⟩ := by
  obtain ⟨ether, hbody, -, hkept⟩ := h.body hd
  have hsilent : Evolves d PlainOnly s .none { s with timestamp := env.timestamp, ether } .none :=
    .silent (hr.sound hd) rfl rfl hkept
  have hs₀ := hsilent.sound hd (hr.sound hd)
  have hrate₀ : System.HasBorrowingRate { s with timestamp := env.timestamp, ether } env
    rate.bigNumber := hrate
  obtain ⟨hcoll, hdebt⟩ := BorrowerOperations.openTrove_stores hd hs₀ hrate₀ hbody
  have hgap : (LUSD_LIQUIDATION_RESERVE.add (applyFee rate ⟨amount⟩)).bigNumber + 4 * 10 ^ 17 =
      (s'.troveManager.troves env.sender).debt := by
    rw [hdebt, ← reserve_gap]
    change LUSD_LIQUIDATION_RESERVE.bigNumber + (applyFee rate ⟨amount⟩).bigNumber + 4 * 10 ^ 17 = _
    rw [applyFee_bigNumber]
    change _ + (amount + rate.bigNumber * amount / DECIMAL_PRECISION) + _ = _
    omega
  refine ⟨_, Trove.create_eq env.value amount rate, hcoll.symm, hgap, fun heq => ?_⟩
  have hdebt' := congrArg (fun t => t.debt.bigNumber) heq
  dsimp only at hdebt'
  omega

/-- The first opening of a system, in Normal Mode at the lowest rate. -/
def sampleOpening : Transaction :=
  ⟨⟨101, 10 ^ 19, 0, 2000 * 10 ^ 18⟩, .openTrove (10 ^ 18) (3000 * 10 ^ 18) 0 0⟩

open LibBase in
theorem openTrove_debt_above_created_sample : ∃ s s' predicted,
    Step sampleDeployment s sampleOpening s' ∧
      Trove.create (creationParams (10 ^ 19) (3000 * 10 ^ 18)) MINIMUM_BORROWING_RATE =
        .ok predicted ∧
      predicted.debt.bigNumber + 4 * 10 ^ 17 = (s'.troveManager.troves 101).debt := by
  obtain ⟨s, s', hr, hstep, hmode, hrate⟩ := exists_step [] sampleOpening
    (fun s _ => s.checkRecoveryMode (2000 * 10 ^ 18) = .ok false ∧
      s.troveManager.getBorrowingRateWithDecay 0 = .ok MINIMUM_BORROWING_RATE.bigNumber)
    (by decide +kernel)
  have hrate : s.HasBorrowingRate ⟨101, 10 ^ 19, 0, 2000 * 10 ^ 18⟩ MINIMUM_BORROWING_RATE.bigNumber :=
    System.hasBorrowingRate_normal hmode hrate
  obtain ⟨predicted, hcreate, -, hdebt, -⟩ :=
    openTrove_debt_above_created sampleDeployment_wired hr hrate hstep
  exact ⟨s, s', predicted, hstep, hcreate, hdebt⟩

open LibBase in
/-- The trove that the first opening stores is not the one that `Trove.create` predicts. -/
theorem openTrove_not_as_created :
    ¬ ∀ (d : Deployment) (s s' : System) (env : Env) (maxFee amount : Nat) (upper lower : Address)
      (rate : Decimal), d.Wired → Reachable d s → 0 < env.value → 0 < amount →
      s.HasBorrowingRate env rate.bigNumber →
      Step d s ⟨env, .openTrove maxFee amount upper lower⟩ s' →
      Trove.create (creationParams env.value amount) rate =
        .ok ⟨⟨(s'.troveManager.troves env.sender).coll⟩,
          ⟨(s'.troveManager.troves env.sender).debt⟩⟩ := by
  intro hall
  obtain ⟨s, s', hr, hstep, ⟨hmode, hrate⟩, hdebt⟩ := exists_step [] sampleOpening
    (fun s s' => (s.checkRecoveryMode (2000 * 10 ^ 18) = .ok false ∧
      s.troveManager.getBorrowingRateWithDecay 0 = .ok MINIMUM_BORROWING_RATE.bigNumber) ∧
      (s'.troveManager.troves 101).debt = 30155 * 10 ^ 17) (by decide +kernel)
  have hrate : s.HasBorrowingRate ⟨101, 10 ^ 19, 0, 2000 * 10 ^ 18⟩ MINIMUM_BORROWING_RATE.bigNumber :=
    System.hasBorrowingRate_normal hmode hrate
  have hpredicted := hall sampleDeployment s s' _ _ _ _ _ MINIMUM_BORROWING_RATE
    sampleDeployment_wired hr (by decide) (by decide) hrate hstep
  have hcreated : Trove.create (creationParams (10 ^ 19) (3000 * 10 ^ 18)) MINIMUM_BORROWING_RATE =
      .ok ⟨⟨10 ^ 19⟩, ⟨30151 * 10 ^ 17⟩⟩ := by decide
  have heq := congrArg (fun t : LibBase.Trove => t.debt.bigNumber)
    (Except.ok.inj (hcreated.symm.trans hpredicted))
  exact absurd (heq.trans hdebt) (by decide)

end Liquity
