import Liquity.LibEthers.EthersLiquity
import Liquity.LiquityMath.Powers
import Liquity.Simulation.Redemption

/-!
# The fees of the SDK

The SDK's power and decayed base rate are the contract's, digit by digit, and its redemption rate
for an amount bounds the rate of every redemption of at most that amount.
-/

open Lib

namespace Liquity

open SafeMath LiquityMath

/-! ## `Decimal.pow` against `_decPow` -/

namespace LibBase.Decimal

variable {x y n : Nat}

theorem roundedMul_eq : roundedMul = roundMul := by
  have hhalf : HALF.bigNumber = DECIMAL_PRECISION / 2 := by decide
  have hdigits : DIGITS = DECIMAL_PRECISION := by decide
  funext x y
  rw [roundedMul, roundMul, hhalf, hdigits]

theorem powLoop_eq {rounds : Nat} (hrounds : n ≤ rounds) :
    powLoop rounds x y n = squareAndMultiply roundMul x y n := by
  induction rounds generalizing x y n with
  | zero => rw [powLoop, squareAndMultiply_last (by omega), roundedMul_eq]
  | succ rounds ih =>
    unfold powLoop
    by_cases hmore : 1 < n
    · rw [if_pos hmore, ih (by omega), squareAndMultiply.eq_1 roundMul x y n, if_pos hmore,
        roundedMul_eq]
    · rw [if_neg hmore, squareAndMultiply_last hmore, roundedMul_eq]

/-- The early returns are what the loop would compute. -/
theorem pow_eq (hn : n ≤ 0xffffffff) :
    (⟨x⟩ : Decimal).pow n = .ok ⟨powBySquaring roundMul DECIMAL_PRECISION x n⟩ := by
  have hassert : assertThat (n ≤ 0xffffffff) = .ok () := assertThat_ok.mpr hn
  simp only [pow, bind_ok, hassert, powBySquaring]
  refine ⟨(), trivial, ?_⟩
  by_cases hzero : n = 0
  · rw [if_pos hzero, if_pos hzero]
    rfl
  by_cases hone : n = 1
  · subst hone
    rw [if_neg hzero, if_pos rfl, if_neg hzero, squareAndMultiply_last (by decide),
      roundMul_monotone.mul_one]
    rfl
  · rw [if_neg hzero, if_neg hone, if_neg hzero, powLoop_eq (Nat.le_refl n)]
    rfl

theorem pow_eq_decPow (hx : x ≤ DIGITS) (hn : n ≤ maxMinutes) :
    ∃ p ≤ DIGITS, decPow x n = .ok p ∧ (⟨x⟩ : Decimal).pow n = .ok ⟨p⟩ := by
  refine ⟨power x n, power_le hx n, decPow_eq hx n, ?_⟩
  rw [pow_eq (hn.trans (by decide)), power, Nat.min_eq_left hn]

end LibBase.Decimal

/-! ## The decayed base rate -/

namespace TroveManager

open LibBase LibEthers Decimal

variable {t : TroveManager} {timestamp : Nat}

/-- A base rate of at most one, and a last fee operation at most 525600000 minutes ago. -/
structure FeesInRange (t : TroveManager) (timestamp : Nat) : Prop where
  baseRate : t.baseRate ≤ DECIMAL_PRECISION
  time : t.lastFeeOperationTime ≤ timestamp
  span : timestamp ≤ t.lastFeeOperationTime + 525600000 * SECONDS_IN_ONE_MINUTE

/-- Milliseconds over 60000, rounded down, are the contract's minutes. -/
theorem minutes_eq (last : Nat) (htime : last ≤ timestamp) :
    ((convertToDate timestamp).getTime - (convertToDate last).getTime).toNat / 60000 =
      (timestamp - last) / 60 := by
  have hms : ((convertToDate timestamp).getTime - (convertToDate last).getTime).toNat =
      (timestamp - last) * 1000 := by
    unfold convertToDate
    dsimp only
    omega
  rw [hms]
  exact Nat.mul_div_mul_right _ 60 (by decide : 0 < 1000)

theorem FeesInRange.baseRate_eq (h : t.FeesInRange timestamp) (recoveryMode : Bool) :
    ∃ rate, t.calcDecayedBaseRate timestamp = .ok rate ∧ rate ≤ DECIMAL_PRECISION ∧
      (getFeesFactory t timestamp recoveryMode).baseRateAt none = .ok ⟨rate⟩ := by
  have hminutes : (timestamp - t.lastFeeOperationTime) / 60 ≤ maxMinutes := by
    have hspan := h.span
    unfold SECONDS_IN_ONE_MINUTE at hspan
    unfold maxMinutes
    omega
  obtain ⟨p, hple, hp, hpow⟩ :=
    pow_eq_decPow (by decide : TroveManager.MINUTE_DECAY_FACTOR ≤ DIGITS) hminutes
  have hmul : t.baseRate * p ≤ DIGITS * DIGITS := Nat.mul_le_mul h.baseRate hple
  refine ⟨t.baseRate * p / DIGITS, ?_, Nat.div_le_of_le_mul hmul, ?_⟩
  · simp only [calcDecayedBaseRate, minutesPassedSinceLastFeeOp, bind_ok, SafeMath.sub_ok, mul_ok,
      div_ok]
    exact ⟨_, ⟨_, ⟨h.time, rfl⟩, by decide, rfl⟩, p, hp, _, ⟨hmul.trans_lt (by decide), rfl⟩, by decide, rfl⟩
  · change Fees.baseRate _ _ = _
    unfold Fees.baseRate
    simp only [getFeesFactory, Option.getD_none, bind_ok, pure_ok]
    rw [minutes_eq _ h.time]
    exact ⟨_, hpow, by rw [Decimal.mul, Nat.mul_comm]⟩

/-! ## Redemptions -/

variable {d : Deployment} {s s' : System} {price : Nat} {b : Address}

/-- In the middle of a redemption from `s`: the ether drawn is worth at most the LUSD redeemed, and
no balance has grown and no fee has been charged since. -/
structure LotsPriced (price : Nat) (s : System) (r : RedemptionState) : Prop where
  drawn : r.totalETHDrawn * price ≤ r.totalLUSDToRedeem * DECIMAL_PRECISION
  baseRate : r.system.troveManager.baseRate = s.troveManager.baseRate
  lastFeeOperationTime :
    r.system.troveManager.lastFeeOperationTime = s.troveManager.lastFeeOperationTime
  balances : ∀ x, r.system.lusdToken.balances x ≤ s.lusdToken.balances x

/-- Pending rewards change neither the rate nor any balance. -/
theorem applyPendingRewardsInternal_rate (hd : d.Wired)
    (h : applyPendingRewardsInternal d b s = .ok s') :
    s'.troveManager.baseRate = s.troveManager.baseRate ∧
      s'.troveManager.lastFeeOperationTime = s.troveManager.lastFeeOperationTime ∧
      s'.lusdToken = s.lusdToken := by
  unfold applyPendingRewardsInternal at h
  split at h
  · simp only [applyRewards, bind_ok] at h
    obtain ⟨-, -, ETH, -, LUSD, -, coll, -, debt, -, h⟩ := h
    obtain ⟨-, -, -, ether, rfl⟩ := movePendingTroveRewardsToActivePool_ok hd h
    exact ⟨rfl, rfl, rfl⟩
  · cases h
    exact ⟨rfl, rfl, rfl⟩

/-- A lot changes no rate, and only the gas reserve is burned with it. -/
theorem redeemCollateralFromTrove_rate (hd : d.Wired) {amount : Nat} {hints : RedemptionHints}
    {r : SingleRedemptionValues × System}
    (h : redeemCollateralFromTrove d b amount price hints s = .ok r) :
    r.1.ETHLot * price ≤ r.1.LUSDLot * DECIMAL_PRECISION ∧
      r.2.troveManager.baseRate = s.troveManager.baseRate ∧
      r.2.troveManager.lastFeeOperationTime = s.troveManager.lastFeeOperationTime ∧
      ∀ x, r.2.lusdToken.balances x ≤ s.lusdToken.balances x := by
  obtain ⟨coll, debt, -, -, -, -, hETH, -, hcases⟩ := redeemCollateralFromTrove_ok h
  have hlot : r.1.ETHLot * price ≤ r.1.LUSDLot * DECIMAL_PRECISION :=
    hETH ▸ Nat.div_mul_le_self _ _
  refine ⟨hlot, ?_⟩
  rcases hcases with ⟨-, -, hfull⟩ | ⟨NICR, -, -, ⟨-, hsame, -⟩ | ⟨-, -, -, hpart⟩⟩
  · obtain ⟨-, -, -, -, l, -, hr⟩ := redeemFully_ok hd hfull
    rw [hr]
    refine ⟨rfl, rfl, fun x => ?_⟩
    change Ledger.debit s.lusdToken.balances d.gasPool LUSD_GAS_COMPENSATION x ≤ _
    by_cases hx : x = d.gasPool
    · subst hx
      rw [Ledger.debit_self]
      exact Nat.sub_le _ _
    · exact (Ledger.debit_of_ne hx).le
  · rw [hsame]
    exact ⟨rfl, rfl, fun _ => Nat.le_refl _⟩
  · obtain ⟨stake, l, -, -, hr⟩ := redeemPartially_ok hpart
    rw [hr]
    exact ⟨rfl, rfl, fun _ => Nat.le_refl _⟩

theorem redemptionLoop_lotsPriced (hd : d.Wired) {hints : RedemptionHints}
    {rounds maxIterations : Nat} {currentBorrower : Address} {r r' : RedemptionState}
    (hr : LotsPriced price s r)
    (h : redemptionLoop d price hints rounds currentBorrower maxIterations r = .ok r') :
    LotsPriced price s r' := by
  induction rounds generalizing currentBorrower maxIterations r with
  | zero => simp [redemptionLoop] at h
  | succ rounds ih =>
    unfold redemptionLoop at h
    split at h
    next =>
      simp only [bind_ok] at h
      obtain ⟨s₁, hs₁, single, hsingle, h⟩ := h
      obtain ⟨hrate, htime, htoken⟩ := applyPendingRewardsInternal_rate hd hs₁
      obtain ⟨hlot, hrate', htime', hbalances⟩ := redeemCollateralFromTrove_rate hd hsingle
      have hle : ∀ x, single.2.lusdToken.balances x ≤ s.lusdToken.balances x := fun x =>
        (hbalances x).trans (by rw [htoken]; exact hr.balances x)
      split at h
      next =>
        cases h
        exact ⟨hr.drawn, (hrate'.trans hrate).trans hr.baseRate,
          (htime'.trans htime).trans hr.lastFeeOperationTime, hle⟩
      next =>
        simp only [bind_ok, add_ok, SafeMath.sub_ok] at h
        obtain ⟨_, ⟨-, rfl⟩, _, ⟨-, rfl⟩, _, -, h⟩ := h
        refine ih ⟨?_, (hrate'.trans hrate).trans hr.baseRate,
          (htime'.trans htime).trans hr.lastFeeOperationTime, hle⟩ h
        rw [Nat.add_mul, Nat.add_mul]
        exact Nat.add_le_add hr.drawn hlot
    next =>
      cases h
      exact hr

/-- A payment out of the Active Pool touches neither the trove manager nor the token. -/
theorem sendETH_kept {caller : Address} {amount : Nat}
    (h : ActivePool.sendETH d caller b amount s = .ok s') :
    s'.troveManager = s.troveManager ∧ s'.lusdToken = s.lusdToken := by
  obtain ⟨-, -, h⟩ := ActivePool.sendETH_ok h
  obtain ⟨p, q, sp, surplus, rfl, -, -⟩ := System.receiveETH_ok h
  exact ⟨rfl, rfl⟩

/-- The rate that a redemption charges, from the ether it draws. -/
theorem settleRedemption_rate {env : Env} {supply maxFee : Nat} {r : RedemptionState}
    (h : settleRedemption d env supply maxFee r = .ok s') :
    ∃ decayed, r.system.troveManager.calcDecayedBaseRate env.timestamp = .ok decayed ∧
      s'.troveManager.getRedemptionRate = calcRedemptionRate (Min.min
        (decayed + r.totalETHDrawn * env.price / supply / TroveManager.BETA) DECIMAL_PRECISION) ∧
      s'.lusdToken.balances env.sender + r.totalLUSDToRedeem ≤
        r.system.lusdToken.balances env.sender := by
  simp only [settleRedemption, bind_ok, SafeMath.sub_ok, System.onTroveManager_ok,
    System.onLQTYStaking_ok, System.onLUSDToken_ok, System.onActivePool_ok,
    updateBaseRateFromRedemption, mul_ok, div_ok, add_ok, min_eq] at h
  obtain ⟨-, -, _, ⟨t, ⟨decayed, hdecayed, _, ⟨-, rfl⟩, _, ⟨-, rfl⟩, _, ⟨-, rfl⟩, _, ⟨-, rfl⟩, -, -, ht⟩,
    rfl⟩, fee, -, -, -, s₂, h₂, _, ⟨l, -, rfl⟩, _, -, _, ⟨token, htoken, rfl⟩, _, ⟨p, -, rfl⟩, h₆⟩ := h
  obtain ⟨time, rfl⟩ := updateLastFeeOpTime_ok ht
  obtain ⟨htm₂, hlusd₂⟩ := sendETH_kept h₂
  obtain ⟨htm₆, hlusd₆⟩ := sendETH_kept h₆
  obtain ⟨hle, -, rfl⟩ := LUSDToken.burn_ok htoken
  dsimp only at htm₂ hlusd₂ htm₆ hlusd₆ hle
  refine ⟨decayed, hdecayed, ?_, ?_⟩
  · rw [getRedemptionRate, htm₆, htm₂]
  · rw [hlusd₆]
    simp only [Function.update_self]
    rw [hlusd₂] at hle ⊢
    omega

end TroveManager

open LibBase LibEthers Decimal TroveManager in
/-- The SDK's fraction of the supply bounds the increase of the base rate. -/
theorem LibBase.Fees.redemptionRate_of_base {fees : Fees} {decayed A total : Nat}
    (hbase : fees.baseRateAt none = .ok ⟨decayed⟩) (hbeta : fees.beta = LibEthers.BETA)
    (htotal : 0 < total) :
    fees.redemptionRate ((⟨A⟩ : Decimal).div ⟨total⟩) none = .ok ⟨Min.min
      (TroveManager.REDEMPTION_FEE_FLOOR + (A * DECIMAL_PRECISION / total / TroveManager.BETA + decayed))
        DECIMAL_PRECISION⟩ := by
  have hfraction : (⟨A⟩ : Decimal).div ⟨total⟩ = ⟨A * DIGITS / total⟩ := if_neg htotal.ne'
  have hhalf : ∀ fraction, (⟨fraction⟩ : Decimal).div fees.beta = ⟨fraction / TroveManager.BETA⟩ := by
    intro fraction
    rw [hbeta]
    change (⟨fraction * DIGITS / (2 * DIGITS)⟩ : Decimal) = _
    rw [Nat.mul_div_mul_right _ _ DIGITS_pos]
    rfl
  rw [hfraction]
  simp only [Fees.redemptionRate, hbase, bind_ok, pure_ok, Except.ok.injEq, exists_eq_left']
  apply Decimal.ext
  rw [Decimal.min_bigNumber]
  split
  next hzero =>
    have hzero : A * DIGITS / total = 0 := hzero
    change Min.min (_ + decayed) _ = Min.min (_ + (A * DIGITS / total / _ + decayed)) _
    rw [hzero, Nat.zero_div, Nat.zero_add]
    rfl
  next =>
    rw [hhalf]
    rfl

section

open LibBase LibEthers TroveManager

/-- The contract's borrowing rate is the SDK's. -/
theorem TroveManager.borrowingRate_eq {t : TroveManager} {timestamp : Nat}
    (h : t.FeesInRange timestamp) :
    ∃ rate, (getFeesFactory t timestamp false).borrowingRate none = .ok rate ∧
      t.getBorrowingRateWithDecay timestamp = .ok rate.bigNumber := by
  obtain ⟨decayed, hdecayed, hle, hbase⟩ := h.baseRate_eq false
  refine ⟨(MINIMUM_BORROWING_RATE.add ⟨decayed⟩).min MAXIMUM_BORROWING_RATE, ?_, ?_⟩
  · simp only [Fees.borrowingRate, getFeesFactory, Bool.false_eq_true, if_false, bind_ok, pure_ok]
    exact ⟨_, hbase, rfl⟩
  · rw [Decimal.min_bigNumber]
    simp only [getBorrowingRateWithDecay, calcBorrowingRate, bind_ok, pure_ok, add_ok, min_eq]
    have hlt : BORROWING_FEE_FLOOR + decayed < 2 ^ 256 :=
      (Nat.add_le_add_left hle _).trans_lt (by decide)
    exact ⟨decayed, hdecayed, _, ⟨hlt, rfl⟩, rfl⟩

/-- The rate that a redemption of at most `A` charges, which `getRedemptionRate` still answers after
it, is at most what the SDK predicted from the state before. -/
theorem TroveManager.redemptionRate_le {d : Deployment} {s s' : System} {env : Env}
    {amount maxIterations maxFee A total : Nat} {hints : RedemptionHints} {recoveryMode : Bool}
    (hd : d.Wired) (hrange : s.troveManager.FeesInRange env.timestamp)
    (htotal : s.getEntireSystemDebt = .ok total)
    (hA : s.lusdToken.balances env.sender ≤ s'.lusdToken.balances env.sender + A)
    (h : redeemCollateral d env amount hints maxIterations maxFee s = .ok s') :
    ∃ charged rate, s'.troveManager.getRedemptionRate = .ok charged ∧
      (getFeesFactory s.troveManager env.timestamp recoveryMode).redemptionRate
        ((⟨A⟩ : Decimal).div ⟨total⟩) none = .ok rate ∧
      charged ≤ rate.bigNumber := by
  simp only [redeemCollateral, bind_ok] at h
  obtain ⟨-, -, -, -, -, -, -, -, -, -, supply, hsupply, -, -, first, -, r, hr, h⟩ := h
  rw [htotal] at hsupply
  cases hsupply
  have hstart : LotsPriced env.price s
      { remainingLUSD := amount, totalLUSDToRedeem := 0, totalETHDrawn := 0, system := s } :=
    ⟨by rw [Nat.zero_mul, Nat.zero_mul], rfl, rfl, fun _ => Nat.le_refl _⟩
  have hpriced := redemptionLoop_lotsPriced hd hstart hr
  obtain ⟨decayed, hdecayed, hcharged, hburned⟩ := settleRedemption_rate h
  obtain ⟨decayed', hdecayed', hle, hbase⟩ := hrange.baseRate_eq recoveryMode
  have hsame : decayed = decayed' := by
    simp only [calcDecayedBaseRate, minutesPassedSinceLastFeeOp, hpriced.baseRate,
      hpriced.lastFeeOperationTime] at hdecayed hdecayed'
    rw [hdecayed] at hdecayed'
    exact Except.ok.inj hdecayed'
  subst hsame
  have hpos : 0 < total := by
    by_contra hzero
    have hzero : total = 0 := by omega
    subst hzero
    simp only [settleRedemption, bind_ok, System.onTroveManager_ok, updateBaseRateFromRedemption,
      SafeMath.div_ok] at h
    obtain ⟨-, -, _, ⟨_, ⟨_, -, _, -, _, ⟨hfalse, -⟩, -⟩, -⟩, -⟩ := h
    exact absurd hfalse (Nat.lt_irrefl 0)
  refine ⟨Min.min (REDEMPTION_FEE_FLOOR + Min.min
    (decayed + r.totalETHDrawn * env.price / total / BETA) DECIMAL_PRECISION) DECIMAL_PRECISION, _,
    ?_, Fees.redemptionRate_of_base hbase rfl hpos, ?_⟩
  · rw [hcharged]
    simp only [calcRedemptionRate, bind_ok, pure_ok, add_ok, min_eq]
    refine ⟨_, ⟨?_, rfl⟩, rfl⟩
    exact (Nat.add_le_add_left (Nat.min_le_right _ _) _).trans_lt (by decide)
  · -- the ether drawn is worth at most the LUSD burned, which is at most `A`
    have hvalue : r.totalETHDrawn * env.price ≤ A * DECIMAL_PRECISION := by
      have hbalance := hpriced.balances env.sender
      exact hpriced.drawn.trans (Nat.mul_le_mul_right _ (by omega))
    have hincrease : r.totalETHDrawn * env.price / total / BETA ≤
        A * DECIMAL_PRECISION / total / BETA :=
      Nat.div_le_div_right (Nat.div_le_div_right hvalue)
    have hbase : Min.min (decayed + r.totalETHDrawn * env.price / total / BETA) DECIMAL_PRECISION ≤
        A * DECIMAL_PRECISION / total / BETA + decayed := by
      refine (Nat.min_le_left _ _).trans ?_
      rw [Nat.add_comm decayed]
      exact Nat.add_le_add_right hincrease decayed
    exact min_le_min_right _ (Nat.add_le_add_left hbase _)

/-- The fees of the SDK agree with the contract's. -/
theorem sdk_fees_agree {d : Deployment} (hd : d.Wired) :
    (∀ base n, base ≤ DECIMAL_PRECISION → n ≤ 525600000 →
      ∃ p, decPow base n = .ok p ∧ (⟨base⟩ : Decimal).pow n = .ok ⟨p⟩) ∧
    (∀ (t : TroveManager) (timestamp : Nat), t.FeesInRange timestamp →
      ∃ rate, (getFeesFactory t timestamp false).borrowingRate none = .ok rate ∧
        t.getBorrowingRateWithDecay timestamp = .ok rate.bigNumber) ∧
    ∀ (s s' : System) (env : Env) (amount : Nat) (hints : RedemptionHints)
      (maxIterations maxFee A total : Nat) (recoveryMode : Bool),
      s.troveManager.FeesInRange env.timestamp → s.getEntireSystemDebt = .ok total →
      s.lusdToken.balances env.sender ≤ s'.lusdToken.balances env.sender + A →
      redeemCollateral d env amount hints maxIterations maxFee s = .ok s' →
      ∃ charged rate, s'.troveManager.getRedemptionRate = .ok charged ∧
        (getFeesFactory s.troveManager env.timestamp recoveryMode).redemptionRate
          ((⟨A⟩ : Decimal).div ⟨total⟩) none = .ok rate ∧
        charged ≤ rate.bigNumber := by
  refine ⟨fun base n hbase hn => ?_, fun t timestamp h => TroveManager.borrowingRate_eq h, ?_⟩
  · obtain ⟨p, -, hp, hpow⟩ := Decimal.pow_eq_decPow hbase hn
    exact ⟨p, hp, hpow⟩
  · intro s s' env amount hints maxIterations maxFee A total recoveryMode hrange htotal hA h
    exact TroveManager.redemptionRate_le hd hrange htotal hA h

/-- The second sample trove is redeemed as a whole. -/
theorem sdk_fees_agree_sample : ∃ s s' charged rate,
    redeemCollateral sampleDeployment ⟨101, 0, 0, 2000 * 10 ^ 18⟩ (1005 * 10 ^ 18) ⟨0, 0, 0, 0⟩ 0
      (10 ^ 18) s = .ok s' ∧
    s'.troveManager.getRedemptionRate = .ok charged ∧
    (getFeesFactory s.troveManager 0 false).redemptionRate
      ((⟨1005 * 10 ^ 18⟩ : Decimal).div ⟨4021 * 10 ^ 18⟩) none = .ok rate ∧
    charged ≤ rate.bigNumber := by
  obtain ⟨s, -, hrate, htime, htotal, hredeemed⟩ := exists_reachable (fun _ _ => True) sampleOpenings
    (fun s => s.troveManager.baseRate = 0 ∧ s.troveManager.lastFeeOperationTime = 0 ∧
      s.getEntireSystemDebt = .ok (4021 * 10 ^ 18) ∧
      (redeemCollateral sampleDeployment ⟨101, 0, 0, 2000 * 10 ^ 18⟩ (1005 * 10 ^ 18) ⟨0, 0, 0, 0⟩ 0
        (10 ^ 18) s).toOption.any (fun s' => decide
          (s.lusdToken.balances 101 ≤ s'.lusdToken.balances 101 + 1005 * 10 ^ 18)) = true)
    (by decide +kernel)
  obtain ⟨s', hs', hA⟩ := exists_ok hredeemed
  have hrange : s.troveManager.FeesInRange 0 :=
    ⟨hrate ▸ Nat.zero_le _, htime.le, Nat.zero_le _⟩
  obtain ⟨charged, rate, hcharged, hpredicted, hle⟩ :=
    (sdk_fees_agree sampleDeployment_wired).2.2 s s' _ _ _ _ _ (1005 * 10 ^ 18) _ false hrange htotal hA hs'
  exact ⟨s, s', charged, rate, hs', hcharged, hpredicted, hle⟩

end

end Liquity
