import Liquity.FeeBounds
import Liquity.Properties.BaseRate
import Liquity.Properties.Redemptions
import Liquity.Properties.SystemRatio

/-!
# The base rate after a redemption

The new rate is the decayed rate plus half of the share of the supply that was redeemed, both rounded
down.  A redemption that is too small for its share to count leaves a decayed rate of zero at zero, and
then the assertion on the new rate reverts it.
-/

open Lib

namespace Liquity

open SafeMath LiquityMath TroveManager

variable {d : Deployment} {s : System}

namespace TroveManager

variable {t t' : TroveManager} {timestamp drawn price supply decayed : Nat}

theorem redeemedBaseRate_pos (hsupply : 0 < supply) :
    0 < redeemedBaseRate decayed drawn price supply ↔
      0 < decayed ∨ BETA * supply ≤ drawn * price := by
  have hone : 0 < DECIMAL_PRECISION := by decide
  have hBETA : 0 < BETA := by decide
  have hshare : 0 < drawn * price / supply / BETA ↔ BETA * supply ≤ drawn * price := by
    rw [Nat.div_div_eq_div_mul, Nat.div_pos_iff, Nat.mul_comm supply]
    exact and_iff_right (Nat.mul_pos hBETA hsupply)
  rw [redeemedBaseRate, lt_min_iff, and_iff_left hone, Nat.add_pos_iff_pos_or_pos, hshare]

/-- With a value of at most the supply, only the assertion can fail. -/
theorem updateBaseRateFromRedemption_eq (hdecayed : t.calcDecayedBaseRate timestamp = .ok decayed)
    (hle : decayed ≤ DECIMAL_PRECISION) (hsupply : 0 < supply) (hvalue : drawn * price < 2 ^ 256)
    (hshare : drawn * price ≤ supply * DECIMAL_PRECISION) :
    t.updateBaseRateFromRedemption drawn price supply timestamp =
      assertThat (0 < redeemedBaseRate decayed drawn price supply) >>= fun _ =>
        updateLastFeeOpTime timestamp
          { t with baseRate := redeemedBaseRate decayed drawn price supply } := by
  have hfraction : drawn * price / supply ≤ DECIMAL_PRECISION := Nat.div_le_of_le_mul hshare
  have hincrease : drawn * price / supply / BETA ≤ DECIMAL_PRECISION :=
    (Nat.div_le_self _ _).trans hfraction
  have hrate : decayed + drawn * price / supply / BETA < 2 ^ 256 :=
    (Nat.add_le_add hle hincrease).trans_lt (by decide)
  have hmul : mul drawn price = .ok (drawn * price) := mul_ok.mpr ⟨hvalue, rfl⟩
  have hdiv : div (drawn * price) supply = .ok (drawn * price / supply) :=
    div_ok.mpr ⟨hsupply, rfl⟩
  have hhalf : div (drawn * price / supply) BETA = .ok (drawn * price / supply / BETA) :=
    div_ok.mpr ⟨by decide, rfl⟩
  have hadd : add decayed (drawn * price / supply / BETA) =
      .ok (decayed + drawn * price / supply / BETA) := add_ok.mpr ⟨hrate, rfl⟩
  rw [updateBaseRateFromRedemption, hdecayed, ok_bind, hmul, ok_bind, hdiv, ok_bind, hhalf, ok_bind,
    hadd, ok_bind, min_eq]
  rfl

theorem exists_updateLastFeeOpTime (t : TroveManager) (htime : t.lastFeeOperationTime ≤ timestamp) :
    ∃ t', t.updateLastFeeOpTime timestamp = .ok t' ∧ t'.baseRate = t.baseRate := by
  simp only [updateLastFeeOpTime, bind_ok, pure_ok, sub_ok]
  refine ⟨_, ⟨_, ⟨htime, rfl⟩, rfl⟩, ?_⟩
  split <;> rfl

end TroveManager

/-- The rate stays positive by itself, or a large enough share of the supply is redeemed. -/
def RateStaysPositive (env : Env) (amount maxIterations : Nat) (hints : RedemptionHints)
    (s : System) : Prop :=
  0 < s.troveManager.decayedBaseRate env.timestamp ∨
    BETA * s.totalDebt ≤
      ((s.redemptionLots env.price amount hints maxIterations).map RedemptionLot.ETH).sum * env.price

instance (env : Env) (amount maxIterations : Nat) (hints : RedemptionHints) (s : System) :
    Decidable (RateStaysPositive env amount maxIterations hints s) :=
  inferInstanceAs (Decidable (_ ∨ _))

/-- What a redemption draws is worth at most the supply, and no product overflows. -/
theorem drawn_worth_le {price amount : Nat} {lots : List RedemptionLot}
    (hTCR : requireTCRoverMCR price s = .ok ()) (hpos : 0 < s.totalDebt)
    (hamount : amount ≤ s.totalDebt) (hLUSD : (lots.map RedemptionLot.LUSD).sum ≤ amount)
    (hETH : ∀ lot ∈ lots, lot.ETH = lot.LUSD * DECIMAL_PRECISION / price) :
    (lots.map RedemptionLot.ETH).sum * price ≤ s.totalDebt * DECIMAL_PRECISION ∧
      (lots.map RedemptionLot.ETH).sum * price < 2 ^ 256 := by
  simp only [requireTCRoverMCR, bind_ok, require_ok] at hTCR
  obtain ⟨TCR, hratio, hMCR⟩ := hTCR
  have hcomputed := (System.getTCR_ok.mp hratio).2.2
  have hbacked := (computeCR_bounds hpos hcomputed).1
  simp only [computeCR, if_pos hpos, bind_ok, mul_ok] at hcomputed
  obtain ⟨_, ⟨hfits, -⟩, -⟩ := hcomputed
  have hworth : (lots.map RedemptionLot.ETH).sum * price ≤ s.totalDebt * DECIMAL_PRECISION :=
    (sum_ETH_mul_le hETH).trans (Nat.mul_le_mul_right _ (hLUSD.trans hamount))
  have hcoll : s.totalDebt * DECIMAL_PRECISION ≤ s.totalColl * price := by
    have hone : DECIMAL_PRECISION ≤ TCR := (by decide : DECIMAL_PRECISION ≤ MCR).trans hMCR
    rw [Nat.mul_comm]
    exact (Nat.mul_le_mul_right _ hone).trans hbacked
  exact ⟨hworth, (hworth.trans hcoll).trans_lt hfits⟩

theorem drawCollateral_fees {env : Env} {amount maxIterations maxFee : Nat} {hints : RedemptionHints}
    {drawn : Nat × RedemptionState}
    (h : drawCollateral d env amount hints maxIterations maxFee s = .ok drawn) :
    drawn.2.system.fees = s.fees := by
  simp only [drawCollateral, bind_ok, pure_ok] at h
  obtain ⟨-, -, -, -, -, -, -, -, -, -, supply, -, -, -, first, -, r, hloop, rfl⟩ := h
  exact redemptionLoop_fees hloop

/-- The update that a redemption gets to checks the sign of the rate, and nothing else of it fails. -/
theorem updateBaseRate_of_drawn (hd : d.Wired) (hs : Sound d s .none) (hfees : FeesBounded s)
    {env : Env} (htime : s.timestamp = env.timestamp) {amount maxIterations maxFee : Nat}
    {hints : RedemptionHints} {drawn : Nat × RedemptionState}
    (hdraw : drawCollateral d env amount hints maxIterations maxFee s = .ok drawn)
    (hpos : 0 < drawn.2.totalETHDrawn) (hprice : 0 < env.price) :
    (RateStaysPositive env amount maxIterations hints s →
      ∃ t, updateBaseRateFromRedemption drawn.2.totalETHDrawn env.price drawn.1 env.timestamp
        drawn.2.system.troveManager = .ok t ∧ 0 < t.baseRate ∧ t.baseRate ≤ DECIMAL_PRECISION) ∧
    (¬ RateStaysPositive env amount maxIterations hints s →
      updateBaseRateFromRedemption drawn.2.totalETHDrawn env.price drawn.1 env.timestamp
        drawn.2.system.troveManager = .error .assertion) := by
  obtain ⟨hsupply, hamount, hTCR, -, -, hETH⟩ := drawCollateral_ok hd hs hdraw
  have htotal : s.totalDebt = drawn.1 := (add_ok.mp hsupply).2
  have hkept := drawCollateral_fees hdraw
  simp only [System.fees, Prod.mk.injEq] at hkept
  obtain ⟨hrate, hclock, -⟩ := hkept
  have hpriced : ∀ lot ∈ s.redemptionLots env.price amount hints maxIterations,
      lot.ETH = lot.LUSD * DECIMAL_PRECISION / env.price := by
    intro lot hlot
    obtain ⟨n, heq⟩ := redemptionLots_mem hlot
    rw [heq]
    rfl
  have hredeemed : ((s.redemptionLots env.price amount hints maxIterations).map
      RedemptionLot.LUSD).sum ≤ amount := redemptionLots_sum_le
  have hdebt : 0 < s.totalDebt := by
    have hvalue := sum_ETH_mul_le hpriced
    rw [← hETH] at hvalue
    have hpaid := Nat.mul_pos hpos hprice
    have hLUSD := Nat.pos_of_mul_pos_right (hpaid.trans_le hvalue)
    omega
  rw [← htotal] at hamount
  obtain ⟨hworth, hfits⟩ := drawn_worth_le hTCR hdebt hamount hredeemed hpriced
  rw [← hETH] at hworth hfits
  have hnow : s.troveManager.lastFeeOperationTime ≤ env.timestamp := hfees.time.trans_eq htime
  have hdecayed : drawn.2.system.troveManager.calcDecayedBaseRate env.timestamp =
      .ok (s.troveManager.decayedBaseRate env.timestamp) := by
    rw [← calcDecayedBaseRate_eq hfees.baseRate hnow]
    simp only [calcDecayedBaseRate, minutesPassedSinceLastFeeOp, hrate, hclock]
  rw [← htotal, updateBaseRateFromRedemption_eq hdecayed (decayedBaseRate_le hfees.baseRate) hdebt
    hfits hworth, RateStaysPositive, ← hETH, ← redeemedBaseRate_pos hdebt, assertThat]
  constructor
  · intro hpositive
    obtain ⟨t, ht, hset⟩ := exists_updateLastFeeOpTime { drawn.2.system.troveManager with
      baseRate := redeemedBaseRate (s.troveManager.decayedBaseRate env.timestamp)
        drawn.2.totalETHDrawn env.price s.totalDebt } (hclock.trans_le hnow)
    rw [if_pos hpositive, ok_bind]
    refine ⟨t, ht, ?_, ?_⟩
    · rw [hset]
      exact hpositive
    · rw [hset]
      exact Nat.min_le_right _ _
  · intro hzero
    rw [if_neg hzero]
    rfl

/-- A redemption that has drawn collateral leaves a positive rate exactly if the rate stays positive;
otherwise it is reverted by the assertion. -/
theorem redemption_rate_iff (hd : d.Wired) (hr : Reachable d s) {env : Env}
    {amount maxIterations maxFee : Nat} {hints : RedemptionHints}
    (hvalid : Transaction.Valid d ⟨env, .redeemCollateral amount hints maxIterations maxFee⟩ s)
    {drawn : Nat × RedemptionState}
    (hdraw : drawCollateral d env amount hints maxIterations maxFee
      { s with timestamp := env.timestamp } = .ok drawn)
    (hpos : 0 < drawn.2.totalETHDrawn) :
    ((∃ t, updateBaseRateFromRedemption drawn.2.totalETHDrawn env.price drawn.1 env.timestamp
        drawn.2.system.troveManager = .ok t ∧ 0 < t.baseRate ∧ t.baseRate ≤ DECIMAL_PRECISION) ↔
      RateStaysPositive env amount maxIterations hints s) ∧
    (¬ RateStaysPositive env amount maxIterations hints s →
      redeemCollateral d env amount hints maxIterations maxFee { s with timestamp := env.timestamp } =
        .error .assertion) := by
  have hs : Sound d { s with timestamp := env.timestamp } .none := { hr.sound hd with }
  have hbounded := hr.feesBounded hd
  have hfees : FeesBounded { s with timestamp := env.timestamp } :=
    ⟨hbounded.baseRate, hbounded.time.trans hvalid.time⟩
  obtain ⟨hreached, hreverted⟩ := updateBaseRate_of_drawn hd hs hfees rfl hdraw hpos hvalid.price
  have hsame : RateStaysPositive env amount maxIterations hints { s with timestamp := env.timestamp } ↔
      RateStaysPositive env amount maxIterations hints s := by
    have hlots : System.redemptionLots env.price amount hints maxIterations
        { s with timestamp := env.timestamp } = s.redemptionLots env.price amount hints maxIterations :=
      redemptionLots_congr rfl rfl
    unfold RateStaysPositive
    rw [hlots]
    rfl
  rw [hsame] at hreached hreverted
  refine ⟨⟨?_, hreached⟩, ?_⟩
  · rintro ⟨t, ht, -⟩
    by_contra hfails
    rw [hreverted hfails] at ht
    cases ht
  · intro hfails
    rw [redeemCollateral_eq, hdraw, ok_bind, settleRedemption, require, if_pos hpos, ok_bind]
    dsimp only [System.onTroveManager]
    rw [hreverted hfails]
    rfl

/-- A redemption of 1200 starts from a rate of zero and leaves a positive one. -/
theorem sampleRedemption_rate : ∃ s drawn t, Reachable sampleDeployment s ∧
    drawCollateral sampleDeployment ⟨101, 0, 0, 2000 * 10 ^ 18⟩ (1200 * 10 ^ 18)
      ⟨102, 0, 0, 351090232228328310⟩ 0 (10 ^ 18) { s with timestamp := 0 } = .ok drawn ∧
    s.troveManager.baseRate = 0 ∧
    updateBaseRateFromRedemption drawn.2.totalETHDrawn (2000 * 10 ^ 18) drawn.1 0
      drawn.2.system.troveManager = .ok t ∧ 0 < t.baseRate ∧ t.baseRate ≤ DECIMAL_PRECISION := by
  obtain ⟨s, hs, hvalid, hzero, hpositive, hdraw⟩ := exists_reachable (fun _ _ => True) sampleOpenings
    (fun s => Transaction.Valid sampleDeployment ⟨⟨101, 0, 0, 2000 * 10 ^ 18⟩,
        .redeemCollateral (1200 * 10 ^ 18) ⟨102, 0, 0, 351090232228328310⟩ 0 (10 ^ 18)⟩ s ∧
      s.troveManager.baseRate = 0 ∧
      RateStaysPositive ⟨101, 0, 0, 2000 * 10 ^ 18⟩ (1200 * 10 ^ 18) 0
        ⟨102, 0, 0, 351090232228328310⟩ s ∧
      (drawCollateral sampleDeployment ⟨101, 0, 0, 2000 * 10 ^ 18⟩ (1200 * 10 ^ 18)
        ⟨102, 0, 0, 351090232228328310⟩ 0 (10 ^ 18) { s with timestamp := 0 }).toOption.any
          (fun drawn => decide (0 < drawn.2.totalETHDrawn)) = true) (by decide +kernel)
  obtain ⟨drawn, hdraw, hpos⟩ := exists_ok hdraw
  obtain ⟨t, ht⟩ := (redemption_rate_iff sampleDeployment_wired hs hvalid hdraw hpos).1.mpr hpositive
  exact ⟨s, drawn, t, hs, hdraw, hzero, ht⟩

/-- A redemption of 2000 wei draws one wei of collateral, and its share of the supply rounds to zero. -/
theorem small_redemption_asserted : ∃ s drawn, Reachable sampleDeployment s ∧
    Transaction.Valid sampleDeployment ⟨⟨101, 0, 0, 2000 * 10 ^ 18⟩,
      .redeemCollateral 2000 ⟨102, 0, 0, 59671805072103431⟩ 0 (10 ^ 18)⟩ s ∧
    drawCollateral sampleDeployment ⟨101, 0, 0, 2000 * 10 ^ 18⟩ 2000
      ⟨102, 0, 0, 59671805072103431⟩ 0 (10 ^ 18) { s with timestamp := 0 } = .ok drawn ∧
    drawn.2.totalETHDrawn = 1 ∧
    redeemCollateral sampleDeployment ⟨101, 0, 0, 2000 * 10 ^ 18⟩ 2000
      ⟨102, 0, 0, 59671805072103431⟩ 0 (10 ^ 18) { s with timestamp := 0 } = .error .assertion := by
  obtain ⟨s, hs, hvalid, hdraw, hfails⟩ := exists_reachable (fun _ _ => True) sampleOpenings
    (fun s => Transaction.Valid sampleDeployment ⟨⟨101, 0, 0, 2000 * 10 ^ 18⟩,
        .redeemCollateral 2000 ⟨102, 0, 0, 59671805072103431⟩ 0 (10 ^ 18)⟩ s ∧
      (drawCollateral sampleDeployment ⟨101, 0, 0, 2000 * 10 ^ 18⟩ 2000
        ⟨102, 0, 0, 59671805072103431⟩ 0 (10 ^ 18) { s with timestamp := 0 }).toOption.any
          (fun drawn => decide (drawn.2.totalETHDrawn = 1)) = true ∧
      ¬ Avoids (fun e => e = .assertion) (redeemCollateral sampleDeployment
        ⟨101, 0, 0, 2000 * 10 ^ 18⟩ 2000 ⟨102, 0, 0, 59671805072103431⟩ 0 (10 ^ 18)
          { s with timestamp := 0 })) (by decide +kernel)
  obtain ⟨drawn, hdraw, hone⟩ := exists_ok hdraw
  refine ⟨s, drawn, hs, hvalid, hdraw, hone, ?_⟩
  by_contra hother
  refine hfails ?_
  rintro e he rfl
  exact hother he

end Liquity
