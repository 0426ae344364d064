import Liquity.DevFrontend.Adjusting
import Liquity.Properties.Sorting
import Liquity.Proxy.BorrowerWrappersScript

/-!
# Recycling gains

`BorrowerWrappersScript` adds gained collateral to the proxy's trove and draws the debt that keeps its
ratio.  All three divisions round in the trove's favour, so the amounts that are stored keep the ratio.
The larger stake can make a debt pending, though, that the adjustment overlooked.
-/

open Lib

namespace Liquity

open SafeMath LiquityMath TroveManager

variable {d : Deployment} {s s' : System} {env : Env}

/-! ## Roundings -/

/-- Debt at the floored ratio, less the floored fee on it, is worth at most the added collateral. -/
theorem ratio_mul_borrowed_le {ICR coll debt x price amount rate net fee : Nat}
    (hICR : ICR * debt ≤ coll * price) (hamount : amount * ICR ≤ x * price)
    (hnet : net * (DECIMAL_PRECISION + rate) ≤ amount * DECIMAL_PRECISION)
    (hfee : fee * DECIMAL_PRECISION ≤ rate * net) :
    ICR * (debt + (net + fee)) ≤ (coll + x) * price := by
  have hdrawn : net + fee ≤ amount := by
    refine Nat.le_of_mul_le_mul_right ?_ (by decide : 0 < DECIMAL_PRECISION)
    calc (net + fee) * DECIMAL_PRECISION = net * DECIMAL_PRECISION + fee * DECIMAL_PRECISION :=
          Nat.add_mul ..
      _ ≤ net * DECIMAL_PRECISION + rate * net := Nat.add_le_add_left hfee _
      _ = net * (DECIMAL_PRECISION + rate) := by rw [Nat.mul_add, Nat.mul_comm rate net]
      _ ≤ amount * DECIMAL_PRECISION := hnet
  calc ICR * (debt + (net + fee)) ≤ ICR * (debt + amount) := by
        exact Nat.mul_le_mul_left _ (Nat.add_le_add_left hdrawn _)
    _ = ICR * debt + amount * ICR := by rw [Nat.mul_add, Nat.mul_comm amount]
    _ ≤ coll * price + x * price := Nat.add_le_add hICR hamount
    _ = (coll + x) * price := (Nat.add_mul ..).symm

/-- More debt on top lowers a ratio below `r` unless it fits into what the division left. -/
theorem le_ratio_iff_le_room {r value debt extra : Nat} (hr : 0 < r) (hdebt : 0 < debt)
    (hbelow : r * debt ≤ value) :
    r ≤ value / (debt + extra) ↔ extra ≤ value / r - debt := by
  have hfits : debt ≤ value / r := (Nat.le_div_iff_mul_le hr).mpr (by rwa [Nat.mul_comm])
  rw [Nat.le_div_iff_mul_le (by omega), Nat.mul_comm, ← Nat.le_div_iff_mul_le hr]
  omega

theorem BorrowerWrappersScript.getNetLUSDAmount_ok {collateral net ICR : Nat}
    (hICR : s.troveManager.getCurrentICR env.sender env.price = .ok ICR)
    (h : getNetLUSDAmount env collateral s = .ok net) :
    0 < ICR ∧ ∃ amount rate, s.troveManager.getBorrowingRateWithDecay env.timestamp = .ok rate ∧
      amount * ICR ≤ collateral * env.price ∧
      net * (DECIMAL_PRECISION + rate) ≤ amount * DECIMAL_PRECISION := by
  simp only [getNetLUSDAmount, bind_ok, mul_ok, div_ok, add_ok] at h
  obtain ⟨ICR', hICR', _, ⟨-, rfl⟩, amount, ⟨hne, rfl⟩, rate, hrate, _, ⟨-, rfl⟩, _, ⟨-, rfl⟩, -, rfl⟩ := h
  cases hICR.symm.trans hICR'
  exact ⟨by omega, _, rate, hrate, Nat.div_mul_le_self _ _, Nat.div_mul_le_self _ _⟩

/-! ## The scripts -/

namespace BorrowerWrappersScript

variable {x maxFee : Nat} {upper lower : Address} {call : Call}

theorem callProtocol_step (hvalid : Transaction.Valid d ⟨env, call⟩ s)
    (h : callProtocol d env x call s = .ok s') : Step d s ⟨{ env with value := x }, call⟩ s' :=
  ⟨⟨hvalid.external, hvalid.time, hvalid.price⟩, h⟩

/-- A top-up is an adjustment of the proxy's trove, by the amount that was computed before it. -/
theorem topUpTrove_ok {r : Nat × System} (hvalid : Transaction.Valid d ⟨env, call⟩ s)
    (h : topUpTrove d env maxFee x upper lower s = .ok r) :
    (s.troveManager.troves env.sender).status = .active ∧
      getNetLUSDAmount { env with value := x } x s = .ok r.1 ∧
      Step d s ⟨{ env with value := x }, .adjustTrove maxFee 0 r.1 true upper lower⟩ r.2 := by
  simp only [topUpTrove, requireUserHasTrove, bind_ok, require_ok, pure_ok] at h
  obtain ⟨-, hactive, net, hnet, s', hs', rfl⟩ := h
  exact ⟨hactive, hnet, ⟨hvalid.external, hvalid.time, hvalid.price⟩, hs'⟩

/-- Both scripts claim first.  Where that brought collateral, they top up. -/
theorem claimSPRewardsAndRecycle_ok (hvalid : Transaction.Valid d ⟨env, .withdrawFromSP 0⟩ s)
    (h : claimSPRewardsAndRecycle d env maxFee upper lower s = .ok s') :
    ∃ s₁, Step d s ⟨{ env with value := 0 }, .withdrawFromSP 0⟩ s₁ ∧
      s.ether env.sender ≤ s₁.ether env.sender ∧
      (s.ether env.sender < s₁.ether env.sender → ∃ r,
        topUpTrove d env maxFee (s₁.ether env.sender - s.ether env.sender) upper lower s₁ = .ok r) := by
  simp only [claimSPRewardsAndRecycle, bind_ok, sub_ok] at h
  obtain ⟨s₁, h₁, _, ⟨hle, rfl⟩, h₂⟩ := h
  refine ⟨s₁, callProtocol_step hvalid h₁, hle, fun hlt => ?_⟩
  rw [if_pos (Nat.sub_pos_of_lt hlt)] at h₂
  obtain ⟨r, hr, -⟩ := bind_ok.mp h₂
  exact ⟨r, hr⟩

theorem claimStakingGainsAndRecycle_ok (hvalid : Transaction.Valid d ⟨env, .unstake 0⟩ s)
    (h : claimStakingGainsAndRecycle d env maxFee upper lower s = .ok s') :
    ∃ s₁, Step d s ⟨{ env with value := 0 }, .unstake 0⟩ s₁ ∧
      s.ether env.sender ≤ s₁.ether env.sender ∧
      (s.ether env.sender < s₁.ether env.sender → ∃ r,
        topUpTrove d env maxFee (s₁.ether env.sender - s.ether env.sender) upper lower s₁ = .ok r) := by
  simp only [claimStakingGainsAndRecycle, bind_ok, sub_ok] at h
  obtain ⟨s₁, h₁, _, ⟨hle, rfl⟩, _, -, h₂⟩ := h
  refine ⟨s₁, callProtocol_step hvalid h₁, hle, fun hlt => ?_⟩
  rw [if_pos (Nat.sub_pos_of_lt hlt)] at h₂
  obtain ⟨r, hr, -⟩ := bind_ok.mp h₂
  exact ⟨r, hr⟩

end BorrowerWrappersScript

/-! ## The trove after the adjustment -/

/-- The borrower's trove, stake and snapshots after collateral was added and debt drawn. -/
structure ToppedUp (s s' : System) (b : Address) (coll debt stake : Nat) : Prop where
  active : (s.troveManager.troves b).status = .active
  trove : s'.troveManager.troves b = { s.troveManager.troves b with coll, debt, stake }
  L_ETH : s'.troveManager.L_ETH = s.troveManager.L_ETH
  L_LUSDDebt : s'.troveManager.L_LUSDDebt = s.troveManager.L_LUSDDebt
  snapshot : s'.troveManager.rewardSnapshots b =
    if s.troveManager.hasPendingRewards b then ⟨s.troveManager.L_ETH, s.troveManager.L_LUSDDebt⟩
    else s.troveManager.rewardSnapshots b

/-- What the pending rewards leave of a trove that had none, and of its snapshots. -/
theorem RewardsApplied.settled_eq {b : Address} {s₁ : System} (h : RewardsApplied b s s₁)
    (hactive : (s.troveManager.troves b).status = .active) :
    (s₁.troveManager.troves b).status = (s.troveManager.troves b).status ∧
      (s₁.troveManager.troves b).arrayIndex = (s.troveManager.troves b).arrayIndex ∧
      (∀ coll, s₁.troveManager.computeNewStake coll = s.troveManager.computeNewStake coll) ∧
      (s₁.troveManager.L_ETH = s.troveManager.L_ETH ∧
        s₁.troveManager.L_LUSDDebt = s.troveManager.L_LUSDDebt) ∧
      s₁.troveManager.rewardSnapshots b =
        if s.troveManager.hasPendingRewards b then ⟨s.troveManager.L_ETH, s.troveManager.L_LUSDDebt⟩
        else s.troveManager.rewardSnapshots b := by
  have hstatus := h.status b
  rcases h.troveManager with ht | ⟨hpending, ht⟩
  · have hsettled := h.settled (hstatus.trans hactive)
    rw [ht] at hsettled
    have hnone : s.troveManager.hasPendingRewards b = false := by
      simpa [hasPendingRewards, hactive] using hsettled
    rw [ht, hnone]
    exact ⟨rfl, rfl, fun _ => rfl, ⟨rfl, rfl⟩, rfl⟩
  · rw [ht, hpending]
    refine ⟨?_, ?_, fun _ => rfl, ⟨rfl, rfl⟩, ?_⟩
    · rw [← ht, hstatus]
    · simp only [applied, Function.update_self]
    · simp only [applied, Function.update_self, if_true]

/-- A top-up by a borrower without pending rewards, at the fee rate that holds for it. -/
theorem BorrowerOperations.adjustTroveInternal_toppedUp (hd : d.Wired) (hs : Sound d s .none)
    {a : Adjustment} {rate : Nat} (hb : d.External env.sender) (hsender : a.borrower = env.sender)
    (hpending : NoPendingRewards s env.sender) (hrate : s.HasBorrowingRate env rate)
    (hvalue : 0 < env.value) (hinc : a.isDebtIncrease = true)
    (h : adjustTroveInternal d env a s = .ok s') :
    ∃ stake, s.troveManager.computeNewStake ((s.troveManager.troves env.sender).coll + env.value) =
        .ok stake ∧
      ToppedUp s s' env.sender ((s.troveManager.troves env.sender).coll + env.value)
        ((s.troveManager.troves env.sender).debt +
          (a.LUSDChange + rate * a.LUSDChange / DECIMAL_PRECISION)) stake := by
  simp only [adjustTroveInternal, bind_ok, applyPendingRewards, hsender] at h
  obtain ⟨recovery, hmode, _, hvalid, s₁, ⟨-, -, h₁⟩, r, hr, vars, hvars, _, -, _, -, h⟩ := h
  simp only [requireValidAdjustment, requireTroveisActive, bind_ok, require_ok, hsender] at hvalid
  obtain ⟨-, -, -, -, -, -, -, hactive, -⟩ := hvalid
  have happlied := (applyPendingRewardsInternal_evolves hd hs PlainOnly.plain h₁).2
  have hfee := adjustmentFee_fee hrate hmode happlied hr
  rw [if_pos hinc] at hfee
  obtain ⟨hcharged, hnofee⟩ := adjustmentFee_ok hr
  obtain ⟨hchange, hnet, hdebteq, hcolleq⟩ := adjustmentVars_ok hvars
  obtain ⟨hcollInc, hadded⟩ : vars.isCollIncrease = true ∧ vars.collChange = env.value := by
    rw [getCollChange, if_pos hvalue.ne', Prod.mk.injEq] at hchange
    exact hchange.symm
  obtain ⟨coll, debt, hcoll, hdebt, hadjusted⟩ := performAdjustment_ok hd hnofee hnet hdebteq hcolleq
    (.inr ⟨hb.ne_gasPool, hb.ne_stabilityPool⟩) (fun hno => by rw [hcollInc] at hno; cases hno) h
  obtain ⟨stake, hstake, htm⟩ := hadjusted.troveManager
  obtain ⟨baseRate, time, staking, hcharge⟩ := hcharged.eq
  rw [hcollInc] at hcoll
  rw [hinc] at hdebt
  obtain ⟨-, rfl⟩ := add_ok.mp hcoll
  obtain ⟨-, rfl⟩ := add_ok.mp hdebt
  obtain ⟨hstatus, hindex, hnewStake, ⟨hL, hL'⟩, hsnapshot⟩ := happlied.settled_eq hactive
  obtain ⟨hcoll₁, hdebt₁⟩ := happlied.trove_eq hpending
  rw [hsender, hcharge] at hdebteq hcolleq htm
  rw [hcharge] at hstake
  dsimp only at hdebteq hcolleq
  rw [hdebteq, hcolleq, hadded, hdebt₁, hcoll₁, ← hnet, hfee] at htm
  rw [hcolleq, hadded, hcoll₁] at hstake
  refine ⟨stake, (hnewStake _).symm.trans hstake, hactive, ?_, ?_, ?_, ?_⟩
  · rw [htm]
    simp only [adjusted, Function.update_self, hstatus, hindex]
  · rw [htm]
    exact hL
  · rw [htm]
    exact hL'
  · rw [htm]
    exact hsnapshot

/-- The debt that a new stake makes pending, where the collateral accumulator alone is looked at. -/
def TroveManager.overlookedDebt (b : Address) (stake : Nat) (t : TroveManager) : Nat :=
  if t.hasPendingRewards b then 0
  else stake * (t.L_LUSDDebt - (t.rewardSnapshots b).LUSDDebt) / DECIMAL_PRECISION

/-- Nothing is overlooked where the debt snapshot is current too. -/
theorem TroveManager.overlookedDebt_current {b : Address} {t : TroveManager} (stake : Nat)
    (h : (t.rewardSnapshots b).LUSDDebt = t.L_LUSDDebt) : t.overlookedDebt b stake = 0 := by
  rw [overlookedDebt, h, Nat.sub_self, Nat.mul_zero, Nat.zero_div, ite_self]

theorem ToppedUp.getCurrentICR {b : Address} {coll debt stake price r : Nat}
    (h : ToppedUp s s' b coll debt stake) (hdebt : 0 < debt)
    (hr : s'.troveManager.getCurrentICR b price = .ok r) :
    r = coll * price / (debt + s.troveManager.overlookedDebt b stake) := by
  have hactive : (s'.troveManager.troves b).status = .active := by
    rw [h.trove]
    exact h.active
  have hcoll : s'.troveManager.entireColl b = coll := by
    rw [entireColl, pendingETH, h.trove, h.snapshot, h.L_ETH]
    split
    · simp
    next hnone =>
      -- no ETH reward: the snapshot is not behind
      have hcurrent : s.troveManager.L_ETH ≤ (s.troveManager.rewardSnapshots b).ETH := by
        simpa [hasPendingRewards, h.active] using hnone
      rw [Nat.sub_eq_zero_of_le hcurrent]
      simp
  have howed : s'.troveManager.entireDebt b = debt + s.troveManager.overlookedDebt b stake := by
    rw [entireDebt, pendingLUSDDebt, overlookedDebt, h.trove, h.snapshot, h.L_LUSDDebt]
    split <;> simp
  rw [getCurrentICR_eq hactive (by omega) hr, hcoll, howed]

/-- Recycling a gain keeps the trove's ratio exactly when the overlooked debt fits into what the
roundings left. -/
theorem recycling_keeps_ICR_iff (hd : d.Wired) (hr : Reachable d s)
    {maxFee net rate stake ICR ICR' : Nat} {upper lower : Address}
    (hpending : NoPendingRewards s env.sender) (hvalue : 0 < env.value)
    (hnet : BorrowerWrappersScript.getNetLUSDAmount env env.value s = .ok net)
    (hstep : Step d s ⟨env, .adjustTrove maxFee 0 net true upper lower⟩ s')
    (hrate : s.HasBorrowingRate env rate)
    (hstake : s.troveManager.computeNewStake ((s.troveManager.troves env.sender).coll + env.value) =
      .ok stake)
    (hICR : s.troveManager.getCurrentICR env.sender env.price = .ok ICR)
    (hICR' : s'.troveManager.getCurrentICR env.sender env.price = .ok ICR') :
    ICR ≤ ICR' ↔ s.troveManager.overlookedDebt env.sender stake ≤
      ((s.troveManager.troves env.sender).coll + env.value) * env.price / ICR -
        ((s.troveManager.troves env.sender).debt + (net + rate * net / DECIMAL_PRECISION)) := by
  obtain ⟨ether, hbody, -, hkept⟩ := hstep.body hd
  have hsilent : Evolves d PlainOnly s .none { s with timestamp := env.timestamp, ether } .none :=
    .silent (hr.sound hd) rfl rfl hkept
  have hs := hsilent.sound hd (hr.sound hd)
  have hrate' : System.HasBorrowingRate { s with timestamp := env.timestamp, ether } env rate := hrate
  obtain ⟨stake', hstake', htopped⟩ := BorrowerOperations.adjustTroveInternal_toppedUp hd hs
    hstep.1.external rfl ⟨hpending.ETH, hpending.LUSDDebt⟩ hrate' hvalue rfl hbody
  cases hstake.symm.trans hstake'
  have hactive : (s.troveManager.troves env.sender).status = .active := htopped.active
  have hdebt : 0 < (s.troveManager.troves env.sender).debt :=
    lt_of_lt_of_le (by decide) (hs.books.minDebt _ hactive)
  have hafter := htopped.getCurrentICR (Nat.add_pos_left hdebt _) hICR'
  dsimp only at hafter
  obtain ⟨hpos, amount, decayed, hdecayed, hamount, hnetLe⟩ :=
    BorrowerWrappersScript.getNetLUSDAmount_ok hICR hnet
  have hbefore : ICR * (s.troveManager.troves env.sender).debt ≤
      (s.troveManager.troves env.sender).coll * env.price := by
    have hETH := (getPendingETHReward_ok hactive hpending.ETH).2
    have hLUSD := (getPendingLUSDDebtReward_ok hactive hpending.LUSDDebt).2
    rw [getCurrentICR_eq hactive (Nat.add_pos_left hdebt _) hICR, entireColl, entireDebt, ← hETH,
      ← hLUSD]
    exact Nat.div_mul_le_self _ _
  have hfee : rate * net / DECIMAL_PRECISION * DECIMAL_PRECISION ≤ decayed * net := by
    refine (Nat.div_mul_le_self _ _).trans (Nat.mul_le_mul_right _ ?_)
    -- the rate of the transaction is the decayed one, or none
    obtain ⟨recovery, -, hzero, hnormal⟩ := hrate
    cases recovery with
    | true =>
      rw [hzero rfl]
      exact Nat.zero_le _
    | false =>
      cases (hnormal rfl).symm.trans hdecayed
      exact Nat.le_refl _
  rw [hafter]
  exact le_ratio_iff_le_room hpos (Nat.add_pos_left hdebt _)
    (ratio_mul_borrowed_le hbefore hamount hnetLe hfee)

/-- A tenth of an ether is added to a trove whose snapshots are current. -/
theorem sampleRecycling_keeps_ICR : ∃ s s' ICR ICR', Reachable sampleDeployment s ∧
    Step sampleDeployment s ⟨⟨101, 10 ^ 17, 0, 2000 * 10 ^ 18⟩,
      .adjustTrove (10 ^ 18) 0 30004975124378109452 true 0 0⟩ s' ∧
    s.troveManager.getCurrentICR 101 (2000 * 10 ^ 18) = .ok ICR ∧
    s'.troveManager.getCurrentICR 101 (2000 * 10 ^ 18) = .ok ICR' ∧ ICR ≤ ICR' := by
  obtain ⟨s, s', hr, hstep, ⟨hETH, hLUSD⟩, hnet, ⟨hmode, hrate⟩, hstake, hcurrent, hICR, hICR'⟩ :=
    exists_step sampleOpenings ⟨⟨101, 10 ^ 17, 0, 2000 * 10 ^ 18⟩,
        .adjustTrove (10 ^ 18) 0 30004975124378109452 true 0 0⟩
      (fun s s' => (s.troveManager.getPendingETHReward 101 = .ok 0 ∧
          s.troveManager.getPendingLUSDDebtReward 101 = .ok 0) ∧
        BorrowerWrappersScript.getNetLUSDAmount ⟨101, 10 ^ 17, 0, 2000 * 10 ^ 18⟩ (10 ^ 17) s =
          .ok 30004975124378109452 ∧
        (s.checkRecoveryMode (2000 * 10 ^ 18) = .ok false ∧
          s.troveManager.getBorrowingRateWithDecay 0 = .ok (5 * 10 ^ 15)) ∧
        s.troveManager.computeNewStake ((s.troveManager.troves 101).coll + 10 ^ 17) =
          .ok (101 * 10 ^ 17) ∧
        (s.troveManager.rewardSnapshots 101).LUSDDebt = s.troveManager.L_LUSDDebt ∧
        s.troveManager.getCurrentICR 101 (2000 * 10 ^ 18) = .ok 6632399270436080252 ∧
        s'.troveManager.getCurrentICR 101 (2000 * 10 ^ 18) = .ok 6632399270436080252)
      (by decide +kernel)
  refine ⟨s, s', _, _, hr, hstep, hICR, hICR', (recycling_keeps_ICR_iff sampleDeployment_wired hr
    ⟨hETH, hLUSD⟩ (by decide) hnet hstep (System.hasBorrowingRate_normal hmode hrate) hstake hICR
    hICR').mpr ?_⟩
  rw [overlookedDebt_current _ hcurrent]
  exact Nat.zero_le _

/-- The Stability Pool absorbs all but 991 of a debt.  What that leaves pending is nothing for the small
trove that the gain is added to, and 60 for the trove it becomes. -/
theorem recycling_lowers_ICR :
    ¬ ∀ (d : Deployment) (s s' : System) (env : Env) (maxFee net ICR ICR' : Nat)
      (upper lower : Address), d.Wired → Reachable d s →
      (s.troveManager.troves env.sender).status = .active → NoPendingRewards s env.sender →
      0 < env.value → BorrowerWrappersScript.getNetLUSDAmount env env.value s = .ok net →
      Step d s ⟨env, .adjustTrove maxFee 0 net true upper lower⟩ s' →
      s.troveManager.getCurrentICR env.sender env.price = .ok ICR →
      s'.troveManager.getCurrentICR env.sender env.price = .ok ICR' → ICR ≤ ICR' := by
  intro hall
  obtain ⟨s, s', hr, hstep, hactive, ⟨hETH, hLUSD⟩, hnet, hICR, hICR'⟩ := exists_step
    [⟨⟨103, 10 ^ 19, 0, 2000 * 10 ^ 18⟩, .openTrove (10 ^ 18) (3000 * 10 ^ 18) 0 0⟩,
      ⟨⟨102, 6 * 10 ^ 17, 0, 2000 * 10 ^ 18⟩, .openTrove (10 ^ 18) (1000 * 10 ^ 18) 0 0⟩,
      ⟨⟨101, 10 ^ 16, 0, 2000 * 10 ^ 18⟩, .openTrove (10 ^ 18) (5 * 10 ^ 18) 0 0⟩,
      ⟨⟨103, 0, 0, 2000 * 10 ^ 18⟩, .transferLUSD 101 (1100 * 10 ^ 18)⟩,
      ⟨⟨101, 0, 0, 2000 * 10 ^ 18⟩, .provideToSP (10055 * 10 ^ 17 - 991) 0⟩,
      ⟨⟨103, 0, 0, 1800 * 10 ^ 18⟩, .liquidate 102⟩,
      ⟨⟨101, 0, 0, 1800 * 10 ^ 18⟩, .withdrawFromSP 0⟩]
    ⟨⟨101, 596999999999999858, 0, 1800 * 10 ^ 18⟩,
      .adjustTrove (10 ^ 18) 0 328201492537313354773 true 0 0⟩
    (fun s s' => (s.troveManager.troves 101).status = .active ∧
      (s.troveManager.getPendingETHReward 101 = .ok 0 ∧
        s.troveManager.getPendingLUSDDebtReward 101 = .ok 0) ∧
      BorrowerWrappersScript.getNetLUSDAmount ⟨101, 596999999999999858, 0, 1800 * 10 ^ 18⟩
        596999999999999858 s = .ok 328201492537313354773 ∧
      s.troveManager.getCurrentICR 101 (1800 * 10 ^ 18) = .ok 3257918552036199095 ∧
      s'.troveManager.getCurrentICR 101 (1800 * 10 ^ 18) = .ok 3257918552036199094)
    (by decide +kernel)
  have hkept := hall sampleDeployment s s' _ _ _ _ _ _ _ sampleDeployment_wired hr hactive
    ⟨hETH, hLUSD⟩ (by decide) hnet hstep hICR hICR'
  exact absurd hkept (by decide)

end Liquity
