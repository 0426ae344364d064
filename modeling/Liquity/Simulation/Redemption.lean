import Liquity.Simulation.Troves

/-!
# Simulation: redemptions

A lot taken from a trove puts its collateral and debt in flight; settling pays the fee and the redeemer
and burns the redeemed LUSD.
-/

open Lib

namespace Liquity

open SafeMath LiquityMath TroveManager

variable {d : Deployment} {s s' : System} {ι : InFlight} {allow : Ledger → Label → Prop}
  {b : Address}

/-! ## New stakes -/

/-- Writing a trove's amounts and recomputing its stake. -/
theorem updateStakeAndTotalStakesInternal_ok {t t' : TroveManager}
    (h : updateStakeAndTotalStakesInternal b t = .ok t') :
    ∃ stake, t.computeNewStake (t.troves b).coll = .ok stake ∧
      t' = t.adjusted b (t.troves b).coll (t.troves b).debt stake := by
  simp only [updateStakeAndTotalStakesInternal, bind_ok, pure_ok, sub_ok, add_ok] at h
  obtain ⟨stake, hstake, _, ⟨-, rfl⟩, _, ⟨-, rfl⟩, rfl⟩ := h
  exact ⟨stake, hstake, rfl⟩

/-- Writing a trove does not change the size of new stakes. -/
theorem computeNewStake_setTrove {t : TroveManager} {trove : Trove} :
    (t.setTrove b trove).computeNewStake ((t.setTrove b trove).troves b).coll =
      t.computeNewStake trove.coll := by
  have hself : (t.setTrove b trove).troves b = trove := by simp [setTrove]
  rw [hself]
  rfl

theorem adjusted_setTrove {t : TroveManager} {coll debt stake : Nat} {trove : Trove}
    (htrove : trove = { t.troves b with coll, debt }) :
    (t.setTrove b trove).adjusted b ((t.setTrove b trove).troves b).coll
      ((t.setTrove b trove).troves b).debt stake = t.adjusted b coll debt stake := by
  subst htrove
  simp [setTrove, adjusted]

/-! ## One trove -/

theorem redeemCloseTrove_ok (hd : d.Wired) {LUSD ETH : Nat}
    (h : redeemCloseTrove d b LUSD ETH s = .ok s') :
    LUSD ≤ s.lusdToken.balances d.gasPool ∧ ETH ≤ s.activePool.ETH ∧ EtherKept d s s' ∧ s' = { s with
      lusdToken := { s.lusdToken with
        totalSupply := s.lusdToken.totalSupply - LUSD
        balances := Ledger.debit s.lusdToken.balances d.gasPool LUSD }
      activePool := ⟨s.activePool.ETH - ETH, s.activePool.LUSDDebt - LUSD⟩
      collSurplusPool := ⟨s.collSurplusPool.ETH + ETH, Ledger.credit s.collSurplusPool.balances b ETH⟩
      ether := move s.ether d.activePool d.collSurplusPool ETH } := by
  simp only [redeemCloseTrove, bind_ok, System.onLUSDToken_ok, System.onActivePool_ok,
    System.onCollSurplusPool_ok, CollSurplusPool.accountSurplus, add_ok, pure_ok] at h
  obtain ⟨_, ⟨token, htoken, rfl⟩, _, ⟨p, hp, rfl⟩, _, ⟨_, ⟨-, -, _, ⟨-, rfl⟩, rfl⟩, rfl⟩, h⟩ := h
  obtain ⟨hgas, -, rfl⟩ := LUSDToken.burn_ok htoken
  obtain ⟨-, rfl⟩ := ActivePool.decreaseLUSDDebt_ok hp
  have hether := ActivePool.sendETH_ether h
  obtain ⟨hle, hkept, ether, rfl⟩ := ActivePool.sendETH_collSurplusPool hd h
  have hether : ether = move s.ether d.activePool d.collSurplusPool ETH := hether
  subst hether
  exact ⟨hgas, hle, hkept.congr rfl rfl rfl rfl, rfl⟩

theorem redeemFully_ok (hd : d.Wired) {newColl : Nat} (h : redeemFully d b newColl s = .ok s') :
    1 < s.troveManager.troveOwners.length ∧
      LUSD_GAS_COMPENSATION ≤ s.lusdToken.balances d.gasPool ∧ newColl ≤ s.activePool.ETH ∧
      EtherKept d s s' ∧ ∃ l, SortedTroves.remove d d.troveManager b s.sortedTroves = .ok l ∧
      s' = { s with
        troveManager := s.troveManager.unregister b .closedByRedemption
        sortedTroves := l
        lusdToken := { s.lusdToken with
          totalSupply := s.lusdToken.totalSupply - LUSD_GAS_COMPENSATION
          balances := Ledger.debit s.lusdToken.balances d.gasPool LUSD_GAS_COMPENSATION }
        activePool := ⟨s.activePool.ETH - newColl, s.activePool.LUSDDebt - LUSD_GAS_COMPENSATION⟩
        collSurplusPool := ⟨s.collSurplusPool.ETH + newColl,
          Ledger.credit s.collSurplusPool.balances b newColl⟩
        ether := move s.ether d.activePool d.collSurplusPool newColl } := by
  simp only [redeemFully, bind_ok, System.onTroveManager_ok] at h
  obtain ⟨_, ⟨t, hstake, rfl⟩, s₁, hclose, h⟩ := h
  obtain ⟨-, hmore, l, hl, rfl⟩ := removeStake_closeTrove_ok hstake hclose
  obtain ⟨hgas, hle, hkept, rfl⟩ := redeemCloseTrove_ok hd h
  exact ⟨hmore, hgas, hle, hkept.congr rfl rfl rfl rfl, l, hl, rfl⟩

theorem redeemPartially_ok {newDebt newColl NICR : Nat} {hints : RedemptionHints}
    (h : redeemPartially d b newDebt newColl NICR hints s = .ok s') :
    ∃ stake l, s.troveManager.computeNewStake newColl = .ok stake ∧
      SortedTroves.reInsert s.troveManager.getNominalICR d d.troveManager b NICR
        hints.upperPartialRedemptionHint hints.lowerPartialRedemptionHint s.sortedTroves = .ok l ∧
      s' = { s with
        troveManager := s.troveManager.adjusted b newColl newDebt stake, sortedTroves := l } := by
  simp only [redeemPartially, bind_ok, pure_ok, System.onSortedTroves_ok] at h
  obtain ⟨_, ⟨l, hl, rfl⟩, t, ht, rfl⟩ := h
  obtain ⟨stake, hstake, rfl⟩ := updateStakeAndTotalStakesInternal_ok ht
  rw [computeNewStake_setTrove] at hstake
  rw [adjusted_setTrove rfl]
  exact ⟨stake, l, hstake, hl, rfl⟩

/-- A lot taken from one trove: the trove is closed, or kept with a smaller debt, or the partial
redemption is cancelled. -/
theorem redeemCollateralFromTrove_ok {maxLUSDamount price : Nat} {hints : RedemptionHints}
    {r : SingleRedemptionValues × System}
    (h : redeemCollateralFromTrove d b maxLUSDamount price hints s = .ok r) :
    ∃ coll debt, coll = (s.troveManager.troves b).coll ∧ debt = (s.troveManager.troves b).debt ∧
      LUSD_GAS_COMPENSATION ≤ debt ∧
      r.1.LUSDLot = Min.min maxLUSDamount (debt - LUSD_GAS_COMPENSATION) ∧
      r.1.ETHLot = r.1.LUSDLot * DECIMAL_PRECISION / price ∧ r.1.ETHLot ≤ coll ∧
      ((debt - r.1.LUSDLot = LUSD_GAS_COMPENSATION ∧ r.1.cancelledPartial = false ∧
          redeemFully d b (coll - r.1.ETHLot) s = .ok r.2) ∨
        ∃ NICR, debt - r.1.LUSDLot ≠ LUSD_GAS_COMPENSATION ∧
          computeNominalCR (coll - r.1.ETHLot) (debt - r.1.LUSDLot) = .ok NICR ∧
          ((r.1.cancelledPartial = true ∧ r.2 = s ∧
              (NICR = hints.partialRedemptionHintNICR →
                debt - r.1.LUSDLot - LUSD_GAS_COMPENSATION < MIN_NET_DEBT)) ∨
            (r.1.cancelledPartial = false ∧ NICR = hints.partialRedemptionHintNICR ∧
              Ledger.minDebt ≤ debt - r.1.LUSDLot ∧
              redeemPartially d b (debt - r.1.LUSDLot) (coll - r.1.ETHLot) NICR hints s =
                .ok r.2))) := by
  simp only [redeemCollateralFromTrove, bind_ok, sub_ok, mul_ok, div_ok, min_eq] at h
  obtain ⟨_, ⟨hGAS, rfl⟩, _, ⟨-, rfl⟩, _, ⟨-, rfl⟩, _, ⟨hLUSD, rfl⟩, _, ⟨hETH, rfl⟩, h⟩ := h
  refine ⟨_, _, rfl, rfl, hGAS, ?_⟩
  split at h
  next hfull =>
    simp only [bind_ok, pure_ok] at h
    obtain ⟨s₁, h₁, rfl⟩ := h
    exact ⟨rfl, rfl, hETH, .inl ⟨hfull, rfl, h₁⟩⟩
  next hpartial =>
    simp only [bind_ok] at h
    obtain ⟨NICR, hNICR, netDebt, hnet, h⟩ := h
    obtain ⟨hge, rfl⟩ := sub_ok.mp hnet
    split at h
    next hcancel =>
      cases h
      exact ⟨rfl, rfl, hETH, .inr ⟨NICR, hpartial, hNICR, .inl ⟨rfl, rfl, fun heq =>
        hcancel.resolve_left (not_not.mpr heq)⟩⟩⟩
    next hok =>
      simp only [bind_ok, pure_ok] at h
      obtain ⟨s₁, h₁, rfl⟩ := h
      rw [not_or, not_not, Nat.not_lt] at hok
      refine ⟨rfl, rfl, hETH, .inr ⟨NICR, hpartial, hNICR, .inr ⟨rfl, hok.1, ?_, h₁⟩⟩⟩
      unfold Ledger.minDebt
      dsimp only
      omega

section Single

variable (hd : d.Wired) (hs : Sound d s ι) (hplain : ∀ L, allow L .plain)
  (hactive : (s.troveManager.troves b).status = .active)

include hd hs hplain hactive

theorem redeemFully_evolves {ETHLot : Nat} (hETH : ETHLot ≤ (s.troveManager.troves b).coll)
    (h : redeemFully d b ((s.troveManager.troves b).coll - ETHLot) s = .ok s') :
    Evolves d allow s ι s' ⟨ι.coll + ETHLot,
      ι.debt + ((s.troveManager.troves b).debt - LUSD_GAS_COMPENSATION), ι.gas⟩ ∧
      s'.troveManager = s.troveManager.unregister b .closedByRedemption := by
  obtain ⟨hmore, -, -, hkept, l, hl, rfl⟩ := redeemFully_ok hd h
  obtain ⟨hlist, horder⟩ := SortedTroves.remove_toList hs.list hl
  have hm : Ledger.Move d (s.ledger ι) _ _ :=
    .redeemFully hactive (hs.registered.length_owners ▸ hmore) hETH
  refine ⟨Evolves.move (?_ : Ledger.Move d _ .plain _) (hplain _) hlist hkept, rfl⟩
  convert hm using 1
  simp only [System.ledger, horder]
  rfl

omit hd hplain in
theorem redeemPartially_evolves {LUSDLot ETHLot NICR : Nat} {hints : RedemptionHints}
    (hallow : allow (s.ledger ι) (.restake b ((s.troveManager.troves b).coll - ETHLot)))
    (hsettled : s.troveManager.L_ETH ≤ (s.troveManager.rewardSnapshots b).ETH)
    (hLUSD : LUSDLot ≤ (s.troveManager.troves b).debt)
    (hETH : ETHLot ≤ (s.troveManager.troves b).coll)
    (hmin : Ledger.minDebt ≤ (s.troveManager.troves b).debt - LUSDLot)
    (hratio : computeNominalCR ((s.troveManager.troves b).coll - ETHLot)
      ((s.troveManager.troves b).debt - LUSDLot) = .ok NICR)
    (h : redeemPartially d b ((s.troveManager.troves b).debt - LUSDLot)
      ((s.troveManager.troves b).coll - ETHLot) NICR hints s = .ok s') :
    Evolves d allow s ι s' ⟨ι.coll + ETHLot, ι.debt + LUSDLot, ι.gas⟩ := by
  obtain ⟨stake, l, hstake, hl, rfl⟩ := redeemPartially_ok h
  obtain ⟨hlist, -, hpos, u, v, huv, horder, hfits⟩ := SortedTroves.reInsert_toList hs.list hl
  refine Evolves.move (?_ : Ledger.Move d _ (.restake b _) _) hallow hlist (.of_eq rfl rfl)
  convert Ledger.Move.redeemPartially (L := s.ledger ι) hactive hsettled hLUSD hETH hmin hratio hpos
    hstake huv hfits using 1
  · rfl
  · simp only [System.ledger, horder]
    rfl

end Single

/-- What a lot taken from one trove leaves: a cancelled partial redemption takes nothing, a full one
closes the trove, and a partial one takes all that was asked for. -/
theorem redeemCollateralFromTrove_evolves (hd : d.Wired) (hs : Sound d s ι)
    (hplain : ∀ L, allow L .plain) {t₀ : TroveManager} {maxLUSDamount price : Nat}
    {hints : RedemptionHints} (hkept : RewardsKept t₀ s.troveManager)
    (hsettled : (s.troveManager.troves b).status = .active →
      s.troveManager.L_ETH ≤ (s.troveManager.rewardSnapshots b).ETH)
    {r : SingleRedemptionValues × System}
    (hrestake : r.1.cancelledPartial = false →
      (s.troveManager.troves b).debt - r.1.LUSDLot ≠ LUSD_GAS_COMPENSATION →
        (s.troveManager.troves b).status = .active →
          allow (s.ledger ι) (.restake b ((s.troveManager.troves b).coll - r.1.ETHLot)))
    (h : redeemCollateralFromTrove d b maxLUSDamount price hints s = .ok r) :
    (r.1.cancelledPartial = true ∧ r.2 = s) ∨
      (r.1.cancelledPartial = false ∧
        Evolves d allow s ι r.2 ⟨ι.coll + r.1.ETHLot, ι.debt + r.1.LUSDLot, ι.gas⟩ ∧
        r.1.LUSDLot ≤ maxLUSDamount ∧
        (RewardsKept t₀ r.2.troveManager ∨ r.1.LUSDLot = maxLUSDamount)) := by
  obtain ⟨coll, debt, rfl, rfl, hGAS, hlotEq, hETHEq, hETH, hcases⟩ := redeemCollateralFromTrove_ok h
  -- a trove that is not open has no debt to take the gas reserve from
  have hactive : (s.troveManager.troves b).status = .active := by
    by_contra hinactive
    have hzero := (hs.registered.inactive b hinactive).2.1
    rw [hzero] at hGAS
    exact absurd hGAS (by decide)
  rcases hcases with ⟨hfull, hdone, hclosed⟩ | ⟨NICR, hpartial, hNICR, hcases⟩
  · obtain ⟨hev, htm⟩ := redeemFully_evolves hd hs hplain hactive hETH hclosed
    refine .inr ⟨hdone, ?_, by omega, .inl ?_⟩
    · have hlot : (s.troveManager.troves b).debt - LUSD_GAS_COMPENSATION = r.1.LUSDLot := by omega
      rw [hlot] at hev
      exact hev
    · rw [htm]
      exact hkept.unregister b (by decide)
  rcases hcases with ⟨hcancelled, hsame, -⟩ | ⟨hdone, -, hmin, hpartially⟩
  · exact .inl ⟨hcancelled, hsame⟩
  · have hev := redeemPartially_evolves hs hactive (hrestake hdone hpartial hactive) (hsettled hactive)
      (by omega) hETH hmin hNICR hpartially
    exact .inr ⟨hdone, hev, by omega, .inr (by omega)⟩

/-- What is in flight in the middle of a redemption. -/
def TroveManager.RedemptionState.inFlight (r : RedemptionState) : InFlight :=
  ⟨r.totalETHDrawn, r.totalLUSDToRedeem, 0⟩

/-! ## Settling a redemption -/

theorem updateLastFeeOpTime_ok {t t' : TroveManager} {timestamp : Nat}
    (h : updateLastFeeOpTime timestamp t = .ok t') :
    ∃ lastFeeOperationTime, t' = { t with lastFeeOperationTime } := by
  simp only [updateLastFeeOpTime, bind_ok, pure_ok] at h
  obtain ⟨_, -, rfl⟩ := h
  split
  · exact ⟨_, rfl⟩
  · exact ⟨_, rfl⟩

theorem updateBaseRateFromRedemption_ok {t t' : TroveManager} {ETHDrawn price supply timestamp : Nat}
    (h : updateBaseRateFromRedemption ETHDrawn price supply timestamp t = .ok t') :
    ∃ baseRate lastFeeOperationTime, t' = { t with baseRate, lastFeeOperationTime } := by
  simp only [updateBaseRateFromRedemption, bind_ok] at h
  obtain ⟨_, -, _, -, _, -, _, -, _, -, -, -, h⟩ := h
  obtain ⟨time, rfl⟩ := updateLastFeeOpTime_ok h
  exact ⟨_, time, rfl⟩

theorem onLQTYStaking_evolves (hs : Sound d s ι) {f : LQTYStaking → Tx LQTYStaking}
    (h : s.onLQTYStaking f = .ok s') : Evolves d allow s ι s' ι := by
  obtain ⟨l, -, rfl⟩ := System.onLQTYStaking_ok.mp h
  exact .silent hs rfl rfl (.of_eq rfl rfl)

section Payments

variable (hs : Sound d s ι) (hplain : ∀ L, allow L .plain) {amount : Nat}

include hs hplain

/-- Collateral in flight is paid to an account outside the protocol. -/
theorem releaseToAccount_evolves {caller : Address} (hb : d.External b) (hle : amount ≤ ι.coll)
    (h : ActivePool.sendETH d caller b amount s = .ok s') :
    Evolves d allow s ι s' ⟨ι.coll - amount, ι.debt, ι.gas⟩ := by
  obtain ⟨-, hkept, ether, rfl⟩ := ActivePool.sendETH_external hb h
  exact .move (.release (L := s.ledger ι) hle) (hplain _) hs.list hkept

/-- Collateral in flight is paid to the stakers. -/
theorem releaseToStakers_evolves {caller : Address} (hd : d.Wired) (hle : amount ≤ ι.coll)
    (h : ActivePool.sendETH d caller d.lqtyStaking amount s = .ok s') :
    Evolves d allow s ι s' ⟨ι.coll - amount, ι.debt, ι.gas⟩ := by
  obtain ⟨-, hkept, ether, rfl⟩ := ActivePool.sendETH_lqtyStaking hd h
  exact .move (.release (L := s.ledger ι) hle) (hplain _) hs.list hkept

/-- The redeemer's LUSD is burned against the debt in flight. -/
theorem burnRedeemed_evolves (hb : d.External b) (hle : amount ≤ ι.debt) {s₁ : System}
    (h₁ : s.onLUSDToken (LUSDToken.burn d d.troveManager b amount) = .ok s₁)
    (h : s₁.onActivePool (ActivePool.decreaseLUSDDebt d d.troveManager amount) = .ok s') :
    Evolves d allow s ι s' ⟨ι.coll, ι.debt - amount, ι.gas⟩ := by
  obtain ⟨t, ht, rfl⟩ := System.onLUSDToken_ok.mp h₁
  obtain ⟨p, hp, rfl⟩ := System.onActivePool_ok.mp h
  obtain ⟨hbalance, -, rfl⟩ := LUSDToken.burn_ok ht
  obtain ⟨-, rfl⟩ := ActivePool.decreaseLUSDDebt_ok hp
  exact .move (.burnRedeemed (L := s.ledger ι) hb.ne_gasPool hb.ne_stabilityPool hbalance hle)
    (hplain _) hs.list (.of_eq rfl rfl)

end Payments

theorem settleRedemption_evolves (hd : d.Wired) (hplain : ∀ L, allow L .plain) {env : Env}
    (hsender : d.External env.sender) {supply maxFee : Nat} {r : RedemptionState}
    (hs : Sound d r.system r.inFlight) (h : settleRedemption d env supply maxFee r = .ok s') :
    Evolves d allow r.system r.inFlight s' .none := by
  simp only [settleRedemption, bind_ok, sub_ok] at h
  obtain ⟨-, -, s₁, h₁, fee, -, -, -, s₂, h₂, s₃, h₃, rest, ⟨hfee, rfl⟩, s₄, h₄, s₅, h₅, h₆⟩ := h
  -- the base rate is not part of the books
  have e₁ : Evolves d allow r.system r.inFlight s₁ r.inFlight := by
    obtain ⟨t, ht, rfl⟩ := System.onTroveManager_ok.mp h₁
    obtain ⟨rate, time, rfl⟩ := updateBaseRateFromRedemption_ok ht
    exact .silent hs rfl rfl (.of_eq rfl rfl)
  have hs₁ := e₁.sound hd hs
  have e₂ := releaseToStakers_evolves hs₁ hplain hd hfee h₂
  have hs₂ := e₂.sound hd hs₁
  have e₃ : Evolves d allow s₂ _ s₃ _ := onLQTYStaking_evolves hs₂ h₃
  have hs₃ := e₃.sound hd hs₂
  have e₅ := burnRedeemed_evolves hs₃ hplain hsender (Nat.le_refl _) h₄ h₅
  have hs₅ := e₅.sound hd hs₃
  have e₆ := releaseToAccount_evolves hs₅ hplain hsender (Nat.le_refl _) h₆
  have e := (((e₁.trans e₂).trans e₃).trans e₅).trans e₆
  convert e using 1
  simp [RedemptionState.inFlight, InFlight.none]

end Liquity
