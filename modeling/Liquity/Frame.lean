import Liquity.Effects

/-!
# What most calls leave alone

The staking contract, the Stability Pool, the community issuance and the surplus pool are written by
few functions.  All others stay within a frame: these four keep their storage, the LQTY token keeps
its own, and what the staking contract and the surplus pool hold in ether and LUSD does not shrink.
-/

open Lib

namespace Liquity

open SafeMath

variable {d : Deployment} {s s' : System} {caller a b : Address} {amount : Nat}

/-- The step from `s` to `s'` takes nothing from the stakers and the claimants of surpluses, and does
not touch the contracts that pay them. -/
structure HoldingsKept (d : Deployment) (s s' : System) : Prop where
  lqtyStaking : s'.lqtyStaking = s.lqtyStaking
  collSurplusPool : s'.collSurplusPool = s.collSurplusPool
  allowances : s'.lqtyToken.allowances = s.lqtyToken.allowances
  sum_lqty : ∑ a, s'.lqtyToken.balances a = ∑ a, s.lqtyToken.balances a
  timestamp : s'.timestamp = s.timestamp
  ether_staking : s.ether d.lqtyStaking ≤ s'.ether d.lqtyStaking
  ether_surplus : s.ether d.collSurplusPool ≤ s'.ether d.collSurplusPool
  lusd_staking : s.lusdToken.balances d.lqtyStaking ≤ s'.lusdToken.balances d.lqtyStaking
  lqty_staking : s.lqtyToken.balances d.lqtyStaking ≤ s'.lqtyToken.balances d.lqtyStaking

/-- `HoldingsKept`, without a part of the Stability Pool or of LQTY in the step. -/
structure Frame (d : Deployment) (s s' : System) : Prop extends HoldingsKept d s s' where
  stabilityPool : s'.stabilityPool = s.stabilityPool
  communityIssuance : s'.communityIssuance = s.communityIssuance
  lqtyToken : s'.lqtyToken = s.lqtyToken

namespace HoldingsKept

theorem refl (s : System) : HoldingsKept d s s :=
  ⟨rfl, rfl, rfl, rfl, rfl, Nat.le_refl _, Nat.le_refl _, Nat.le_refl _, Nat.le_refl _⟩

theorem trans {s₁ s₂ s₃ : System} (h : HoldingsKept d s₁ s₂) (h' : HoldingsKept d s₂ s₃) :
    HoldingsKept d s₁ s₃ where
  lqtyStaking := h'.lqtyStaking.trans h.lqtyStaking
  collSurplusPool := h'.collSurplusPool.trans h.collSurplusPool
  allowances := h'.allowances.trans h.allowances
  sum_lqty := h'.sum_lqty.trans h.sum_lqty
  timestamp := h'.timestamp.trans h.timestamp
  ether_staking := h.ether_staking.trans h'.ether_staking
  ether_surplus := h.ether_surplus.trans h'.ether_surplus
  lusd_staking := h.lusd_staking.trans h'.lusd_staking
  lqty_staking := h.lqty_staking.trans h'.lqty_staking

/-- A payment of ether by neither of the two. -/
theorem moveEther (hstaking : d.lqtyStaking ≠ a) (hsurplus : d.collSurplusPool ≠ a) :
    HoldingsKept d s { s with ether := move s.ether a b amount } :=
  { refl s with
    ether_staking := le_move hstaking
    ether_surplus := le_move hsurplus }

theorem onStabilityPool {f : StabilityPool → Tx StabilityPool}
    (h : s.onStabilityPool f = .ok s') : HoldingsKept d s s' := by
  obtain ⟨p, -, rfl⟩ := System.onStabilityPool_ok.mp h
  exact { refl s with }

end HoldingsKept

namespace Frame

theorem refl (s : System) : Frame d s s :=
  { HoldingsKept.refl s with stabilityPool := rfl, communityIssuance := rfl, lqtyToken := rfl }

theorem trans {s₁ s₂ s₃ : System} (h : Frame d s₁ s₂) (h' : Frame d s₂ s₃) : Frame d s₁ s₃ where
  toHoldingsKept := h.toHoldingsKept.trans h'.toHoldingsKept
  stabilityPool := h'.stabilityPool.trans h.stabilityPool
  communityIssuance := h'.communityIssuance.trans h.communityIssuance
  lqtyToken := h'.lqtyToken.trans h.lqtyToken

/-! ## Calls on one contract -/

theorem onActivePool {f : ActivePool → Tx ActivePool} (h : s.onActivePool f = .ok s') :
    Frame d s s' := by
  obtain ⟨p, -, rfl⟩ := System.onActivePool_ok.mp h
  exact { refl s with }

theorem onDefaultPool {f : DefaultPool → Tx DefaultPool} (h : s.onDefaultPool f = .ok s') :
    Frame d s s' := by
  obtain ⟨p, -, rfl⟩ := System.onDefaultPool_ok.mp h
  exact { refl s with }

theorem onSortedTroves {f : SortedTroves → Tx SortedTroves} (h : s.onSortedTroves f = .ok s') :
    Frame d s s' := by
  obtain ⟨l, -, rfl⟩ := System.onSortedTroves_ok.mp h
  exact { refl s with }

theorem onTroveManager {f : TroveManager → Tx TroveManager} (h : s.onTroveManager f = .ok s') :
    Frame d s s' := by
  obtain ⟨t, -, rfl⟩ := System.onTroveManager_ok.mp h
  exact { refl s with }

theorem onLUSDToken {f : LUSDToken → Tx LUSDToken} (h : s.onLUSDToken f = .ok s')
    (hf : ∀ t, f s.lusdToken = .ok t →
      s.lusdToken.balances d.lqtyStaking ≤ t.balances d.lqtyStaking) : Frame d s s' := by
  obtain ⟨t, ht, rfl⟩ := System.onLUSDToken_ok.mp h
  exact { refl s with lusd_staking := hf t ht }

end Frame

/-! ## LUSD -/

theorem mint_frame {account : Address}
    (h : s.onLUSDToken (LUSDToken.mint d caller account amount) = .ok s') : Frame d s s' := by
  refine .onLUSDToken h fun t ht => ?_
  obtain ⟨-, rfl⟩ := LUSDToken.mint_ok ht
  change _ ≤ Function.update s.lusdToken.balances account _ d.lqtyStaking
  by_cases heq : d.lqtyStaking = account
  · subst heq
    simp
  · rw [Function.update_of_ne heq]

theorem burn_frame {account : Address} (ha : d.lqtyStaking ≠ account)
    (h : s.onLUSDToken (LUSDToken.burn d caller account amount) = .ok s') : Frame d s s' := by
  refine .onLUSDToken h fun t ht => ?_
  obtain ⟨-, -, rfl⟩ := LUSDToken.burn_ok ht
  change _ ≤ Function.update s.lusdToken.balances account _ d.lqtyStaking
  rw [Function.update_of_ne ha]

theorem returnFromPool_frame {pool receiver : Address} (ha : d.lqtyStaking ≠ pool)
    (h : s.onLUSDToken (LUSDToken.returnFromPool d caller pool receiver amount) = .ok s') :
    Frame d s s' := by
  refine .onLUSDToken h fun t ht => ?_
  obtain ⟨-, rfl⟩ := LUSDToken.returnFromPool_ok ht
  exact le_move ha

/-! ## Ether -/

/-- The surplus pool records the payments that it receives. -/
theorem receiveETH_holdings (hsurplus : b ≠ d.collSurplusPool)
    (h : System.receiveETH d a b amount s = .ok s') : HoldingsKept d s s' := by
  obtain ⟨_, _, _, c, rfl, -, hc⟩ := System.receiveETH_ok h
  obtain rfl := hc hsurplus
  exact { HoldingsKept.refl s with }

theorem callValue_holdings (hstaking : d.lqtyStaking ≠ a) (hpayer : d.collSurplusPool ≠ a)
    (hsurplus : b ≠ d.collSurplusPool) (h : s.callValue d a b amount = .ok s') :
    HoldingsKept d s s' := by
  obtain ⟨-, h⟩ := System.callValue_ok h
  exact (HoldingsKept.moveEther hstaking hpayer).trans (receiveETH_holdings hsurplus h)

/-- So does the Stability Pool. -/
theorem callValue_frame (hstaking : d.lqtyStaking ≠ a) (hpayer : d.collSurplusPool ≠ a)
    (hpool : b ≠ d.stabilityPool) (hsurplus : b ≠ d.collSurplusPool)
    (h : s.callValue d a b amount = .ok s') : Frame d s s' := by
  have hkept := callValue_holdings hstaking hpayer hsurplus h
  obtain ⟨-, h⟩ := System.callValue_ok h
  obtain ⟨_, _, p, _, rfl, hp, -⟩ := System.receiveETH_ok h
  exact { hkept with stabilityPool := hp hpool, communityIssuance := rfl, lqtyToken := rfl }

section Wired

variable (hd : d.Wired)

include hd

theorem sendETH_holdings (hsurplus : b ≠ d.collSurplusPool)
    (h : ActivePool.sendETH d caller b amount s = .ok s') : HoldingsKept d s s' := by
  simp only [ActivePool.sendETH, bind_ok, orRevert_ok] at h
  obtain ⟨-, -, _, -, h⟩ := h
  refine HoldingsKept.trans ?_ (callValue_holdings hd.lqtyStaking_ne_activePool
    hd.collSurplusPool_ne_activePool hsurplus h)
  exact { HoldingsKept.refl s with }

theorem sendETH_frame (hpool : b ≠ d.stabilityPool) (hsurplus : b ≠ d.collSurplusPool)
    (h : ActivePool.sendETH d caller b amount s = .ok s') : Frame d s s' := by
  simp only [ActivePool.sendETH, bind_ok, orRevert_ok] at h
  obtain ⟨-, -, _, -, h⟩ := h
  refine Frame.trans ?_ (callValue_frame hd.lqtyStaking_ne_activePool
    hd.collSurplusPool_ne_activePool hpool hsurplus h)
  exact { Frame.refl s with }

theorem sendETHToActivePool_frame
    (h : DefaultPool.sendETHToActivePool d caller amount s = .ok s') : Frame d s s' := by
  simp only [DefaultPool.sendETHToActivePool, bind_ok, orRevert_ok] at h
  obtain ⟨-, -, _, -, h⟩ := h
  refine Frame.trans ?_ (callValue_frame hd.lqtyStaking_ne_defaultPool
    hd.collSurplusPool_ne_defaultPool hd.stabilityPool_ne_activePool.symm
    hd.collSurplusPool_ne_activePool.symm h)
  exact { Frame.refl s with }

/-! ## The trove manager -/

namespace TroveManager

theorem movePendingTroveRewardsToActivePool_frame {LUSD ETH : Nat}
    (h : movePendingTroveRewardsToActivePool d LUSD ETH s = .ok s') : Frame d s s' := by
  simp only [movePendingTroveRewardsToActivePool, bind_ok] at h
  obtain ⟨s₁, h₁, s₂, h₂, h⟩ := h
  exact ((Frame.onDefaultPool h₁).trans (.onActivePool h₂)).trans (sendETHToActivePool_frame hd h)

theorem applyPendingRewardsInternal_frame (h : applyPendingRewardsInternal d b s = .ok s') :
    Frame d s s' := by
  unfold applyPendingRewardsInternal at h
  split at h
  · simp only [applyRewards, bind_ok] at h
    obtain ⟨-, -, _, -, _, -, _, -, _, -, h⟩ := h
    refine Frame.trans ?_ (movePendingTroveRewardsToActivePool_frame hd h)
    exact { Frame.refl s with }
  · cases h
    exact .refl s

theorem applyPendingRewards_frame (h : applyPendingRewards d caller b s = .ok s') :
    Frame d s s' := by
  obtain ⟨-, -, h⟩ := bind_ok.mp h
  exact applyPendingRewardsInternal_frame hd h

omit hd in
theorem closeTroveInternal_frame {status : Status} (h : closeTroveInternal d b status s = .ok s') :
    Frame d s s' := by
  simp only [closeTroveInternal, bind_ok] at h
  obtain ⟨-, -, -, -, t, -, h⟩ := h
  refine Frame.trans ?_ (.onSortedTroves h)
  exact { Frame.refl s with }

omit hd in
theorem closeTrove_frame (h : closeTrove d caller b s = .ok s') : Frame d s s' := by
  obtain ⟨-, -, h⟩ := bind_ok.mp h
  exact closeTroveInternal_frame h

theorem closeLiquidatedTrove_frame {entire : EntireDebtAndColl}
    (h : closeLiquidatedTrove d b entire s = .ok s') : Frame d s s' := by
  simp only [closeLiquidatedTrove, bind_ok] at h
  obtain ⟨s₁, h₁, s₂, h₂, h⟩ := h
  exact ((movePendingTroveRewardsToActivePool_frame hd h₁).trans (.onTroveManager h₂)).trans
    (closeTroveInternal_frame h)

theorem redistributeDebtAndColl_frame {debt coll : Nat}
    (h : redistributeDebtAndColl d debt coll s = .ok s') : Frame d s s' := by
  unfold redistributeDebtAndColl at h
  split at h
  · cases h
    exact .refl s
  · simp only [bind_ok] at h
    obtain ⟨_, -, _, -, _, -, _, -, s₁, h₁, s₂, h₂, h⟩ := h
    refine Frame.trans ?_ (((Frame.onActivePool h₁).trans (.onDefaultPool h₂)).trans
      (sendETH_frame hd hd.stabilityPool_ne_defaultPool.symm
        hd.collSurplusPool_ne_defaultPool.symm h))
    exact { Frame.refl s with }

omit hd in
theorem updateSystemSnapshots_frame {collRemainder : Nat}
    (h : updateSystemSnapshots_excludeCollRemainder collRemainder s = .ok s') : Frame d s s' := by
  simp only [updateSystemSnapshots_excludeCollRemainder, bind_ok, pure_ok] at h
  obtain ⟨_, -, _, -, rfl⟩ := h
  exact { Frame.refl s with }

theorem sendGasCompensation_frame {liquidator : Address} {LUSD ETH : Nat}
    (hliquidator : d.External liquidator) (h : sendGasCompensation d liquidator LUSD ETH s = .ok s') :
    Frame d s s' := by
  obtain ⟨s₁, h₁, h⟩ := bind_ok.mp h
  have hLUSD : Frame d s s₁ := by
    unfold sendLUSDGasCompensation at h₁
    split at h₁
    · exact returnFromPool_frame hd.lqtyStaking_ne_gasPool h₁
    · cases h₁
      exact .refl s
  split at h
  · exact hLUSD.trans
      (sendETH_frame hd hliquidator.ne_stabilityPool hliquidator.ne_collSurplusPool h)
  · cases h
    exact hLUSD

omit hd in
theorem redeemPartially_frame {newDebt newColl newNICR : Nat} {hints : RedemptionHints}
    (h : redeemPartially d b newDebt newColl newNICR hints s = .ok s') : Frame d s s' := by
  simp only [redeemPartially, bind_ok, pure_ok] at h
  obtain ⟨s₁, h₁, t, -, rfl⟩ := h
  exact (Frame.onSortedTroves h₁).trans { Frame.refl s₁ with }

end TroveManager

end Wired

end Liquity
