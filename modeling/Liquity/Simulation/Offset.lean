import Liquity.Simulation.Basic

/-!
# Simulation: the Stability Pool absorbs debt
-/

open Lib

namespace Liquity

open SafeMath LiquityMath

variable {d : Deployment} {s s' : System} {ι : InFlight} {allow : Ledger → Label → Prop}

namespace StabilityPool

variable {coll debt : Nat}

/-- Issuing LQTY only touches the LQTY side of the pool. -/
theorem triggerLQTYIssuance_ok {timestamp : Nat} (h : triggerLQTYIssuance d timestamp s = .ok s') :
    ∃ issuance communityIssuance sp, s.stabilityPool.updateG issuance = .ok sp ∧
      s' = { s with communityIssuance, stabilityPool := sp } := by
  simp only [triggerLQTYIssuance, bind_ok, System.onStabilityPool_ok] at h
  obtain ⟨issued, -, p, hp, rfl⟩ := h
  exact ⟨issued.1, issued.2, p, hp, rfl⟩

theorem triggerLQTYIssuance_evolves (hs : Sound d s ι) (hplain : ∀ L, allow L .plain)
    {timestamp : Nat} (h : triggerLQTYIssuance d timestamp s = .ok s') :
    Evolves d allow s ι s' ι := by
  obtain ⟨issuance, communityIssuance, sp, hsp, rfl⟩ := triggerLQTYIssuance_ok h
  exact .move (.issueLQTY (L := s.ledger ι) hsp) (hplain _) hs.list (.of_eq rfl rfl)

/-- What an offset does: nothing, or LQTY is issued, the pool absorbs the debt and the tokens and the
ether move. -/
theorem offset_ok {caller : Address} {timestamp : Nat}
    (h : offset d caller debt coll timestamp s = .ok s') :
    ((s.stabilityPool.totalLUSDDeposits = 0 ∨ debt = 0) ∧ s' = s) ∨
      (s.stabilityPool.totalLUSDDeposits ≠ 0 ∧ debt ≠ 0 ∧
        ∃ s₁ rewards p, triggerLQTYIssuance d timestamp s = .ok s₁ ∧
          s₁.stabilityPool.computeRewardsPerUnitStaked coll debt s.stabilityPool.totalLUSDDeposits =
            .ok rewards ∧
          rewards.2.updateRewardSumAndProduct rewards.1.1 rewards.1.2 = .ok p ∧
          moveOffsetCollAndDebt d coll debt { s₁ with stabilityPool := p } = .ok s') := by
  simp only [offset, bind_ok] at h
  obtain ⟨-, -, h⟩ := h
  split at h
  next hnothing =>
    obtain rfl := pure_ok.mp h
    exact .inl ⟨hnothing, rfl⟩
  next hne =>
    simp only [bind_ok] at h
    obtain ⟨s₁, hs₁, rewards, hrewards, p, hp, h⟩ := h
    exact .inr ⟨fun hzero => hne (.inl hzero), fun hzero => hne (.inr hzero), s₁, rewards, p, hs₁,
      hrewards, hp, h⟩

/-- The whole offset: tokens are burned, ether moves in, and what was in flight is settled. -/
theorem offset_evolves (hd : d.Wired) (hs : Sound d s ι) {caller : Address} {timestamp : Nat}
    (hplain : ∀ L, allow L .plain)
    (hallow : ∀ L, s.stabilityPool.Issued L.sp → allow L (.offset debt))
    (hdebt : debt ≤ ι.debt) (hcoll : coll ≤ ι.coll)
    (hle : debt ≤ s.stabilityPool.totalLUSDDeposits) (hzero : debt = 0 → coll = 0)
    (h : offset d caller debt coll timestamp s = .ok s') :
    Evolves d allow s ι s' ⟨ι.coll - coll, ι.debt - debt, ι.gas⟩ := by
  rcases offset_ok h with ⟨hnothing, rfl⟩ | ⟨-, hne, s₁, rewards, p, hs₁, hrewards, hp, h⟩
  · obtain rfl : debt = 0 := by omega
    obtain rfl := hzero rfl
    exact .refl hs
  · have e₁ : Evolves d allow s ι s₁ ι := triggerLQTYIssuance_evolves hs hplain hs₁
    obtain ⟨issuance, communityIssuance, sp, hsp, rfl⟩ := triggerLQTYIssuance_ok hs₁
    have hissued := (updateG_ok hsp).1
    have htotal : sp.totalLUSDDeposits = s.stabilityPool.totalLUSDDeposits := by
      obtain ⟨error, G, rfl⟩ := hissued
      rfl
    rw [← htotal] at hrewards
    simp only [moveOffsetCollAndDebt, bind_ok, System.onActivePool_ok, System.onStabilityPool_ok,
      System.onLUSDToken_ok, decreaseLUSD, pure_ok, sub_ok] at h
    obtain ⟨_, ⟨a, ha, rfl⟩, _, ⟨_, ⟨_, ⟨-, rfl⟩, rfl⟩, rfl⟩, _, ⟨t, ht, rfl⟩, h⟩ := h
    obtain ⟨-, rfl⟩ := ActivePool.decreaseLUSDDebt_ok ha
    obtain ⟨hbalance, -, rfl⟩ := LUSDToken.burn_ok ht
    obtain ⟨-, hkept, ether, rfl⟩ := ActivePool.sendETH_stabilityPool hd h
    refine e₁.trans (Evolves.move (?_ : Ledger.Move d _ (.offset debt) _) (hallow _ hissued) hs.list
      ⟨hkept.sum_eq, hkept.activePool_eq⟩)
    exact Ledger.Move.offset
      (L := System.ledger { s with communityIssuance, stabilityPool := sp } ι) hne hdebt hcoll hbalance
      ⟨rewards, p, hrewards, hp, rfl⟩

end StabilityPool

end Liquity
