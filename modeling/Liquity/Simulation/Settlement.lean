import Liquity.Simulation.Offset

/-!
# Simulation: what settling a liquidation does

After its loop a liquidating call moves the tallied amounts to their pools.  `Settles` says what the
five steps of the settlement have in common: they touch no trove and no claimable surplus, and take
exact amounts out of the two pools that back the troves.
-/

open Lib

namespace Liquity

open SafeMath TroveManager

variable {d : Deployment} {s s' s'' : System} {coll coll' debt debt' : Nat}

/-- `coll` and `debt` leave the Active and Default Pools; troves, list and surpluses stay. -/
structure Settles (coll debt : Nat) (s s' : System) : Prop where
  troves : s'.troveManager.troves = s.troveManager.troves
  rewardSnapshots : s'.troveManager.rewardSnapshots = s.troveManager.rewardSnapshots
  sortedTroves : s'.sortedTroves = s.sortedTroves
  surplus : s'.collSurplusPool.balances = s.collSurplusPool.balances
  coll : s'.activePool.ETH + s'.defaultPool.ETH + coll = s.activePool.ETH + s.defaultPool.ETH
  debt : s'.activePool.LUSDDebt + s'.defaultPool.LUSDDebt + debt =
    s.activePool.LUSDDebt + s.defaultPool.LUSDDebt

namespace Settles

theorem refl (s : System) : Settles 0 0 s s := ⟨rfl, rfl, rfl, rfl, rfl, rfl⟩

theorem trans (h : Settles coll debt s s') (h' : Settles coll' debt' s' s'') :
    Settles (coll + coll') (debt + debt') s s'' where
  troves := h'.troves.trans h.troves
  rewardSnapshots := h'.rewardSnapshots.trans h.rewardSnapshots
  sortedTroves := h'.sortedTroves.trans h.sortedTroves
  surplus := h'.surplus.trans h.surplus
  coll := by
    rw [← h.coll, ← h'.coll]
    omega
  debt := by
    rw [← h.debt, ← h'.debt]
    omega

end Settles

/-! ## The five steps -/

namespace StabilityPool

variable {p q : StabilityPool}

/-- The pool after a liquidation that offsets `debt` for `coll`: LQTY is issued first. -/
def Offsets (debt coll : Nat) (p q : StabilityPool) : Prop :=
  (debt = 0 ∧ q = p) ∨
    (debt ≠ 0 ∧ ∃ issuance p₁, p.updateG issuance = .ok p₁ ∧ p₁.Absorbs debt coll q)

theorem offset_settles (hd : d.Wired) {caller : Address} {timestamp : Nat}
    (hle : debt ≤ s.stabilityPool.totalLUSDDeposits) (hzero : debt = 0 → coll = 0)
    (h : offset d caller debt coll timestamp s = .ok s') :
    Settles coll debt s s' ∧ Offsets debt coll s.stabilityPool s'.stabilityPool := by
  rcases offset_ok h with ⟨hnothing, rfl⟩ | ⟨-, hne, s₁, rewards, p, hs₁, hrewards, hp, h⟩
  -- an empty pool can have no debt to offset
  · obtain rfl : debt = 0 := by omega
    obtain rfl := hzero rfl
    exact ⟨.refl s', .inl ⟨rfl, rfl⟩⟩
  · obtain ⟨issuance, communityIssuance, sp, hsp, rfl⟩ := triggerLQTYIssuance_ok hs₁
    -- issuing LQTY leaves the total alone
    have htotal : sp.totalLUSDDeposits = s.stabilityPool.totalLUSDDeposits := by
      obtain ⟨error, G, rfl⟩ := (updateG_ok hsp).1
      rfl
    rw [← htotal] at hrewards
    simp only [moveOffsetCollAndDebt, bind_ok, System.onActivePool_ok, System.onStabilityPool_ok,
      System.onLUSDToken_ok, decreaseLUSD, pure_ok, sub_ok] at h
    obtain ⟨_, ⟨a, ha, rfl⟩, _, ⟨_, ⟨_, ⟨-, rfl⟩, rfl⟩, rfl⟩, _, ⟨t, -, rfl⟩, h⟩ := h
    obtain ⟨hdebt, rfl⟩ := ActivePool.decreaseLUSDDebt_ok ha
    obtain ⟨hcoll, -, ether, rfl⟩ := ActivePool.sendETH_stabilityPool hd h
    refine ⟨⟨rfl, rfl, rfl, rfl, ?_, ?_⟩, .inr ⟨hne, issuance, sp, hsp, rewards, p, hrewards, hp, rfl⟩⟩
    · dsimp only at hcoll ⊢
      omega
    · dsimp only at hdebt ⊢
      omega

end StabilityPool

theorem redistributeDebtAndColl_settles (hd : d.Wired)
    (h : redistributeDebtAndColl d debt coll s = .ok s') :
    Settles 0 0 s s' ∧ s'.stabilityPool = s.stabilityPool := by
  unfold redistributeDebtAndColl at h
  split at h
  · cases h
    exact ⟨.refl s, rfl⟩
  · simp only [bind_ok, System.onActivePool_ok, System.onDefaultPool_ok] at h
    obtain ⟨_, -, _, -, _, -, _, -, _, ⟨p, hp, rfl⟩, _, ⟨q, hq, rfl⟩, h⟩ := h
    obtain ⟨hdebt, rfl⟩ := ActivePool.decreaseLUSDDebt_ok hp
    obtain rfl := DefaultPool.increaseLUSDDebt_ok hq
    obtain ⟨hcoll, -, ether, rfl⟩ := ActivePool.sendETH_defaultPool hd h
    refine ⟨⟨rfl, rfl, rfl, rfl, ?_, ?_⟩, rfl⟩
    · dsimp only at hcoll ⊢
      omega
    · dsimp only at hdebt ⊢
      omega

theorem sendCollSurplus_settles (hd : d.Wired) (h : sendCollSurplus d coll s = .ok s') :
    Settles coll 0 s s' ∧ s'.stabilityPool = s.stabilityPool := by
  unfold sendCollSurplus at h
  split at h
  · obtain ⟨hcoll, -, ether, rfl⟩ := ActivePool.sendETH_collSurplusPool hd h
    refine ⟨⟨rfl, rfl, rfl, rfl, ?_, rfl⟩, rfl⟩
    dsimp only
    omega
  next hzero =>
    cases h
    obtain rfl : coll = 0 := Nat.eq_zero_of_not_pos hzero
    exact ⟨.refl s, rfl⟩

theorem updateSystemSnapshots_settles {collRemainder : Nat}
    (h : updateSystemSnapshots_excludeCollRemainder collRemainder s = .ok s') :
    Settles 0 0 s s' ∧ s'.stabilityPool = s.stabilityPool := by
  simp only [updateSystemSnapshots_excludeCollRemainder, bind_ok, pure_ok] at h
  obtain ⟨_, -, _, -, rfl⟩ := h
  exact ⟨⟨rfl, rfl, rfl, rfl, rfl, rfl⟩, rfl⟩

theorem sendGasCompensation_settles {liquidator : Address} (hliquidator : d.External liquidator)
    {LUSD : Nat} (h : sendGasCompensation d liquidator LUSD coll s = .ok s') :
    Settles coll 0 s s' ∧ s'.stabilityPool = s.stabilityPool := by
  obtain ⟨s₁, hs₁, h⟩ := bind_ok.mp h
  have hgas : Settles 0 0 s s₁ ∧ s₁.stabilityPool = s.stabilityPool := by
    unfold sendLUSDGasCompensation at hs₁
    split at hs₁
    · obtain ⟨t, -, rfl⟩ := System.onLUSDToken_ok.mp hs₁
      exact ⟨⟨rfl, rfl, rfl, rfl, rfl, rfl⟩, rfl⟩
    · cases hs₁
      exact ⟨.refl s, rfl⟩
  split at h
  · obtain ⟨hcoll, -, ether, rfl⟩ := ActivePool.sendETH_external hliquidator h
    have hpaid : Settles coll 0 s₁ { s₁ with
        activePool := { s₁.activePool with ETH := s₁.activePool.ETH - coll }, ether } := by
      refine ⟨rfl, rfl, rfl, rfl, ?_, rfl⟩
      dsimp only
      omega
    have hboth := hgas.1.trans hpaid
    rw [Nat.zero_add] at hboth
    exact ⟨hboth, hgas.2⟩
  next hzero =>
    cases h
    obtain rfl : coll = 0 := Nat.eq_zero_of_not_pos hzero
    exact hgas

/-! ## The whole settlement -/

/-- Everything but the redistributed amounts leaves the two pools, and the Stability Pool absorbs the
tallied debt. -/
theorem settleLiquidation_settles (hd : d.Wired) {env : Env} (hsender : d.External env.sender)
    {totals : LiquidationTotals}
    (hle : totals.totalDebtToOffset ≤ s.stabilityPool.totalLUSDDeposits)
    (hoffset : totals.totalDebtToOffset = 0 → totals.totalCollToSendToSP = 0)
    (h : settleLiquidation d env totals s = .ok s') :
    Settles (totals.totalCollToSendToSP + totals.totalCollSurplus + totals.totalCollGasCompensation)
        totals.totalDebtToOffset s s' ∧
      StabilityPool.Offsets totals.totalDebtToOffset totals.totalCollToSendToSP s.stabilityPool
        s'.stabilityPool := by
  simp only [settleLiquidation, bind_ok] at h
  obtain ⟨_, -, s₁, h₁, s₂, h₂, s₃, h₃, s₄, h₄, -, -, -, -, h₅⟩ := h
  obtain ⟨hs₁, hoffsets⟩ := StabilityPool.offset_settles hd hle hoffset h₁
  obtain ⟨hs₂, hsp₂⟩ := redistributeDebtAndColl_settles hd h₂
  obtain ⟨hs₃, hsp₃⟩ := sendCollSurplus_settles hd h₃
  obtain ⟨hs₄, hsp₄⟩ := updateSystemSnapshots_settles h₄
  obtain ⟨hs₅, hsp₅⟩ := sendGasCompensation_settles hsender h₅
  -- the five steps one after the other; two of them take nothing out
  have hall := (((hs₁.trans hs₂).trans hs₃).trans hs₄).trans hs₅
  simp only [Nat.add_zero] at hall
  refine ⟨hall, ?_⟩
  rw [hsp₅, hsp₄, hsp₃, hsp₂]
  exact hoffsets

/-! ## The rewards of a settlement -/

/-- What one unit of stake is given when `amount` is shared out, with the remainder carried over. -/
def rewardRate (amount error totalStakes : Nat) : Nat :=
  (amount * DECIMAL_PRECISION + error) / totalStakes

/-- The accumulators after `debt` and `coll` are shared out to the stakes. -/
structure Redistributes (debt coll : Nat) (t t' : TroveManager) : Prop where
  none : debt = 0 → t'.L_ETH = t.L_ETH ∧ t'.L_LUSDDebt = t.L_LUSDDebt
  some : debt ≠ 0 →
    t'.L_ETH = t.L_ETH + rewardRate coll t.lastETHError_Redistribution t.totalStakes ∧
    t'.L_LUSDDebt = t.L_LUSDDebt + rewardRate debt t.lastLUSDDebtError_Redistribution t.totalStakes

theorem StabilityPool.offset_troveManager (hd : d.Wired) {caller : Address} {timestamp : Nat}
    (h : offset d caller debt coll timestamp s = .ok s') : s'.troveManager = s.troveManager := by
  rcases offset_ok h with ⟨-, rfl⟩ | ⟨-, -, s₁, rewards, p, hs₁, -, -, h⟩
  · rfl
  · obtain ⟨issuance, communityIssuance, sp, -, rfl⟩ := triggerLQTYIssuance_ok hs₁
    simp only [moveOffsetCollAndDebt, bind_ok, System.onActivePool_ok, System.onStabilityPool_ok,
      System.onLUSDToken_ok] at h
    obtain ⟨_, ⟨a, -, rfl⟩, _, ⟨_, -, rfl⟩, _, ⟨t, -, rfl⟩, h⟩ := h
    obtain ⟨-, -, ether, rfl⟩ := ActivePool.sendETH_stabilityPool hd h
    rfl

theorem redistributeDebtAndColl_redistributes (hd : d.Wired)
    (h : redistributeDebtAndColl d debt coll s = .ok s') :
    Redistributes debt coll s.troveManager s'.troveManager := by
  unfold redistributeDebtAndColl at h
  split at h
  next hzero =>
    cases h
    exact ⟨fun _ => ⟨rfl, rfl⟩, fun hne => absurd hzero hne⟩
  next hne =>
    simp only [rewardPerUnitStaked, bind_ok, pure_ok, mul_ok, add_ok, div_ok, sub_ok,
      System.onActivePool_ok, System.onDefaultPool_ok] at h
    obtain ⟨_, ⟨_, ⟨-, rfl⟩, _, ⟨-, rfl⟩, _, ⟨-, rfl⟩, _, ⟨-, rfl⟩, _, ⟨-, rfl⟩, rfl⟩, _, ⟨_, ⟨-, rfl⟩, _,
      ⟨-, rfl⟩, _, ⟨-, rfl⟩, _, ⟨-, rfl⟩, _, ⟨-, rfl⟩, rfl⟩, _, ⟨-, rfl⟩, _, ⟨-, rfl⟩, _, ⟨p, -, rfl⟩, _,
      ⟨q, -, rfl⟩, h⟩ := h
    obtain ⟨-, -, ether, rfl⟩ := ActivePool.sendETH_defaultPool hd h
    exact ⟨fun hzero => absurd hzero hne, fun _ => ⟨rfl, rfl⟩⟩

theorem sendCollSurplus_troveManager (hd : d.Wired) (h : sendCollSurplus d coll s = .ok s') :
    s'.troveManager = s.troveManager := by
  unfold sendCollSurplus at h
  split at h
  · obtain ⟨-, -, ether, rfl⟩ := ActivePool.sendETH_collSurplusPool hd h
    rfl
  · cases h
    rfl

theorem sendGasCompensation_troveManager {liquidator : Address} (hliquidator : d.External liquidator)
    {LUSD : Nat} (h : sendGasCompensation d liquidator LUSD coll s = .ok s') :
    s'.troveManager = s.troveManager := by
  obtain ⟨s₁, hs₁, h⟩ := bind_ok.mp h
  have hgas : s₁.troveManager = s.troveManager := by
    unfold sendLUSDGasCompensation at hs₁
    split at hs₁
    · obtain ⟨t, -, rfl⟩ := System.onLUSDToken_ok.mp hs₁
      rfl
    · cases hs₁
      rfl
  rw [← hgas]
  split at h
  · obtain ⟨-, -, ether, rfl⟩ := ActivePool.sendETH_external hliquidator h
    rfl
  · cases h
    rfl

/-- A settlement shares out what the loop left for redistribution. -/
theorem settleLiquidation_redistributes (hd : d.Wired) {env : Env} (hsender : d.External env.sender)
    {totals : LiquidationTotals} (h : settleLiquidation d env totals s = .ok s') :
    Redistributes totals.totalDebtToRedistribute totals.totalCollToRedistribute s.troveManager
      s'.troveManager := by
  simp only [settleLiquidation, bind_ok] at h
  obtain ⟨_, -, s₁, h₁, s₂, h₂, s₃, h₃, s₄, h₄, -, -, -, -, h₅⟩ := h
  have hrewards := redistributeDebtAndColl_redistributes hd h₂
  -- nothing before the redistribution writes the trove manager
  rw [StabilityPool.offset_troveManager hd h₁] at hrewards
  rw [sendGasCompensation_troveManager hsender h₅]
  simp only [updateSystemSnapshots_excludeCollRemainder, bind_ok, pure_ok] at h₄
  obtain ⟨_, -, _, -, rfl⟩ := h₄
  rw [← sendCollSurplus_troveManager hd h₃] at hrewards
  exact ⟨hrewards.none, hrewards.some⟩

end Liquity
