import Liquity.Soundness

/-!
# Applying pending rewards

`_applyPendingRewards` never changes what a trove owes or owns in total.  Whether it books all that is
pending is decided by `hasPendingRewards`, which looks at the collateral alone.
-/

open Lib

namespace Liquity

open SafeMath LiquityMath TroveManager

variable {d : Deployment} {s s' : System} {b x : Address}

/-! ## Snapshots -/

/-- No reward snapshot is ahead of its accumulator. -/
def Ledger.SnapshotsPast (L : Ledger) : Prop :=
  ∀ x, (L.tm.rewardSnapshots x).ETH ≤ L.tm.L_ETH ∧
    (L.tm.rewardSnapshots x).LUSDDebt ≤ L.tm.L_LUSDDebt

namespace TroveManager

variable {t : TroveManager}

/-- One trove takes a snapshot, or loses the one it had. -/
theorem snapshotsPast_update {snapshots : Address → RewardSnapshot} {snapshot : RewardSnapshot}
    {L_ETH L_LUSDDebt : Nat}
    (h : ∀ x, (snapshots x).ETH ≤ L_ETH ∧ (snapshots x).LUSDDebt ≤ L_LUSDDebt)
    (hnew : snapshot.ETH ≤ L_ETH ∧ snapshot.LUSDDebt ≤ L_LUSDDebt) (x : Address) :
    (Function.update snapshots b snapshot x).ETH ≤ L_ETH ∧
      (Function.update snapshots b snapshot x).LUSDDebt ≤ L_LUSDDebt := by
  by_cases hx : x = b
  · subst hx
    rw [Function.update_self]
    exact hnew
  · rw [Function.update_of_ne hx]
    exact h x

end TroveManager

theorem Ledger.Move.snapshotsPast {L L' : Ledger} {label : Label} (hm : Ledger.Move d L label L')
    (h : L.SnapshotsPast) : L'.SnapshotsPast := by
  have hcurrent : ∀ b, ∀ x, (Function.update L.tm.rewardSnapshots b ⟨L.tm.L_ETH, L.tm.L_LUSDDebt⟩ x).ETH ≤
      L.tm.L_ETH ∧ (Function.update L.tm.rewardSnapshots b ⟨L.tm.L_ETH, L.tm.L_LUSDDebt⟩ x).LUSDDebt ≤
        L.tm.L_LUSDDebt :=
    fun b => snapshotsPast_update h ⟨Nat.le_refl _, Nat.le_refl _⟩
  have hclosed : ∀ b, ∀ x, (Function.update L.tm.rewardSnapshots b ⟨0, 0⟩ x).ETH ≤ L.tm.L_ETH ∧
      (Function.update L.tm.rewardSnapshots b ⟨0, 0⟩ x).LUSDDebt ≤ L.tm.L_LUSDDebt :=
    fun b => snapshotsPast_update h ⟨Nat.zero_le _, Nat.zero_le _⟩
  cases hm with
  | openTrove | applyRewards => exact hcurrent _
  | closeTrove | liquidate | redeemFully => exact hclosed _
  | redistribute =>
    intro x
    exact ⟨(h x).1.trans (Nat.le_add_right _ _), (h x).2.trans (Nat.le_add_right _ _)⟩
  | _ => exact h

theorem reachable_snapshotsPast (hd : d.Wired) (hr : Reachable d s) (x : Address) :
    (s.troveManager.rewardSnapshots x).ETH ≤ s.troveManager.L_ETH ∧
      (s.troveManager.rewardSnapshots x).LUSDDebt ≤ s.troveManager.L_LUSDDebt := by
  refine ReachableWhen.ledger_invariant hd Ledger.SnapshotsPast ?_
    (fun _ _ _ _ _ _ _ _ hL _ hm => hm.snapshotsPast hL) hr x
  rintro _ ⟨ether, timestamp, -, rfl⟩ x
  exact ⟨Nat.le_refl _, Nat.le_refl _⟩

/-! ## What the views read -/

/-- A trove's entire collateral and debt, as `getEntireDebtAndColl` returns them. -/
def TroveManager.entireAmounts (b : Address) (t : TroveManager) : Tx (Nat × Nat) := do
  let entire ← t.getEntireDebtAndColl b
  return (entire.coll, entire.debt)

/-- Nothing is pending: the snapshots are current, and the stored amounts are the entire ones. -/
structure RewardsComplete (b : Address) (t : TroveManager) : Prop where
  pendingETH : t.getPendingETHReward b = .ok 0
  pendingLUSDDebt : t.getPendingLUSDDebtReward b = .ok 0
  snapshot : t.rewardSnapshots b = ⟨t.L_ETH, t.L_LUSDDebt⟩
  stored : t.entireAmounts b = .ok ((t.troves b).coll, (t.troves b).debt)

/-- The entire amounts of all troves and the nominal ratio of `b` are what they were. -/
structure RewardsNeutral (b : Address) (t t' : TroveManager) : Prop where
  entireAmounts : ∀ x, t'.entireAmounts x = t.entireAmounts x
  nominalICR : t'.getNominalICR b = t.getNominalICR b

namespace TroveManager

variable {t t' : TroveManager}

theorem pendingReward_current (accumulator : Nat) (trove : Trove) :
    pendingReward accumulator accumulator trove = .ok 0 := by
  simp only [pendingReward, bind_ok, sub_ok]
  refine ⟨0, ⟨Nat.le_refl _, Nat.sub_self _⟩, ?_⟩
  rw [if_pos (.inl rfl)]
  rfl

/-- What the views of a trove read is in the trove, its snapshot and the accumulators. -/
theorem entireAmounts_congr (h : SameTrove t t' x)
    (hstatus : (t'.troves x).status = (t.troves x).status) (hE : t'.L_ETH = t.L_ETH)
    (hD : t'.L_LUSDDebt = t.L_LUSDDebt) : t'.entireAmounts x = t.entireAmounts x := by
  simp only [entireAmounts, getEntireDebtAndColl, getPendingETHReward, getPendingLUSDDebtReward,
    pendingReward, h.coll, h.debt, h.stake, h.snapshot, hstatus, hE, hD]

/-- A current snapshot and amounts that fit in a word. -/
theorem rewardsComplete_of_snapshot (h : t.rewardSnapshots b = ⟨t.L_ETH, t.L_LUSDDebt⟩)
    (hcoll : (t.troves b).coll < 2 ^ 256) (hdebt : (t.troves b).debt < 2 ^ 256) :
    RewardsComplete b t := by
  have hETH : t.getPendingETHReward b = .ok 0 := by
    rw [getPendingETHReward, h]
    exact pendingReward_current _ _
  have hLUSDDebt : t.getPendingLUSDDebtReward b = .ok 0 := by
    rw [getPendingLUSDDebtReward, h]
    exact pendingReward_current _ _
  refine ⟨hETH, hLUSDDebt, h, ?_⟩
  simp only [entireAmounts, getEntireDebtAndColl, bind_ok, hETH, hLUSDDebt, add_ok, pure_ok]
  exact ⟨_, ⟨_, rfl, _, rfl, _, ⟨hdebt, rfl⟩, _, ⟨hcoll, rfl⟩, rfl⟩, rfl⟩

/-- The entire amounts of a trove whose pending rewards have been read. -/
theorem entireAmounts_of_pending {ETH LUSDDebt : Nat} (hETH : t.getPendingETHReward b = .ok ETH)
    (hLUSDDebt : t.getPendingLUSDDebtReward b = .ok LUSDDebt)
    (hcoll : (t.troves b).coll + ETH < 2 ^ 256) (hdebt : (t.troves b).debt + LUSDDebt < 2 ^ 256) :
    t.entireAmounts b = .ok ((t.troves b).coll + ETH, (t.troves b).debt + LUSDDebt) ∧
      t.getNominalICR b = computeNominalCR ((t.troves b).coll + ETH) ((t.troves b).debt + LUSDDebt) := by
  have hamounts : t.getCurrentTroveAmounts b =
      .ok ((t.troves b).coll + ETH, (t.troves b).debt + LUSDDebt) := by
    simp only [getCurrentTroveAmounts, bind_ok, hETH, hLUSDDebt, add_ok, pure_ok]
    exact ⟨_, rfl, _, rfl, _, ⟨hcoll, rfl⟩, _, ⟨hdebt, rfl⟩, rfl⟩
  constructor
  · simp only [entireAmounts, getEntireDebtAndColl, bind_ok, hETH, hLUSDDebt, add_ok, pure_ok]
    exact ⟨_, ⟨_, rfl, _, rfl, _, ⟨hdebt, rfl⟩, _, ⟨hcoll, rfl⟩, rfl⟩, rfl⟩
  · rw [getNominalICR, hamounts]
    rfl

end TroveManager

/-! ## `_applyPendingRewards` -/

/-- The branch that has something to apply. -/
theorem applyRewards_ok (hd : d.Wired) (hactive : (s.troveManager.troves b).status = .active)
    (h : applyRewards d b s = .ok s') :
    s'.troveManager = s.troveManager.applied b ∧
      RewardsComplete b s'.troveManager ∧ RewardsNeutral b s.troveManager s'.troveManager := by
  simp only [applyRewards, bind_ok, add_ok] at h
  obtain ⟨-, -, pe, hpe, pd, hpd, _, ⟨hcoll, rfl⟩, _, ⟨hdebt, rfl⟩, h⟩ := h
  obtain ⟨hbefore, hICR⟩ := entireAmounts_of_pending hpe hpd hcoll hdebt
  obtain ⟨-, rfl⟩ := getPendingETHReward_ok hactive hpe
  obtain ⟨-, rfl⟩ := getPendingLUSDDebtReward_ok hactive hpd
  obtain ⟨-, -, -, ether, rfl⟩ := movePendingTroveRewardsToActivePool_ok hd h
  have happlied : (s.troveManager.setTrove b { s.troveManager.troves b with
      coll := (s.troveManager.troves b).coll + s.troveManager.pendingETH b
      debt := (s.troveManager.troves b).debt + s.troveManager.pendingLUSDDebt b
      }).updateTroveRewardSnapshotsInternal b = s.troveManager.applied b := rfl
  have hself : (s.troveManager.applied b).troves b = { s.troveManager.troves b with
      coll := (s.troveManager.troves b).coll + s.troveManager.pendingETH b
      debt := (s.troveManager.troves b).debt + s.troveManager.pendingLUSDDebt b } :=
    Function.update_self ..
  have hsnapshot : (s.troveManager.applied b).rewardSnapshots b =
      ⟨s.troveManager.L_ETH, s.troveManager.L_LUSDDebt⟩ := Function.update_self ..
  rw [happlied]
  have hcomplete : RewardsComplete b (s.troveManager.applied b) := by
    refine rewardsComplete_of_snapshot hsnapshot ?_ ?_
    · rw [hself]
      exact hcoll
    · rw [hself]
      exact hdebt
  refine ⟨rfl, hcomplete, fun x => ?_, ?_⟩
  · by_cases hx : x = b
    · subst hx
      rw [hcomplete.stored, hself, hbefore]
    · obtain ⟨htrove, hsnap⟩ := applied_of_ne (t := s.troveManager) hx
      exact entireAmounts_congr ⟨by rw [htrove], by rw [htrove], by rw [htrove], hsnap⟩ (by rw [htrove])
        rfl rfl
  · rw [hICR, (entireAmounts_of_pending hcomplete.pendingETH hcomplete.pendingLUSDDebt (by
      rw [hself]; exact hcoll) (by rw [hself]; exact hdebt)).2, hself]
    rfl

/-- Applying is neutral, and it is complete exactly when the collateral accumulator has moved since the
trove's snapshot, or the debt accumulator has not. -/
theorem applyPendingRewards_complete_iff (hd : d.Wired) (hr : Reachable d s)
    (hactive : (s.troveManager.troves b).status = .active)
    (h : applyPendingRewardsInternal d b s = .ok s') :
    (RewardsComplete b s'.troveManager ∧ RewardsNeutral b s.troveManager s'.troveManager) ↔
      (s.troveManager.hasPendingRewards b = true ∨
        (s.troveManager.rewardSnapshots b).LUSDDebt = s.troveManager.L_LUSDDebt) := by
  unfold applyPendingRewardsInternal at h
  split at h
  next hpending =>
    obtain ⟨-, hcomplete, hneutral⟩ := applyRewards_ok hd hactive h
    exact ⟨fun _ => .inl hpending, fun _ => ⟨hcomplete, hneutral⟩⟩
  next hnone =>
    cases h
    have hsettled : s.troveManager.L_ETH ≤ (s.troveManager.rewardSnapshots b).ETH := by
      simpa [hasPendingRewards, hactive] using hnone
    constructor
    · rintro ⟨hcomplete, -⟩
      right
      rw [hcomplete.snapshot]
    · intro hdebt
      have hcurrent := hdebt.resolve_left hnone
      have hETH := Nat.le_antisymm (reachable_snapshotsPast hd hr b).1 hsettled
      have hsound := hr.sound hd
      have hcoll : (s.troveManager.troves b).coll ≤ s.activePool.ETH := hsound.books.coll_le b
      have howed : (s.troveManager.troves b).debt ≤ s.activePool.LUSDDebt := hsound.books.debt_le b
      have hsupply : s.lusdToken.totalSupply = s.activePool.LUSDDebt + s.defaultPool.LUSDDebt :=
        hsound.books.supply
      have hlt : s.lusdToken.totalSupply < 2 ^ 256 := hsound.books.supply_lt
      have hether := hsound.ether_le
      have hfunds := le_sum s.ether d.activePool
      have htotal := hsound.ether_lt
      refine ⟨rewardsComplete_of_snapshot ?_ (by omega) (by omega), fun _ => rfl, rfl⟩
      cases hsnapshot : s.troveManager.rewardSnapshots b with
      | mk ETH LUSDDebt =>
        rw [hsnapshot] at hETH hcurrent
        cases hETH
        cases hcurrent
        rfl

/-- After a liquidation with an empty Stability Pool both accumulators have moved. -/
theorem sampleRedistribution_applied : ∃ s s', Reachable sampleDeployment s ∧
    applyPendingRewardsInternal sampleDeployment 101 s = .ok s' ∧
    RewardsComplete 101 s'.troveManager ∧ RewardsNeutral 101 s.troveManager s'.troveManager := by
  obtain ⟨s, hs, hactive, hpending, happlied⟩ := exists_reachable (fun _ _ => True)
    (sampleOpenings ++ [⟨⟨101, 0, 0, 1800 * 10 ^ 18⟩, .liquidate 102⟩])
    (fun s => (s.troveManager.troves 101).status = .active ∧
      s.troveManager.hasPendingRewards 101 = true ∧
      (applyPendingRewardsInternal sampleDeployment 101 s).toOption.any (fun s' =>
        decide (s'.troveManager.hasPendingRewards 101 = false)) = true)
    (by decide +kernel)
  obtain ⟨s', hs', -⟩ := exists_ok happlied
  exact ⟨s, s', hs, hs', (applyPendingRewards_complete_iff sampleDeployment_wired hs hactive hs').mpr
    (.inl hpending)⟩

/-- The Stability Pool absorbs all but 10000 of a debt, and the collateral that is left over is too
little to move its accumulator.  Nothing seems pending then, so the debt stays pending. -/
theorem rewards_left_pending :
    ¬ ∀ (d : Deployment) (s s' : System) (b : Address), d.Wired → Reachable d s →
      (s.troveManager.troves b).status = .active → applyPendingRewardsInternal d b s = .ok s' →
      RewardsComplete b s'.troveManager ∧ RewardsNeutral b s.troveManager s'.troveManager := by
  intro hall
  obtain ⟨s, hs, hactive, hnone, hpending⟩ := exists_reachable (fun _ _ => True)
    (sampleOpenings ++ [⟨⟨101, 0, 0, 2000 * 10 ^ 18⟩, .provideToSP (10055 * 10 ^ 17 - 10000) 0⟩,
      ⟨⟨101, 0, 0, 1800 * 10 ^ 18⟩, .liquidate 102⟩])
    (fun s => (s.troveManager.troves 101).status = .active ∧
      s.troveManager.hasPendingRewards 101 = false ∧
      0 < okOr (s.troveManager.getPendingLUSDDebtReward 101) 0)
    (by decide +kernel)
  have hsame : applyPendingRewardsInternal sampleDeployment 101 s = .ok s := by
    rw [applyPendingRewardsInternal, hnone]
    rfl
  have hcomplete := (hall sampleDeployment s s 101 sampleDeployment_wired hs hactive hsame).1
  rw [hcomplete.pendingLUSDDebt] at hpending
  exact absurd hpending (Nat.lt_irrefl 0)

end Liquity
