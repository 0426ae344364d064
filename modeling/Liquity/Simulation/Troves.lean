import Liquity.Simulation.Basic

/-!
# Simulation: rewards and closures

Applying pending rewards and taking a trove off the books, which borrower operations, liquidations
and redemptions share.
-/

open Lib

namespace Liquity

open SafeMath TroveManager

variable {d : Deployment} {s s' : System} {ι : InFlight} {allow : Ledger → Label → Prop}
  {b : Address}

/-! ## The list -/

namespace SortedTroves

variable {l l' : SortedTroves} {caller prevId nextId : Address} {NICR : Nat}
  {getNominalICR : Address → Tx Nat}

theorem remove_toList (h : IsList l l.toList) (hrem : remove d caller b l = .ok l') :
    IsList l' l'.toList ∧ l'.toList = l.toList.erase b := by
  obtain ⟨-, -, hrem⟩ := bind_ok.mp hrem
  obtain ⟨u, v, huv, h'⟩ := h.removeInternal hrem
  rw [huv] at h
  rw [h'.toList_eq, huv, erase_middle h.notMem_of_middle]
  exact ⟨h', rfl⟩

theorem remove_middle {u v : List Address} (h : IsList l l.toList) (huv : l.toList = u ++ b :: v)
    (hrem : remove d caller b l = .ok l') : l'.toList = u ++ v := by
  rw [(remove_toList h hrem).2, huv]
  rw [huv] at h
  exact erase_middle h.notMem_of_middle

theorem insert_toList (h : IsList l l.toList)
    (hins : insert getNominalICR d caller b NICR prevId nextId l = .ok l') :
    IsList l' l'.toList ∧ b ≠ 0 ∧ b ∉ l.toList ∧ 0 < NICR ∧
      ∃ u v, l.toList = u ++ v ∧ l'.toList = u ++ b :: v ∧ Fits getNominalICR NICR u v := by
  obtain ⟨-, -, hins⟩ := bind_ok.mp hins
  obtain ⟨hb, hpos, u, v, huv, h', hfits⟩ := h.insertInternal hins
  rw [h'.toList_eq]
  exact ⟨h', h'.ne_zero (by simp), hb, hpos, u, v, huv, rfl, hfits⟩

theorem reInsert_toList (h : IsList l l.toList)
    (hre : reInsert getNominalICR d caller b NICR prevId nextId l = .ok l') :
    IsList l' l'.toList ∧ b ∈ l.toList ∧ 0 < NICR ∧
      ∃ u v, l.toList.erase b = u ++ v ∧ l'.toList = u ++ b :: v ∧
        Fits getNominalICR NICR u v := by
  obtain ⟨hb, hpos, u, v, huv, h', hfits⟩ := h.reInsert hre
  rw [h'.toList_eq]
  exact ⟨h', hb, hpos, u, v, huv, rfl, hfits⟩

/-- A gap only depends on the ratios of the troves around it. -/
theorem Fits.congr {g g' : Address → Tx Nat} {u v : List Address} (h : Fits g NICR u v)
    (hg : ∀ x ∈ u ++ v, g' x = g x) : Fits g' NICR u v := by
  refine ⟨fun y hy => ?_, fun y hy => ?_⟩
  · rw [hg y (by simp [List.mem_of_getLast? hy])]
    exact h.1 y hy
  · rw [hg y (by simp [List.mem_of_head? hy])]
    exact h.2 y hy

end SortedTroves

/-! ## Pending rewards -/

/-- A trove is as it was: its amounts, its stake and its reward snapshots. -/
structure SameTrove (t₀ t : TroveManager) (x : Address) : Prop where
  coll : (t.troves x).coll = (t₀.troves x).coll
  debt : (t.troves x).debt = (t₀.troves x).debt
  stake : (t.troves x).stake = (t₀.troves x).stake
  snapshot : t.rewardSnapshots x = t₀.rewardSnapshots x

/-- The accumulators and the system snapshots did not move, and every open trove was open before and
is as it was, or as it was with its pending rewards applied. -/
structure RewardsKept (t₀ t : TroveManager) : Prop where
  L_ETH : t.L_ETH = t₀.L_ETH
  L_LUSDDebt : t.L_LUSDDebt = t₀.L_LUSDDebt
  totalStakesSnapshot : t.totalStakesSnapshot = t₀.totalStakesSnapshot
  totalCollateralSnapshot : t.totalCollateralSnapshot = t₀.totalCollateralSnapshot
  trove : ∀ x, (t.troves x).status = .active → (t₀.troves x).status = .active ∧
    (SameTrove t₀ t x ∨ (t₀.hasPendingRewards x = true ∧ SameTrove (t₀.applied x) t x))

namespace TroveManager

/-- A trove's collateral once its pending rewards are applied. -/
def settledColl (t : TroveManager) (x : Address) : Nat :=
  (t.troves x).coll + if t.hasPendingRewards x then t.pendingETH x else 0

/-- A trove's debt once its pending rewards are applied. -/
def settledDebt (t : TroveManager) (x : Address) : Nat :=
  (t.troves x).debt + if t.hasPendingRewards x then t.pendingLUSDDebt x else 0

end TroveManager

theorem SameTrove.refl (t : TroveManager) (x : Address) : SameTrove t t x := ⟨rfl, rfl, rfl, rfl⟩

theorem SameTrove.trans {t₀ t₁ t₂ : TroveManager} {x : Address} (h : SameTrove t₀ t₁ x)
    (h' : SameTrove t₁ t₂ x) : SameTrove t₀ t₂ x :=
  ⟨h'.coll.trans h.coll, h'.debt.trans h.debt, h'.stake.trans h.stake, h'.snapshot.trans h.snapshot⟩

theorem applied_of_ne {t : TroveManager} {x : Address} (hx : x ≠ b) :
    (t.applied b).troves x = t.troves x ∧
      (t.applied b).rewardSnapshots x = t.rewardSnapshots x := by
  simp [applied, Function.update_of_ne hx]

/-- A trove after another one was closed. -/
theorem sameTrove_unregister {t : TroveManager} {x : Address} {status : Status} (hx : x ≠ b) :
    SameTrove t (t.unregister b status) x ∧
      ((t.unregister b status).troves x).status = (t.troves x).status := by
  have hsnapshot : (t.unregister b status).rewardSnapshots x = t.rewardSnapshots x := by
    simp [unregister, Function.update_of_ne hx]
  -- the swap in the array of owners can change the index of the trove, nothing else
  refine ⟨⟨?_, ?_, ?_, hsnapshot⟩, ?_⟩ <;>
  · rw [unregister_troves_of_ne hx]
    split <;> rfl

/-- Applying rewards to a trove that is as it was. -/
theorem SameTrove.applied {t₀ t : TroveManager} {x : Address} (h : SameTrove t₀ t x)
    (hE : t.L_ETH = t₀.L_ETH) (hD : t.L_LUSDDebt = t₀.L_LUSDDebt) :
    SameTrove (t₀.applied x) (t.applied x) x := by
  obtain ⟨hcoll, hdebt, hstake, hsnapshot⟩ := h
  constructor <;>
    simp [TroveManager.applied, pendingETH, pendingLUSDDebt, hcoll, hdebt, hstake, hsnapshot, hE, hD]

namespace RewardsKept

variable {t₀ t : TroveManager}

theorem refl (t : TroveManager) : RewardsKept t t :=
  ⟨rfl, rfl, rfl, rfl, fun x hx => ⟨hx, .inl (.refl t x)⟩⟩

/-- Applied rewards leave nothing pending. -/
theorem snapshot (h : RewardsKept t₀ t) {x : Address} (hx : (t.troves x).status = .active) :
    t.rewardSnapshots x = t₀.rewardSnapshots x ∨
      t.rewardSnapshots x = ⟨t₀.L_ETH, t₀.L_LUSDDebt⟩ := by
  rcases (h.trove x hx).2 with hsame | ⟨-, happlied⟩
  · exact .inl hsame.snapshot
  · right
    rw [happlied.snapshot]
    simp [TroveManager.applied]

/-- A trove without pending rewards holds what it had with its rewards applied. -/
theorem settled (h : RewardsKept t₀ t) {x : Address} (hx : (t.troves x).status = .active)
    (hsettled : t.L_ETH ≤ (t.rewardSnapshots x).ETH) :
    (t.troves x).coll = t₀.settledColl x ∧ (t.troves x).debt = t₀.settledDebt x := by
  obtain ⟨hactive, hsame | ⟨hpending, happlied⟩⟩ := h.trove x hx
  · have hnot : t₀.hasPendingRewards x = false := by
      rw [hsame.snapshot, h.L_ETH] at hsettled
      simpa [hasPendingRewards, hactive] using hsettled
    simp [settledColl, settledDebt, hnot, hsame.coll, hsame.debt]
  · simp [settledColl, settledDebt, hpending, happlied.coll, happlied.debt, TroveManager.applied]

theorem applied (h : RewardsKept t₀ t) {b : Address} (hb : t.hasPendingRewards b = true) :
    RewardsKept t₀ (t.applied b) where
  L_ETH := h.L_ETH
  L_LUSDDebt := h.L_LUSDDebt
  totalStakesSnapshot := h.totalStakesSnapshot
  totalCollateralSnapshot := h.totalCollateralSnapshot
  trove x hx := by
    by_cases hxb : x = b
    · subst hxb
      have hx : (t.troves x).status = .active := by simpa [TroveManager.applied] using hx
      obtain ⟨hactive, hcases⟩ := h.trove x hx
      refine ⟨hactive, .inr ?_⟩
      have hlt : (t.rewardSnapshots x).ETH < t.L_ETH := by simpa [hasPendingRewards, hx] using hb
      rcases hcases with hsame | ⟨-, happlied⟩
      · refine ⟨?_, hsame.applied h.L_ETH h.L_LUSDDebt⟩
        rw [hsame.snapshot, h.L_ETH] at hlt
        simpa [hasPendingRewards, hactive] using hlt
      · -- rewards that were applied before are not pending
        have hsnap := congrArg RewardSnapshot.ETH happlied.snapshot
        have hcurrent : ((t₀.applied x).rewardSnapshots x).ETH = t₀.L_ETH := by
          simp [TroveManager.applied]
        have hE := h.L_ETH
        omega
    · obtain ⟨htrove, hsnapshot⟩ := applied_of_ne (t := t) hxb
      rw [htrove] at hx
      obtain ⟨hactive, hcases⟩ := h.trove x hx
      have hkept : SameTrove t (t.applied b) x := ⟨by rw [htrove], by rw [htrove], by rw [htrove], hsnapshot⟩
      exact ⟨hactive, hcases.imp (·.trans hkept) fun h' => ⟨h'.1, h'.2.trans hkept⟩⟩

theorem books (h : RewardsKept t₀ t) : RewardsKept t₀ t.books :=
  ⟨h.L_ETH, h.L_LUSDDebt, h.totalStakesSnapshot, h.totalCollateralSnapshot, fun x hx =>
    ⟨(h.trove x hx).1, (h.trove x hx).2.imp (fun h' => ⟨h'.coll, h'.debt, h'.stake, h'.snapshot⟩)
      fun h' => ⟨h'.1, h'.2.coll, h'.2.debt, h'.2.stake, h'.2.snapshot⟩⟩⟩

theorem unregister (h : RewardsKept t₀ t) (b : Address) {status : Status}
    (hstatus : status ≠ .active) : RewardsKept t₀ (t.unregister b status) where
  L_ETH := h.L_ETH
  L_LUSDDebt := h.L_LUSDDebt
  totalStakesSnapshot := h.totalStakesSnapshot
  totalCollateralSnapshot := h.totalCollateralSnapshot
  trove x hx := by
    obtain ⟨hkept, hsame⟩ := sameTrove_unregister (t := t) (ne_of_active_unregister hstatus hx)
    rw [hsame] at hx
    obtain ⟨hactive, hcases⟩ := h.trove x hx
    exact ⟨hactive, hcases.imp (·.trans hkept) fun h' => ⟨h'.1, h'.2.trans hkept⟩⟩

end RewardsKept

theorem movePendingTroveRewardsToActivePool_ok (hd : d.Wired) {LUSD ETH : Nat}
    (h : movePendingTroveRewardsToActivePool d LUSD ETH s = .ok s') :
    LUSD ≤ s.defaultPool.LUSDDebt ∧ ETH ≤ s.defaultPool.ETH ∧ EtherKept d s s' ∧
      ∃ ether, s' = { s with
        defaultPool := ⟨s.defaultPool.ETH - ETH, s.defaultPool.LUSDDebt - LUSD⟩
        activePool := ⟨s.activePool.ETH + ETH, s.activePool.LUSDDebt + LUSD⟩, ether } := by
  simp only [movePendingTroveRewardsToActivePool, bind_ok, System.onDefaultPool_ok,
    System.onActivePool_ok] at h
  obtain ⟨_, ⟨p, hp, rfl⟩, _, ⟨q, hq, rfl⟩, h⟩ := h
  obtain ⟨hLUSD, rfl⟩ := DefaultPool.decreaseLUSDDebt_ok hp
  obtain rfl := ActivePool.increaseLUSDDebt_ok hq
  obtain ⟨hETH, hkept, ether, rfl⟩ := DefaultPool.sendETHToActivePool_ok hd h
  exact ⟨hLUSD, hETH, ⟨hkept.sum_eq, hkept.activePool_eq⟩, ether, rfl⟩

/-- What a call that applies pending rewards leaves behind. -/
structure RewardsApplied (b : Address) (s s' : System) : Prop where
  lusdToken : s'.lusdToken = s.lusdToken
  stabilityPool : s'.stabilityPool = s.stabilityPool
  sortedTroves : s'.sortedTroves = s.sortedTroves
  pools : s'.activePool.ETH + s'.defaultPool.ETH = s.activePool.ETH + s.defaultPool.ETH ∧
    s'.activePool.LUSDDebt + s'.defaultPool.LUSDDebt =
      s.activePool.LUSDDebt + s.defaultPool.LUSDDebt
  troveManager : s'.troveManager = s.troveManager ∨
    (s.troveManager.hasPendingRewards b = true ∧ s'.troveManager = s.troveManager.applied b)
  settled : (s'.troveManager.troves b).status = .active →
    s'.troveManager.L_ETH ≤ (s'.troveManager.rewardSnapshots b).ETH

namespace RewardsApplied

theorem status (h : RewardsApplied b s s') (x : Address) :
    (s'.troveManager.troves x).status = (s.troveManager.troves x).status := by
  rcases h.troveManager with ht | ⟨-, ht⟩
  · rw [ht]
  · rw [ht]
    by_cases hx : x = b
    · subst hx
      simp [applied]
    · simp [applied, Function.update_of_ne hx]

theorem rewardsKept {t₀ : TroveManager} (h : RewardsApplied b s s')
    (hk : RewardsKept t₀ s.troveManager) : RewardsKept t₀ s'.troveManager := by
  rcases h.troveManager with ht | ⟨hpending, ht⟩
  · rw [ht]
    exact hk
  · rw [ht]
    exact hk.applied hpending

end RewardsApplied

theorem applyPendingRewardsInternal_evolves (hd : d.Wired) (hs : Sound d s ι)
    (hplain : ∀ L, allow L .plain) (h : applyPendingRewardsInternal d b s = .ok s') :
    Evolves d allow s ι s' ι ∧ RewardsApplied b s s' := by
  unfold applyPendingRewardsInternal at h
  split at h
  -- the source tests the status before it compares the snapshots
  next hpending =>
    have hpending' := hpending
    simp only [hasPendingRewards] at hpending
    split at hpending
    next => simp at hpending
    next hactive =>
      have hactive : (s.troveManager.troves b).status = .active := not_not.mp hactive
      have hlt : (s.troveManager.rewardSnapshots b).ETH < s.troveManager.L_ETH := by
        simpa using hpending
      simp only [applyRewards, bind_ok, add_ok] at h
      obtain ⟨-, -, pe, hpe, pd, hpd, x, ⟨-, rfl⟩, y, ⟨-, rfl⟩, h⟩ := h
      obtain ⟨hsnapE, rfl⟩ := getPendingETHReward_ok hactive hpe
      obtain ⟨hsnapD, rfl⟩ := getPendingLUSDDebtReward_ok hactive hpd
      obtain ⟨hLUSD, hETH, hkept, ether, rfl⟩ := movePendingTroveRewardsToActivePool_ok hd h
      refine ⟨.move (.applyRewards hactive hlt hsnapD hETH hLUSD) (hplain _) hs.list
        ⟨hkept.sum_eq, hkept.activePool_eq⟩, rfl, rfl, rfl, ?_, .inr ⟨hpending', rfl⟩, fun _ => ?_⟩
      · dsimp only at hLUSD hETH ⊢
        omega
      · simp [updateTroveRewardSnapshotsInternal, setTrove]
  next hpending =>
    cases h
    refine ⟨.refl hs, rfl, rfl, rfl, ⟨rfl, rfl⟩, .inl rfl, fun hactive => ?_⟩
    simpa [hasPendingRewards, hactive] using hpending

/-! ## Closing a trove -/

/-- Removing the stake and closing the trove takes it off the books and off the list. -/
theorem removeStake_closeTrove_ok {t : TroveManager} {status : Status}
    (hstake : removeStakeInternal b s.troveManager = .ok t)
    (h : closeTroveInternal d b status { s with troveManager := t } = .ok s') :
    status ≠ .active ∧ 1 < s.troveManager.troveOwners.length ∧
      ∃ l, SortedTroves.remove d d.troveManager b s.sortedTroves = .ok l ∧
        s' = { s with
          troveManager := s.troveManager.unregister b status, sortedTroves := l } := by
  simp only [removeStakeInternal, bind_ok, pure_ok, sub_ok] at hstake
  obtain ⟨_, ⟨-, rfl⟩, rfl⟩ := hstake
  simp only [closeTroveInternal, removeTroveOwner, requireMoreThanOneTroveInSystem, bind_ok,
    assertThat_ok, require_ok, pure_ok, sub_ok, System.onSortedTroves_ok] at h
  obtain ⟨-, hstatus, -, hmore, t', ⟨-, -, _, ⟨-, rfl⟩, -, -, -, -, rfl⟩, l, hl, rfl⟩ := h
  refine ⟨hstatus.2, hmore.1, l, hl, ?_⟩
  -- the writes of the two calls together are those of `unregister`
  simp [setTrove, unregister, swapRemove, List.getLast?_eq_getElem?]

end Liquity
