import Liquity.Properties.Authority
import Liquity.Properties.DefaultPool

/-!
# Calls that only an overflow can stop

The payments between the pools, the pending rewards and the closing of a trove succeed where the books
balance and the pools hold what they record: every amount that is taken out of a contract is there.
Only the arithmetic on the way can fail, where a number does not fit its width.
-/

open Lib

namespace Liquity

open SafeMath TroveManager

variable {d : Deployment} {s s' : System} {ι : InFlight} {bad : Revert → Prop} {b : Address}
  {amount : Nat}

/-- A call that fails at most because a number does not fit its width. -/
abbrev OnlyOverflows {α : Type} (x : Tx α) : Prop := Avoids (fun e => ¬ IsOverflow e) x

theorem overflow_not_bad (e : Revert) (h : IsOverflow e) : ¬ ¬ IsOverflow e := not_not.mpr h

theorem onlyOverflows_add (m n : Nat) : OnlyOverflows (add m n) :=
  avoids_checkedAdd (overflow_not_bad _ (by decide))

theorem onlyOverflows_mul (m n : Nat) : OnlyOverflows (mul m n) :=
  avoids_checkedMul (overflow_not_bad _ (by decide))

theorem avoids_of_ok {α : Type} {x : Tx α} (h : ∃ a, x = .ok a) : Avoids bad x := by
  obtain ⟨a, rfl⟩ := h
  exact avoids_ok a

/-! ## Payments -/

theorem ActivePool.sendETH_of_receives {caller : Address} (hs : PoolsBacked d s)
    (hcaller : caller = d.borrowerOperations ∨ caller = d.troveManager ∨ caller = d.stabilityPool)
    (hle : amount ≤ s.activePool.ETH)
    (hreceives : ∃ s', System.receiveETH d d.activePool b amount
      { s with
        activePool := { s.activePool with ETH := s.activePool.ETH - amount }
        ether := move s.ether d.activePool b amount } = .ok s') :
    ∃ s', ActivePool.sendETH d caller b amount s = .ok s' := by
  have hether : amount ≤ s.ether d.activePool := hle.trans hs.active
  obtain ⟨s', hs'⟩ := hreceives
  simp only [ActivePool.sendETH, requireCallerIsBOorTroveMorSP, System.callValue, bind_ok, require_ok,
    sub_ok, orRevert_ok]
  exact ⟨s', (), hcaller, _, ⟨hle, rfl⟩, (), hether, hs'⟩

theorem ActivePool.sendETH_external_succeeds {caller : Address} (hs : PoolsBacked d s)
    (hcaller : caller = d.borrowerOperations ∨ caller = d.troveManager ∨ caller = d.stabilityPool)
    (hb : d.External b) (hle : amount ≤ s.activePool.ETH) :
    ∃ s', ActivePool.sendETH d caller b amount s = .ok s' := by
  apply sendETH_of_receives hs hcaller hle
  simp only [System.receiveETH, if_neg hb.ne_activePool, if_neg hb.ne_defaultPool,
    if_neg hb.ne_stabilityPool, if_neg hb.ne_collSurplusPool, if_neg hb.ne_lqtyStaking, bind_ok,
    require_ok, pure_ok]
  exact ⟨_, (), hb.2, rfl⟩

/-- What one account pays another fits with what the other holds. -/
theorem received_lt {f : Address → Nat} {a : Address} (hab : a ≠ b) (hle : amount ≤ f a)
    (hsum : ∑ x, f x < 2 ^ 128) {recorded : Nat} (hrecorded : recorded ≤ f b) :
    recorded + amount < 2 ^ 256 := by
  have htarget := le_sum (move f a b amount) b
  rw [move_target hab, sum_move hle] at htarget
  have hpow : (2 : Nat) ^ 128 < 2 ^ 256 := by decide
  omega

theorem DefaultPool.sendETHToActivePool_succeeds (hd : d.Wired) (hs : PoolsBacked d s)
    (hsum : ∑ x, s.ether x < 2 ^ 128) (hle : amount ≤ s.defaultPool.ETH) :
    ∃ s', DefaultPool.sendETHToActivePool d d.troveManager amount s = .ok s' := by
  have hether := hle.trans hs.default
  have hfits := received_lt hd.defaultPool_ne_activePool hether hsum hs.active
  simp only [DefaultPool.sendETHToActivePool, requireCallerIsTroveManager, System.callValue,
    System.receiveETH, if_true, System.onActivePool_ok, ActivePool.receive,
    ActivePool.requireCallerIsBorrowerOperationsOrDefaultPool, bind_ok, require_ok, sub_ok, orRevert_ok,
    pure_ok, add_ok]
  exact ⟨_, (), trivial, _, ⟨hle, rfl⟩, (), hether, _, ⟨(), .inr trivial, _, ⟨hfits, rfl⟩, rfl⟩, rfl⟩

/-! ## States in order -/

/-- At this point of a transaction the books balance, the pools hold what they record and the Default
Pool covers all pending rewards. -/
structure InOrder (d : Deployment) (s : System) (ι : InFlight) : Prop where
  sound : Sound d s ι
  pools : PoolsBacked d s
  rewards : (s.ledger ι).RewardsCovered

namespace InOrder

theorem supply (h : InOrder d s ι) :
    s.lusdToken.totalSupply = s.activePool.LUSDDebt + s.defaultPool.LUSDDebt ∧
      s.lusdToken.totalSupply < 2 ^ 256 :=
  ⟨h.sound.books.supply, h.sound.books.supply_lt⟩

theorem snapshot_le (h : InOrder d s ι) (x : Address) :
    (s.troveManager.rewardSnapshots x).ETH ≤ s.troveManager.L_ETH ∧
      (s.troveManager.rewardSnapshots x).LUSDDebt ≤ s.troveManager.L_LUSDDebt :=
  ⟨h.rewards.ETH.snapshot_le x, h.rewards.LUSDDebt.snapshot_le x⟩

theorem pending_le (h : InOrder d s ι) (x : Address) :
    s.troveManager.pendingETH x ≤ s.defaultPool.ETH ∧
      s.troveManager.pendingLUSDDebt x ≤ s.defaultPool.LUSDDebt := by
  constructor
  · exact (le_sum (fun x => s.troveManager.pendingETH x) x).trans
      (h.rewards.ETH.sum_share_le (by decide))
  · exact (le_sum (fun x => s.troveManager.pendingLUSDDebt x) x).trans
      (h.rewards.LUSDDebt.sum_share_le (by decide))

end InOrder

/-- In every such run the states between transactions are in order. -/
theorem reachable_inOrder (hd : d.Wired) (h : ReachableWhen d RestakesSettled s) :
    InOrder d s .none where
  sound := h.reachable.sound hd
  pools := reachable_poolsBacked hd h.reachable
  rewards := reachable_rewardsCovered hd h

/-! ## Reading a trove -/

section Reading

variable (hoverflow : ∀ e, IsOverflow e → ¬ bad e)

include hoverflow

theorem avoids_add (m n : Nat) : Avoids bad (add m n) := avoids_checkedAdd (hoverflow _ (by decide))

theorem avoids_mul (m n : Nat) : Avoids bad (mul m n) := avoids_checkedMul (hoverflow _ (by decide))

theorem avoids_computeCR (coll debt price : Nat) : Avoids bad (LiquityMath.computeCR coll debt price) := by
  unfold LiquityMath.computeCR
  split
  next hdebt => exact (avoids_mul hoverflow _ _).bind fun _ _ => avoids_checkedDiv hdebt
  next => exact avoids_ok _

theorem avoids_pendingReward {accumulator snapshot : Nat} (trove : Trove) (hle : snapshot ≤ accumulator) :
    Avoids bad (pendingReward accumulator snapshot trove) := by
  unfold pendingReward
  refine (avoids_checkedSub hle).bind fun perUnit _ => ?_
  split
  · exact avoids_ok 0
  · exact (avoids_mul hoverflow _ _).bind fun _ _ => avoids_checkedDiv (by decide)

end Reading

/-! ## Moving rewards and closing troves -/

theorem movePendingTroveRewardsToActivePool_succeeds (hd : d.Wired) (hs : PoolsBacked d s)
    (hsum : ∑ x, s.ether x < 2 ^ 128) {LUSD ETH : Nat} (hLUSD : LUSD ≤ s.defaultPool.LUSDDebt)
    (hETH : ETH ≤ s.defaultPool.ETH) (hfits : s.activePool.LUSDDebt + LUSD < 2 ^ 256) :
    ∃ s', movePendingTroveRewardsToActivePool d LUSD ETH s = .ok s' := by
  have hpools : PoolsBacked d { s with
      defaultPool := { s.defaultPool with LUSDDebt := s.defaultPool.LUSDDebt - LUSD }
      activePool := { s.activePool with LUSDDebt := s.activePool.LUSDDebt + LUSD } } :=
    ⟨hs.1, hs.2, hs.3, hs.4⟩
  obtain ⟨s', hs'⟩ := DefaultPool.sendETHToActivePool_succeeds hd hpools hsum hETH
  simp only [movePendingTroveRewardsToActivePool, bind_ok, System.onDefaultPool_ok,
    System.onActivePool_ok, DefaultPool.decreaseLUSDDebt, DefaultPool.requireCallerIsTroveManager,
    ActivePool.increaseLUSDDebt, ActivePool.requireCallerIsBOorTroveM, require_ok, sub_ok, add_ok, pure_ok]
  exact ⟨s', _, ⟨_, ⟨(), trivial, _, ⟨hLUSD, rfl⟩, rfl⟩, rfl⟩, _,
    ⟨_, ⟨(), .inr trivial, _, ⟨hfits, rfl⟩, rfl⟩, rfl⟩, hs'⟩

/-- The debt of a trove's rewards fits into the Active Pool, because the debt of both pools does. -/
theorem InOrder.pending_fits (hs : InOrder d s ι) (x : Address) :
    s.activePool.LUSDDebt + s.troveManager.pendingLUSDDebt x < 2 ^ 256 := by
  obtain ⟨hsupply, hlt⟩ := hs.supply
  obtain ⟨-, hle⟩ := hs.pending_le x
  omega

theorem applyPendingRewardsInternal_avoids (hoverflow : ∀ e, IsOverflow e → ¬ bad e) (hd : d.Wired)
    (hs : InOrder d s ι) (hactive : (s.troveManager.troves b).status = .active) :
    Avoids bad (applyPendingRewardsInternal d b s) := by
  obtain ⟨hETH, hdebt⟩ := hs.snapshot_le b
  unfold applyPendingRewardsInternal applyRewards
  split
  next =>
    refine (avoids_of_ok ⟨(), require_ok.mpr hactive⟩).bind fun _ _ => ?_
    refine (avoids_pendingReward hoverflow _ hETH).bind fun pe hpe => ?_
    refine (avoids_pendingReward hoverflow _ hdebt).bind fun pd hpd => ?_
    refine (avoids_add hoverflow _ _).bind fun coll _ => (avoids_add hoverflow _ _).bind fun debt _ => ?_
    obtain ⟨-, rfl⟩ := getPendingETHReward_ok hactive hpe
    obtain ⟨-, rfl⟩ := getPendingLUSDDebtReward_ok hactive hpd
    obtain ⟨hpendingETH, hpendingDebt⟩ := hs.pending_le b
    -- writing the trove leaves the pools as they are
    dsimp only
    apply avoids_of_ok
    apply movePendingTroveRewardsToActivePool_succeeds hd
    · exact ⟨hs.pools.1, hs.pools.2, hs.pools.3, hs.pools.4⟩
    · exact hs.sound.ether_lt
    · exact hpendingDebt
    · exact hpendingETH
    · exact hs.pending_fits b
  next => exact avoids_ok s

/-- The list holds every open trove, so it has as many nodes as the array has owners. -/
theorem getSize_eq (hs : Sound d s ι) : s.sortedTroves.getSize = s.troveManager.troveOwners.length := by
  rw [hs.registered.length_owners]
  exact hs.list.size_eq

theorem SortedTroves.remove_succeeds {l : SortedTroves} {ids : List Address} (h : l.IsList ids)
    (hb : b ∈ ids) : ∃ l', SortedTroves.remove d d.troveManager b l = .ok l' := by
  have hpos : 1 ≤ l.size := by
    rw [h.size_eq]
    exact List.length_pos_of_mem hb
  have hsize : 1 ≤ (SortedTroves.deleteNode b (SortedTroves.unlink b l)).size := by
    show 1 ≤ (SortedTroves.unlink b l).size
    rw [SortedTroves.unlink_size]
    exact hpos
  simp only [SortedTroves.remove, SortedTroves.requireCallerIsTroveManager, SortedTroves.removeInternal,
    bind_ok, require_ok, sub_ok, pure_ok]
  exact ⟨_, (), trivial, (), h.present b hb, _, ⟨hsize, rfl⟩, rfl⟩

theorem removeTroveOwner_succeeds {t : TroveManager}
    (hstatus : (t.troves b).status ≠ .nonExistent ∧ (t.troves b).status ≠ .active)
    (hindex : (t.troves b).arrayIndex < t.troveOwners.length) :
    ∃ t', removeTroveOwner b t.troveOwners.length t = .ok t' := by
  simp only [removeTroveOwner, bind_ok, assertThat_ok, pure_ok, sub_ok]
  refine ⟨_, (), hstatus, _, ⟨?_, rfl⟩, (), ?_, (), ?_, rfl⟩
  all_goals omega

/-- An open trove that is not the only one can be closed. -/
theorem removeStake_closeTrove_succeeds (hs : Sound d s ι) {status : Status}
    (hstatus : status ≠ .nonExistent ∧ status ≠ .active)
    (hactive : (s.troveManager.troves b).status = .active)
    (hmore : 1 < s.troveManager.troveOwners.length) :
    ∃ t s', removeStakeInternal b s.troveManager = .ok t ∧
      closeTroveInternal d b status { s with troveManager := t } = .ok s' := by
  have howner := (hs.registered.mem_owners b).mpr hactive
  have hindex := (List.getElem?_eq_some_iff.mp (hs.registered.index b howner)).1
  have hnode := (hs.registered.mem_order b).mpr hactive
  have hsize := getSize_eq hs
  obtain ⟨l, hl⟩ := SortedTroves.remove_succeeds (d := d) hs.list hnode
  obtain ⟨t, ht⟩ : ∃ t, removeStakeInternal b s.troveManager = .ok t := by
    simp only [removeStakeInternal, bind_ok, sub_ok, pure_ok]
    exact ⟨_, _, ⟨hs.registered.stake_le b, rfl⟩, rfl⟩
  -- the stake has no part in what follows
  obtain ⟨howners, htrove⟩ : t.troveOwners = s.troveManager.troveOwners ∧
      (t.troves b).arrayIndex = (s.troveManager.troves b).arrayIndex := by
    simp only [removeStakeInternal, bind_ok, sub_ok, pure_ok] at ht
    obtain ⟨_, -, rfl⟩ := ht
    exact ⟨rfl, by simp [setTrove]⟩
  rw [← howners] at hindex hmore hsize
  rw [← htrove] at hindex
  have hclosed : ∃ t', removeTroveOwner b t.troveOwners.length
      { t.setTrove b { t.troves b with status, coll := 0, debt := 0 } with
        rewardSnapshots := Function.update t.rewardSnapshots b ⟨0, 0⟩ } = .ok t' := by
    apply removeTroveOwner_succeeds
    · show (Function.update t.troves b _ b).status ≠ _ ∧ (Function.update t.troves b _ b).status ≠ _
      rw [Function.update_self]
      exact hstatus
    · show (Function.update t.troves b _ b).arrayIndex < _
      rw [Function.update_self]
      exact hindex
  obtain ⟨t', ht'⟩ := hclosed
  refine ⟨t, { s with troveManager := t', sortedTroves := l }, ht, ?_⟩
  simp only [closeTroveInternal, requireMoreThanOneTroveInSystem, bind_ok, assertThat_ok, require_ok,
    System.onSortedTroves_ok]
  exact ⟨(), hstatus, (), ⟨hmore, by omega⟩, t', ht', l, hl, rfl⟩

end Liquity
