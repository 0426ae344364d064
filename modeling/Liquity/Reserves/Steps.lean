import Liquity.Reserves
import Liquity.Soundness

/-!
# Every transaction keeps the staking contract solvent and the surpluses backed

The entry points one by one, and from them the invariants of all reachable states.
-/

open Lib

namespace Liquity

open SafeMath LiquityMath

variable {d : Deployment} {s s' : System} {c : Prop} {n : Nat} {b : Address} {amount : Nat}

section Wired

variable (hd : d.Wired)

include hd

/-! ## `BorrowerOperations` -/

namespace BorrowerOperations

theorem activePoolAddColl_frame (h : activePoolAddColl d amount s = .ok s') : Frame d s s' :=
  callValue_frame (hd.get_ne (show (11 : Fin 13) ≠ 0 by decide))
    (hd.get_ne (show (6 : Fin 13) ≠ 0 by decide)) hd.stabilityPool_ne_activePool.symm
    hd.collSurplusPool_ne_activePool.symm (orRevert_ok.mp h)

omit hd in
theorem withdrawLUSDInternal_frame {net : Nat} (h : withdrawLUSDInternal d b amount net s = .ok s') :
    Frame d s s' := by
  obtain ⟨s₁, h₁, h⟩ := bind_ok.mp h
  exact (Frame.onActivePool h₁).trans (mint_frame h)

omit hd in
theorem repayLUSDInternal_frame (hb : d.lqtyStaking ≠ b)
    (h : repayLUSDInternal d b amount s = .ok s') : Frame d s s' := by
  obtain ⟨s₁, h₁, h⟩ := bind_ok.mp h
  exact (Frame.onActivePool h₁).trans (burn_frame hb h)

omit hd in
theorem createTrove_frame {coll debt NICR : Nat} {upper lower : Address}
    (h : createTrove d b coll debt NICR upper lower s = .ok s') : Frame d s s' := by
  simp only [createTrove, bind_ok] at h
  obtain ⟨s₁, h₁, s₂, h₂, s₃, h₃, s₄, h₄, s₅, h₅, s₆, h₆, h⟩ := h
  have hfields := ((Frame.onTroveManager (d := d) h₁).trans (.onTroveManager h₂)).trans
    (.onTroveManager h₃)
  have hstake := (hfields.trans (.onTroveManager h₄)).trans (.onTroveManager h₅)
  exact (hstake.trans (.onSortedTroves h₆)).trans (.onTroveManager h)

theorem openTrove_footprint {env : Env} {maxFee : Nat} {upper lower : Address}
    (hc : s.checkRecoveryMode env.price = .ok false → c)
    (h : openTrove d env maxFee amount upper lower s = .ok s') : Footprint d c n n s s' := by
  simp only [openTrove, bind_ok] at h
  obtain ⟨recovery, hmode, -, -, -, -, fee, hfee, _, -, -, -, _, -, -, -, _, -, _, -, -, -, s₁, h₁, s₂,
    h₂, s₃, h₃, h⟩ := h
  have hcharged : Footprint d c n n s fee.2 := by
    unfold openTroveFee at hfee
    split at hfee
    next hnormal => exact triggerBorrowingFee_footprint (hc (hnormal ▸ hmode)) hfee
    next =>
      cases hfee
      exact .refl s
  have hopened := (createTrove_frame h₁).trans (activePoolAddColl_frame hd h₂)
  have hminted := (withdrawLUSDInternal_frame h₃).trans (withdrawLUSDInternal_frame h)
  exact hcharged.trans (hopened.trans hminted).footprint

omit hd in
theorem updateTroveFromAdjustment_frame {collChange debtChange : Nat} {collInc debtInc : Bool}
    (h : updateTroveFromAdjustment d b collChange collInc debtChange debtInc s = .ok s') :
    Frame d s s' := by
  obtain ⟨s₁, h₁, h⟩ := bind_ok.mp h
  have hcoll : Frame d s s₁ := by
    unfold changeTroveColl at h₁
    split at h₁
    · exact .onTroveManager h₁
    · exact .onTroveManager h₁
  unfold changeTroveDebt at h
  split at h
  · exact hcoll.trans (.onTroveManager h)
  · exact hcoll.trans (.onTroveManager h)

/-- Ether leaves the Active Pool for the sender only where the sender's collateral does not grow. -/
theorem performAdjustment_frame {a : Adjustment} {vars : AdjustmentVars}
    (hstaking : d.lqtyStaking ≠ b)
    (hpaid : vars.isCollIncrease = false → b ≠ d.stabilityPool ∧ b ≠ d.collSurplusPool)
    (h : performAdjustment d b a vars s = .ok s') : Frame d s s' := by
  simp only [performAdjustment, moveTokensAndETHfromAdjustment, bind_ok] at h
  obtain ⟨s₁, h₁, s₂, h₂, _, -, s₃, h₃, s₄, h₄, h⟩ := h
  have hwritten := ((updateTroveFromAdjustment_frame h₁).trans (.onTroveManager h₂)).trans
    (.onSortedTroves h₃)
  have htokens : Frame d s₃ s₄ := by
    unfold moveTokensFromAdjustment at h₄
    split at h₄
    · exact withdrawLUSDInternal_frame h₄
    · exact repayLUSDInternal_frame hstaking h₄
  unfold moveETHFromAdjustment at h
  split at h
  · exact (hwritten.trans htokens).trans (activePoolAddColl_frame hd h)
  next hdecrease =>
    obtain ⟨hpool, hsurplus⟩ := hpaid (Bool.eq_false_iff.mpr hdecrease)
    exact (hwritten.trans htokens).trans (sendETH_frame hd hpool hsurplus h)

/-- The caller is the borrower, or the Stability Pool with ether. -/
theorem adjustTroveInternal_footprint {env : Env} {a : Adjustment} (hb : d.External a.borrower)
    (hc : a.isDebtIncrease = true → s.checkRecoveryMode env.price = .ok false → c)
    (h : adjustTroveInternal d env a s = .ok s') : Footprint d c n n s s' := by
  simp only [adjustTroveInternal, bind_ok] at h
  obtain ⟨recovery, hmode, _, hvalid, s₁, h₁, fee, hfee, vars, hvars, -, -, -, -, h⟩ := h
  simp only [requireValidAdjustment, bind_ok, assertThat_ok] at hvalid
  obtain ⟨-, -, -, -, -, -, -, -, hsender⟩ := hvalid
  have hcharged : Footprint d c n n s₁ fee.2 := by
    unfold adjustmentFee at hfee
    split at hfee
    next hincrease =>
      exact triggerBorrowingFee_footprint (hc hincrease.1 (hincrease.2 ▸ hmode)) hfee
    next =>
      cases hfee
      exact .refl s₁
  have happlied := (TroveManager.applyPendingRewards_frame hd h₁).footprint.trans hcharged
  refine happlied.trans (performAdjustment_frame hd ?_ ?_ h).footprint
  · rcases hsender with heq | ⟨heq, -, -⟩
    · rw [heq]
      exact hb.ne_lqtyStaking.symm
    · rw [heq]
      exact hd.lqtyStaking_ne_stabilityPool
  · intro hdecrease
    rcases hsender with heq | ⟨-, hvalue, -⟩
    · rw [heq]
      exact ⟨hb.ne_stabilityPool, hb.ne_collSurplusPool⟩
    · simp only [adjustmentVars, bind_ok, pure_ok] at hvars
      obtain ⟨_, -, _, -, _, -, -, -, rfl⟩ := hvars
      simp only [getCollChange, if_pos (Nat.pos_iff_ne_zero.mp hvalue)] at hdecrease
      cases hdecrease

theorem closeTrove_frame {env : Env} (hb : d.External env.sender)
    (h : closeTrove d env s = .ok s') : Frame d s s' := by
  simp only [closeTrove, bind_ok] at h
  obtain ⟨-, -, -, -, s₁, h₁, _, -, -, -, _, -, -, -, s₂, h₂, s₃, h₃, s₄, h₄, s₅, h₅, h⟩ := h
  have hclosed := ((TroveManager.applyPendingRewards_frame hd h₁).trans (.onTroveManager h₂)).trans
    (TroveManager.closeTrove_frame h₃)
  have hrepaid := (repayLUSDInternal_frame hb.ne_lqtyStaking.symm h₄).trans
    (repayLUSDInternal_frame hd.lqtyStaking_ne_gasPool h₅)
  exact (hclosed.trans hrepaid).trans
    (sendETH_frame hd hb.ne_stabilityPool hb.ne_collSurplusPool h)

end BorrowerOperations

omit hd in
/-- A claim takes the whole balance, in the record and in ether. -/
theorem CollSurplusPool.claimColl_ok {caller : Address} (hb : d.External b)
    (h : CollSurplusPool.claimColl d caller b s = .ok s') :
    s.collSurplusPool.balances b ≤ s.collSurplusPool.ETH ∧
      s' = { s with
        collSurplusPool :=
          ⟨s.collSurplusPool.ETH - s.collSurplusPool.balances b,
            Function.update s.collSurplusPool.balances b 0⟩
        ether := move s.ether d.collSurplusPool b (s.collSurplusPool.balances b) } := by
  simp only [CollSurplusPool.claimColl, bind_ok, sub_ok, orRevert_ok] at h
  obtain ⟨-, -, -, -, _, ⟨hle, rfl⟩, h⟩ := h
  obtain ⟨-, h⟩ := System.callValue_ok h
  exact ⟨hle, System.receiveETH_external hb h⟩

theorem claimCollateral_footprint {env : Env} (hb : d.External env.sender)
    (h : BorrowerOperations.claimCollateral d env s = .ok s') : Footprint d c n n s s' := by
  obtain ⟨hle, rfl⟩ := CollSurplusPool.claimColl_ok hb h
  refine { Footprint.refl (c := c) (n := n) s with
    staking := fun hs => hs.mono rfl (Nat.le_refl _)
      (le_move hd.lqtyStaking_ne_collSurplusPool) (Nat.le_refl _) (Nat.le_refl _)
    surplus := fun hs => ⟨?_, ?_⟩ }
  · have hsum := sum_update_add (fun m => m) s.collSurplusPool.balances env.sender 0
    have heq := hs.sum_eq
    dsimp only
    omega
  · have hether := hs.ether_le
    dsimp only
    rw [move_source hb.ne_collSurplusPool.symm]
    omega

/-! ## The Stability Pool -/

namespace StabilityPool

omit hd in
theorem triggerLQTYIssuance_holdings {timestamp : Nat}
    (h : triggerLQTYIssuance d timestamp s = .ok s') : HoldingsKept d s s' := by
  simp only [triggerLQTYIssuance, bind_ok] at h
  obtain ⟨issued, -, h⟩ := h
  refine HoldingsKept.trans ?_ (.onStabilityPool h)
  exact { HoldingsKept.refl s with }

theorem offset_holdings {caller : Address} {debtToOffset collToAdd timestamp : Nat}
    (h : offset d caller debtToOffset collToAdd timestamp s = .ok s') : HoldingsKept d s s' := by
  obtain ⟨-, rfl⟩ | ⟨-, -, s₁, _, p, h₁, -, -, h⟩ := offset_ok h
  · exact .refl _
  · simp only [moveOffsetCollAndDebt, bind_ok] at h
    obtain ⟨s₂, h₂, s₃, h₃, s₄, h₄, h⟩ := h
    have hwritten : HoldingsKept d s₁ { s₁ with stabilityPool := p } := { HoldingsKept.refl s₁ with }
    have hdebt := (Frame.onActivePool (d := d) h₂).toHoldingsKept.trans (.onStabilityPool h₃)
    have hsent := (burn_frame hd.lqtyStaking_ne_stabilityPool h₄).toHoldingsKept.trans
      (sendETH_holdings hd hd.collSurplusPool_ne_stabilityPool.symm h)
    exact ((triggerLQTYIssuance_holdings h₁).trans hwritten).trans (hdebt.trans hsent)

omit hd in
/-- LQTY goes from the community issuance to accounts that are neither it nor the staking
contract. -/
theorem sendLQTY_moves {caller account : Address} {timestamp : Nat}
    (h : CommunityIssuance.sendLQTY d caller account amount timestamp s = .ok s') :
    account ≠ d.communityIssuance ∧ amount ≤ s.lqtyToken.balances d.communityIssuance ∧
      s' = { s with lqtyToken := { s.lqtyToken with
        balances := move s.lqtyToken.balances d.communityIssuance account amount } } := by
  simp only [CommunityIssuance.sendLQTY, bind_ok, System.onLQTYToken_ok] at h
  obtain ⟨-, -, t, ht, rfl⟩ := h
  obtain ⟨hne, hle, rfl⟩ := LQTYToken.transfer_ok ht
  exact ⟨hne.1, hle, rfl⟩

theorem sendLQTY_holdings {caller account : Address} {timestamp : Nat}
    (h : CommunityIssuance.sendLQTY d caller account amount timestamp s = .ok s') :
    HoldingsKept d s s' := by
  obtain ⟨-, hle, rfl⟩ := sendLQTY_moves h
  exact { HoldingsKept.refl s with
    sum_lqty := sum_move hle
    lqty_staking := le_move (hd.get_ne (show (11 : Fin 13) ≠ 12 by decide)) }

theorem payOutLQTYGains_holdings {timestamp : Nat} {depositor frontEnd : Address}
    (h : payOutLQTYGains d timestamp depositor frontEnd s = .ok s') : HoldingsKept d s s' := by
  simp only [payOutLQTYGains, bind_ok] at h
  obtain ⟨s₁, h₁, gain, -, h⟩ := h
  have hfrontEnd : HoldingsKept d s s₁ := by
    unfold payOutFrontEndLQTYGain at h₁
    split at h₁
    · obtain ⟨gain, -, h₁⟩ := bind_ok.mp h₁
      exact sendLQTY_holdings hd h₁
    · cases h₁
      exact .refl s
  exact hfrontEnd.trans (sendLQTY_holdings hd h)

theorem sendETHGainToDepositor_holdings (hb : d.External b)
    (h : sendETHGainToDepositor d b amount s = .ok s') : HoldingsKept d s s' := by
  unfold sendETHGainToDepositor at h
  split at h
  · cases h
    exact .refl s
  · simp only [bind_ok, orRevert_ok] at h
    obtain ⟨_, -, h⟩ := h
    refine HoldingsKept.trans ?_ (callValue_holdings hd.lqtyStaking_ne_stabilityPool
      hd.collSurplusPool_ne_stabilityPool hb.ne_collSurplusPool h)
    exact { HoldingsKept.refl s with }

omit hd in
/-- Writing the pool's storage. -/
theorem write_holdings (p : StabilityPool) (h : HoldingsKept d { s with stabilityPool := p } s') :
    HoldingsKept d s s' := { h with }

theorem provideToSP_holdings {env : Env} {tag : Address} (hb : d.External env.sender)
    (h : provideToSP d env amount tag s = .ok s') : HoldingsKept d s s' := by
  simp only [provideToSP, bind_ok] at h
  obtain ⟨-, -, -, -, -, -, s₁, h₁, _, -, s₂, h₂, _, -, _, -, s₃, h₃, _, -, h⟩ := h
  obtain ⟨-, rfl⟩ := sendLUSDtoStabilityPool_ok h₃
  have hpaid := write_holdings _ (payOutLQTYGains_holdings hd h₂)
  have hsent := write_holdings _ (sendETHGainToDepositor_holdings hd hb h)
  refine ((triggerLQTYIssuance_holdings h₁).trans hpaid).trans ?_
  -- the deposit itself comes from the sender
  exact { hsent with
    lusd_staking := (le_move hb.ne_lqtyStaking.symm).trans hsent.lusd_staking }

theorem withdrawFromSP_holdings {env : Env} (hb : d.External env.sender)
    (h : withdrawFromSP d env amount s = .ok s') : HoldingsKept d s s' := by
  simp only [withdrawFromSP, bind_ok] at h
  obtain ⟨-, -, -, -, s₁, h₁, _, -, s₂, h₂, _, -, _, -, s₃, h₃, _, -, h⟩ := h
  obtain ⟨-, -, rfl⟩ := sendLUSDToDepositor_ok h₃
  have hsent := write_holdings _ (sendETHGainToDepositor_holdings hd hb h)
  refine ((triggerLQTYIssuance_holdings h₁).trans (payOutLQTYGains_holdings hd h₂)).trans ?_
  exact { hsent with
    lusd_staking := (le_move hd.lqtyStaking_ne_stabilityPool).trans hsent.lusd_staking }

theorem withdrawETHGainToTrove_keeps {env : Env} {upper lower : Address}
    (hb : d.External env.sender) (h : withdrawETHGainToTrove d env upper lower s = .ok s') :
    Keeps d c n n s s' := by
  simp only [withdrawETHGainToTrove, BorrowerOperations.moveETHGainToTrove, bind_ok] at h
  obtain ⟨-, -, -, -, -, -, s₁, h₁, reading, -, s₂, h₂, _, -, _, -, -, -, -, -, h⟩ := h
  have hpaid := (triggerLQTYIssuance_holdings h₁).trans (payOutLQTYGains_holdings hd h₂)
  have hether : HoldingsKept d s₂ { s₂ with
      ether := move s₂.ether d.stabilityPool d.borrowerOperations reading.depositorETHGain } :=
    .moveEther hd.lqtyStaking_ne_stabilityPool hd.collSurplusPool_ne_stabilityPool
  have hadjusted := (BorrowerOperations.adjustTroveInternal_footprint (c := c) (n := n) hd hb
    (fun hincrease => by cases hincrease) h).toKeeps
  refine (hpaid.trans ?_).keeps.trans hadjusted
  exact { hether with }

omit hd in
theorem registerFrontEnd_holdings {env : Env} {kickbackRate : Nat}
    (h : registerFrontEnd env kickbackRate s = .ok s') : HoldingsKept d s s' := by
  simp only [registerFrontEnd, bind_ok, pure_ok] at h
  obtain ⟨-, -, -, -, -, -, rfl⟩ := h
  exact { HoldingsKept.refl s with }

end StabilityPool

end Wired

/-! ## Staking -/

namespace LQTYStaking

variable {l : LQTYStaking} {gain : Nat}

theorem pendingGain_ok {stake F F_Snapshot : Nat} (h : pendingGain stake F F_Snapshot = .ok gain) :
    F_Snapshot ≤ F ∧ gain = stake * (F - F_Snapshot) / DECIMAL_PRECISION := by
  simp only [pendingGain, bind_ok, sub_ok, mul_ok, div_ok] at h
  obtain ⟨_, ⟨hle, rfl⟩, _, ⟨-, rfl⟩, -, rfl⟩ := h
  exact ⟨hle, rfl⟩

/-- A staker's ether gain and LUSD gain. -/
def gainETH (l : LQTYStaking) (user : Address) : Nat :=
  l.stakes user * (l.F_ETH - (l.snapshots user).F_ETH_Snapshot) / DECIMAL_PRECISION

@[inherit_doc gainETH]
def gainLUSD (l : LQTYStaking) (user : Address) : Nat :=
  l.stakes user * (l.F_LUSD - (l.snapshots user).F_LUSD_Snapshot) / DECIMAL_PRECISION

theorem gainsOnStake_ok {gains : Nat × Nat} (h : l.gainsOnStake b = .ok gains) :
    gains = (l.gainETH b, l.gainLUSD b) := by
  unfold gainsOnStake at h
  split at h
  · simp only [bind_ok, pure_ok] at h
    obtain ⟨_, hETH, _, hLUSD, rfl⟩ := h
    rw [(pendingGain_ok hETH).2, (pendingGain_ok hLUSD).2]
    rfl
  next hnone =>
    cases h
    rw [gainETH, gainLUSD, not_not.mp hnone]
    simp

theorem sendGains_ok (hb : d.External b) {ETHGain LUSDGain : Nat}
    (h : sendGains d b ETHGain LUSDGain s = .ok s') :
    s' = { s with
      lusdToken := { s.lusdToken with
        balances := move s.lusdToken.balances d.lqtyStaking b LUSDGain }
      ether := move s.ether d.lqtyStaking b ETHGain } := by
  simp only [sendGains, sendETHGainToUser, bind_ok, System.onLUSDToken_ok, orRevert_ok] at h
  obtain ⟨_, ⟨t, ht, rfl⟩, h⟩ := h
  obtain ⟨-, rfl⟩ := LUSDToken.transfer_ok ht
  obtain ⟨-, h⟩ := System.callValue_ok h
  exact System.receiveETH_external hb h

/-- `user` has the stake `stake` now, the gains were paid, and `LQTY` of staked LQTY are held. -/
structure Restaked (d : Deployment) (user : Address) (stake : Nat) (s s' : System) : Prop where
  stakes : s'.lqtyStaking.stakes = Function.update s.lqtyStaking.stakes user stake
  snapshots : s'.lqtyStaking.snapshots = Function.update s.lqtyStaking.snapshots user
    ⟨s.lqtyStaking.F_ETH, s.lqtyStaking.F_LUSD⟩
  sums : s'.lqtyStaking.F_ETH = s.lqtyStaking.F_ETH ∧ s'.lqtyStaking.F_LUSD = s.lqtyStaking.F_LUSD
  total : s'.lqtyStaking.totalLQTYStaked + s.lqtyStaking.stakes user =
    s.lqtyStaking.totalLQTYStaked + stake
  held : s.lqtyStaking.totalLQTYStaked ≤ s.lqtyToken.balances d.lqtyStaking →
    s'.lqtyStaking.totalLQTYStaked ≤ s'.lqtyToken.balances d.lqtyStaking
  ether : s'.ether = move s.ether d.lqtyStaking user (s.lqtyStaking.gainETH user)
  LUSD : s'.lusdToken.balances =
    move s.lusdToken.balances d.lqtyStaking user (s.lqtyStaking.gainLUSD user)
  collSurplusPool : s'.collSurplusPool = s.collSurplusPool
  timestamp : s'.timestamp = s.timestamp

theorem Restaked.solvent {user : Address} {stake : Nat} (h : Restaked d user stake s s')
    (hb : d.External user) (hstarted : d.deploymentStartTime ≤ s.timestamp)
    (hs : StakingSolvent d s) : StakingSolvent d s' := by
  have hpos : 0 < DECIMAL_PRECISION := Nat.pow_pos (by decide)
  have hne := hb.ne_lqtyStaking
  constructor
  · have hsum := sum_update_add (fun m => m) s.lqtyStaking.stakes user stake
    have htotal := h.total
    have heq := hs.total_eq
    rw [h.stakes]
    omega
  · exact h.held hs.staked_le
  · refine hs.ETHGains.settle hpos user (fun j hj => ⟨?_, ?_⟩) h.sums.1 rfl ?_ ?_
    · change s'.lqtyStaking.stakes j = s.lqtyStaking.stakes j
      rw [h.stakes, Function.update_of_ne hj]
    · change (s'.lqtyStaking.snapshots j).F_ETH_Snapshot = _
      rw [h.snapshots, Function.update_of_ne hj]
      rfl
    · change (s'.lqtyStaking.snapshots user).F_ETH_Snapshot = _
      rw [h.snapshots, Function.update_self]
      rfl
    · change s'.ether d.lqtyStaking = _
      rw [h.ether, move_source hne.symm]
      rfl
  · refine hs.LUSDGains.settle hpos user (fun j hj => ⟨?_, ?_⟩) h.sums.2 rfl ?_ ?_
    · change s'.lqtyStaking.stakes j = s.lqtyStaking.stakes j
      rw [h.stakes, Function.update_of_ne hj]
    · change (s'.lqtyStaking.snapshots j).F_LUSD_Snapshot = _
      rw [h.snapshots, Function.update_of_ne hj]
      rfl
    · change (s'.lqtyStaking.snapshots user).F_LUSD_Snapshot = _
      rw [h.snapshots, Function.update_self]
      rfl
    · change s'.lusdToken.balances d.lqtyStaking = _
      rw [h.LUSD, move_source hne.symm]
      rfl
  · intro _
    rw [h.timestamp]
    exact hstarted

/-- What the staker was owed has been paid. -/
theorem Restaked.owedLUSD_le {user : Address} {stake : Nat} (h : Restaked d user stake s s') :
    s'.lqtyStaking.owedLUSD ≤ s.lqtyStaking.owedLUSD := by
  unfold owedLUSD
  refine Finset.sum_le_sum fun a _ => ?_
  rw [h.stakes, h.snapshots, h.sums.2]
  by_cases ha : a = user
  · subst ha
    simp
  · rw [Function.update_of_ne ha, Function.update_of_ne ha]

theorem stake_restaked {env : Env} (hb : d.External env.sender)
    (h : stake d env amount s = .ok s') :
    d.deploymentStartTime ≤ env.timestamp ∧ amount ≤ s.lqtyToken.balances env.sender ∧
      Restaked d env.sender (s.lqtyStaking.stakes env.sender + amount) s s' ∧
      s'.stabilityPool = s.stabilityPool ∧ s'.communityIssuance = s.communityIssuance ∧
      s'.lqtyToken = { s.lqtyToken with
        balances := move s.lqtyToken.balances env.sender d.lqtyStaking amount } := by
  simp only [stake, bind_ok, add_ok, System.onLQTYToken_ok] at h
  obtain ⟨-, -, gains, hgains, _, ⟨-, rfl⟩, _, ⟨-, rfl⟩, _, ⟨t, ht, rfl⟩, h⟩ := h
  obtain ⟨hstarted, hle, rfl⟩ := LQTYToken.sendToLQTYStaking_ok ht
  obtain rfl := gainsOnStake_ok hgains
  have hheld : s.lqtyStaking.totalLQTYStaked ≤ s.lqtyToken.balances d.lqtyStaking →
      s.lqtyStaking.totalLQTYStaked + amount ≤
        move s.lqtyToken.balances env.sender d.lqtyStaking amount d.lqtyStaking := by
    intro hstaked
    rw [move_target hb.ne_lqtyStaking]
    omega
  refine ⟨hstarted, hle, ?_⟩
  split at h
  · obtain rfl := sendGains_ok hb h
    refine ⟨⟨rfl, rfl, ⟨rfl, rfl⟩, ?_, hheld, rfl, rfl, rfl, rfl⟩, rfl, rfl, rfl⟩
    dsimp only [updateUserSnapshots]
    omega
  next hnone =>
    -- a first stake has earned nothing
    cases h
    have hzero : s.lqtyStaking.stakes env.sender = 0 := not_not.mp hnone
    have hETH : s.lqtyStaking.gainETH env.sender = 0 := by simp [gainETH, hzero]
    have hLUSD : s.lqtyStaking.gainLUSD env.sender = 0 := by simp [gainLUSD, hzero]
    refine ⟨⟨rfl, rfl, ⟨rfl, rfl⟩, ?_, hheld, ?_, ?_, rfl, rfl⟩, rfl, rfl, rfl⟩
    · dsimp only [updateUserSnapshots]
      omega
    · rw [hETH, move_zero]
    · rw [hLUSD, move_zero]

theorem unstake_restaked {env : Env} (hb : d.External env.sender)
    (h : unstake d env amount s = .ok s') :
    0 < s.lqtyStaking.stakes env.sender ∧
      Restaked d env.sender (s.lqtyStaking.stakes env.sender - amount) s s' ∧
      s'.stabilityPool = s.stabilityPool ∧ s'.communityIssuance = s.communityIssuance ∧
      Min.min amount (s.lqtyStaking.stakes env.sender) ≤ s.lqtyToken.balances d.lqtyStaking ∧
      s'.lqtyToken = { s.lqtyToken with
        balances := move s.lqtyToken.balances d.lqtyStaking env.sender
          (Min.min amount (s.lqtyStaking.stakes env.sender)) } := by
  simp only [unstake, bind_ok, require_ok] at h
  obtain ⟨-, hstake, ETHGain, hETH, LUSDGain, hLUSD, s₁, h₁, h⟩ := h
  obtain ⟨-, rfl⟩ := pendingGain_ok hETH
  obtain ⟨-, rfl⟩ := pendingGain_ok hLUSD
  obtain rfl := sendGains_ok hb h
  refine ⟨hstake, ?_⟩
  unfold withdrawStake at h₁
  split at h₁
  · simp only [bind_ok, sub_ok, min_eq, System.onLQTYToken_ok] at h₁
    obtain ⟨_, ⟨-, rfl⟩, _, ⟨hle, rfl⟩, t, ht, rfl⟩ := h₁
    obtain ⟨-, hbalance, rfl⟩ := LQTYToken.transfer_ok ht
    dsimp only [updateUserSnapshots] at hle hbalance
    refine ⟨⟨?_, rfl, ⟨rfl, rfl⟩, ?_, ?_, rfl, rfl, rfl, rfl⟩, rfl, rfl, hbalance, rfl⟩
    · dsimp only [updateUserSnapshots]
      congr 1
      omega
    · dsimp only [updateUserSnapshots]
      omega
    · intro hheld
      dsimp only [updateUserSnapshots]
      rw [move_source hb.ne_lqtyStaking.symm]
      omega
  next hnone =>
    cases h₁
    have hzero : amount = 0 := Nat.eq_zero_of_not_pos hnone
    subst hzero
    refine ⟨⟨?_, rfl, ⟨rfl, rfl⟩, ?_, id, rfl, rfl, rfl, rfl⟩, rfl, rfl, ?_, ?_⟩
    · exact (Function.update_eq_self _ _).symm
    · rfl
    · rw [Nat.zero_min]
      exact Nat.zero_le _
    · rw [Nat.zero_min, move_zero]

theorem stake_footprint (hd : d.Wired) {env : Env} (hb : d.External env.sender)
    (htime : s.timestamp = env.timestamp) (h : stake d env amount s = .ok s') :
    Footprint d c n n s s' := by
  obtain ⟨hstarted, hle, hrestaked, hpool, hissuance, htoken⟩ := stake_restaked hb h
  refine ⟨⟨?_, hrestaked.solvent hb (htime ▸ hstarted), ?_, fun _ => hrestaked.owedLUSD_le⟩, hpool,
    hissuance, ?_⟩
  · intro hs
    rw [htoken]
    exact hs.move hle
  · intro hs
    refine hs.mono hrestaked.collSurplusPool ?_
    rw [hrestaked.ether]
    exact le_move hd.lqtyStaking_ne_collSurplusPool.symm
  · rw [htoken]
    exact le_move (hb.ne 12).symm

theorem unstake_footprint (hd : d.Wired) {env : Env} (hb : d.External env.sender)
    (h : unstake d env amount s = .ok s') : Footprint d c n n s s' := by
  obtain ⟨hstake, hrestaked, hpool, hissuance, hle, htoken⟩ := unstake_restaked hb h
  refine ⟨⟨?_, fun hs => hrestaked.solvent hb (hs.started ?_) hs, ?_, fun _ => hrestaked.owedLUSD_le⟩,
    hpool, hissuance, ?_⟩
  · intro hs
    rw [htoken]
    exact hs.move hle
  · rw [← hs.total_eq]
    exact hstake.trans_le (le_sum s.lqtyStaking.stakes env.sender)
  · intro hs
    refine hs.mono hrestaked.collSurplusPool ?_
    rw [hrestaked.ether]
    exact le_move hd.lqtyStaking_ne_collSurplusPool.symm
  · rw [htoken]
    exact le_move (hd.get_ne (show (12 : Fin 13) ≠ 11 by decide))

end LQTYStaking

/-! ## Token transfers -/

section Transfers

variable (hb : d.External b) {recipient : Address}

include hb

theorem transferLUSD_frame
    (h : s.onLUSDToken (LUSDToken.transfer d b recipient amount) = .ok s') : Frame d s s' := by
  refine .onLUSDToken h fun t ht => ?_
  obtain ⟨-, rfl⟩ := LUSDToken.transfer_ok ht
  exact le_move hb.ne_lqtyStaking.symm

omit hb in
theorem approveLUSD_frame {owner spender : Address}
    (h : s.onLUSDToken (LUSDToken.approve owner spender amount) = .ok s') : Frame d s s' := by
  refine .onLUSDToken h fun t ht => ?_
  rw [LUSDToken.approve_ok ht]

omit hb in
/-- The staking contract lets nobody spend its LUSD. -/
theorem transferLUSDFrom_frame {caller owner : Address}
    (hrestricted : s.lusdToken.allowances d.lqtyStaking caller = 0)
    (h : s.onLUSDToken (LUSDToken.transferFrom d caller owner recipient amount) = .ok s') :
    Frame d s s' := by
  refine .onLUSDToken h fun t ht => ?_
  obtain ⟨-, hallowance, rfl⟩ := LUSDToken.transferFrom_ok ht
  dsimp only
  by_cases howner : d.lqtyStaking = owner
  · subst howner
    rw [hrestricted, Nat.le_zero] at hallowance
    rw [hallowance, move_zero]
  · exact le_move howner

omit hb in
/-- A call on the LQTY token that takes nothing from the contracts and keeps them restricted. -/
theorem onLQTYToken_footprint {f : LQTYToken → Tx LQTYToken} (h : s.onLQTYToken f = .ok s')
    (hbalances : ∀ t, f s.lqtyToken = .ok t →
      ∀ a ∈ d.contracts, s.lqtyToken.balances a ≤ t.balances a)
    (hrestricted : ∀ t, f s.lqtyToken = .ok t → s.lqtyToken.Restricted d → t.Restricted d) :
    Footprint d c n n s s' := by
  obtain ⟨t, ht, rfl⟩ := System.onLQTYToken_ok.mp h
  have hle := hbalances t ht
  exact { Footprint.refl (d := d) (c := c) (n := n) s with
    restricted := hrestricted t ht
    staking := fun hs => hs.mono rfl (hle _ (by simp [Deployment.contracts])) (Nat.le_refl _)
      (Nat.le_refl _) (Nat.le_refl _)
    surplus := fun hs => hs.mono rfl (Nat.le_refl _)
    issuance_le := hle _ (by simp [Deployment.contracts]) }

theorem transferLQTY_footprint {timestamp : Nat}
    (h : s.onLQTYToken (LQTYToken.transfer d timestamp b recipient amount) = .ok s') :
    Footprint d c n n s s' := by
  refine onLQTYToken_footprint h (fun t ht a ha => ?_) (fun t ht hs => ?_)
  · obtain ⟨-, -, rfl⟩ := LQTYToken.transfer_ok ht
    exact le_move fun hab => hb.2 (hab ▸ ha)
  · obtain ⟨-, hle, rfl⟩ := LQTYToken.transfer_ok ht
    exact hs.move hle

theorem approveLQTY_footprint {timestamp : Nat} {spender : Address}
    (h : s.onLQTYToken (LQTYToken.approve d timestamp b spender amount) = .ok s') :
    Footprint d c n n s s' := by
  refine onLQTYToken_footprint h (fun t ht a ha => ?_) (fun t ht hs => ?_)
  · rw [LQTYToken.approve_ok ht]
  · rw [LQTYToken.approve_ok ht]
    exact ⟨fun a ha c => update_allowance_eq_zero (hs.allowances a ha c)
      fun hab _ => absurd (hab ▸ ha) hb.2, hs.sum_lt⟩

omit hb in
/-- Contracts approve nobody, so nothing but zero is transferred from them. -/
theorem transferLQTYFrom_footprint {timestamp : Nat} {caller owner : Address}
    (hs : s.lqtyToken.Restricted d)
    (h : s.onLQTYToken (LQTYToken.transferFrom d timestamp caller owner recipient amount) = .ok s') :
    Footprint d c n n s s' := by
  refine onLQTYToken_footprint h (fun t ht a ha => ?_) (fun t ht _ => ?_)
  · obtain ⟨-, -, hallowance, rfl⟩ := LQTYToken.transferFrom_ok ht
    dsimp only
    by_cases howner : a = owner
    · subst howner
      rw [hs.allowances a ha caller, Nat.le_zero] at hallowance
      rw [hallowance, move_zero]
    · exact le_move howner
  · obtain ⟨-, hle, -, rfl⟩ := LQTYToken.transferFrom_ok ht
    refine ⟨fun a ha c => ?_, (hs.move hle).sum_lt⟩
    refine update_allowance_eq_zero (hs.allowances a ha c) fun hab hc => ?_
    have hzero : s.lqtyToken.allowances owner caller = 0 := by
      rw [← hab, ← hc]
      exact hs.allowances a ha c
    omega

end Transfers

/-! ## Transactions -/

/-- The calls in which the Stability Pool has no part. -/
def Call.leavesStabilityPool : Call → Bool
  | liquidate .. | liquidateTroves .. | batchLiquidateTroves .. | provideToSP .. | withdrawFromSP ..
  | withdrawETHGainToTrove .. | registerFrontEnd .. => false
  | _ => true

/-- The calls that can increase the debt of the sender's trove. -/
def Call.mayCharge : Call → Bool
  | openTrove .. | withdrawLUSD .. => true
  | adjustTrove _ _ _ isDebtIncrease .. => isDebtIncrease
  | _ => false

theorem Call.body_footprint (hd : d.Wired) {env : Env} (hb : d.External env.sender)
    {call : Call} (hc : call.mayCharge = true → s.checkRecoveryMode env.price = .ok false → c)
    (htime : s.timestamp = env.timestamp) (hLQTY : s.lqtyToken.Restricted d)
    (hLUSD : ∀ spender, s.lusdToken.allowances d.lqtyStaking spender = 0)
    (hcall : call.leavesStabilityPool = true) (h : call.body d env s = .ok s') :
    Footprint d c n n s s' := by
  cases call with
  | openTrove => exact BorrowerOperations.openTrove_footprint hd (hc rfl) h
  | addColl | withdrawColl | withdrawLUSD | repayLUSD | adjustTrove =>
    exact BorrowerOperations.adjustTroveInternal_footprint hd hb hc h
  | closeTrove => exact (BorrowerOperations.closeTrove_frame hd hb h).footprint
  | claimCollateral => exact claimCollateral_footprint hd hb h
  | redeemCollateral => exact TroveManager.redeemCollateral_footprint hd hb h
  | stake => exact LQTYStaking.stake_footprint hd hb htime h
  | unstake => exact LQTYStaking.unstake_footprint hd hb h
  | transferLUSD => exact (transferLUSD_frame hb h).footprint
  | approveLUSD => exact (approveLUSD_frame h).footprint
  | transferLUSDFrom => exact (transferLUSDFrom_frame (hLUSD _) h).footprint
  | transferLQTY => exact transferLQTY_footprint hb h
  | approveLQTY => exact approveLQTY_footprint hb h
  | transferLQTYFrom => exact transferLQTYFrom_footprint hLQTY h
  | _ => cases hcall

theorem settleLiquidation_keeps (hd : d.Wired) {env : Env} (hb : d.External env.sender)
    {totals : LiquidationTotals} (h : TroveManager.settleLiquidation d env totals s = .ok s') :
    Keeps d c totals.totalCollSurplus 0 s s' := by
  simp only [TroveManager.settleLiquidation, bind_ok] at h
  obtain ⟨-, -, s₁, h₁, s₂, h₂, s₃, h₃, s₄, h₄, _, -, _, -, h⟩ := h
  have hoffset := (StabilityPool.offset_holdings hd h₁).trans
    (TroveManager.redistributeDebtAndColl_frame hd h₂).toHoldingsKept
  have hsent : Footprint d c (0 + totals.totalCollSurplus) 0 s₂ s₃ :=
    TroveManager.sendCollSurplus_footprint hd h₃
  rw [Nat.zero_add] at hsent
  have hpaid := (TroveManager.updateSystemSnapshots_frame h₄).trans
    (TroveManager.sendGasCompensation_frame hd hb h)
  exact (hoffset.keeps.trans hsent.toKeeps).trans hpaid.footprint.toKeeps

/-- The surplus that a liquidating transaction books is sent in the end. -/
theorem liquidation_keeps (hd : d.Wired) {t : Transaction} {x : Tx TroveManager.LoopState}
    (hstep : Step d s t s')
    (htally : t.call.tally d t.env { s with timestamp := t.env.timestamp } = some x) :
    Keeps d c 0 0 { s with timestamp := t.env.timestamp } s' := by
  obtain ⟨l, rfl, h⟩ := hstep.tallied hd htally
  obtain ⟨recovery, l₀, hstart, hsteps⟩ := t.call.tally_steps htally
  have hloop := TroveManager.loop_footprint (c := c) hd hsteps
  rw [hstart.fresh.1, hstart.fresh.2] at hloop
  exact hloop.toKeeps.trans (settleLiquidation_keeps hd hstep.1.external h)

/-- Ether that comes with a call is not taken from a contract. -/
theorem arrival_frame {env : Env} (hb : d.External env.sender) {call : Call}
    (h : call.receiveValue d env s = .ok s') : Frame d s s' := by
  unfold Call.receiveValue at h
  split at h
  · cases h
    exact .refl s
  · simp only [bind_ok, pure_ok] at h
    obtain ⟨-, -, -, -, rfl⟩ := h
    have hmove : HoldingsKept d s { s with
        ether := move s.ether env.sender d.borrowerOperations env.value } :=
      .moveEther hb.ne_lqtyStaking.symm hb.ne_collSurplusPool.symm
    exact { hmove with stabilityPool := rfl, communityIssuance := rfl, lqtyToken := rfl }

theorem timestamp_keeps {timestamp : Nat} (h : s.timestamp ≤ timestamp) :
    Footprint d c n n s { s with timestamp } :=
  { Footprint.refl (c := c) (n := n) s with
    staking := fun hs =>
      hs.mono rfl (Nat.le_refl _) (Nat.le_refl _) (Nat.le_refl _) h
    surplus := fun hs => hs.mono rfl (Nat.le_refl _) }

/-- A transaction in which the Stability Pool has no part. -/
theorem Step.footprint (hd : d.Wired) (hs : Sound d s .none) (hLQTY : s.lqtyToken.Restricted d)
    {t : Transaction}
    (hc : t.call.mayCharge = true → s.checkRecoveryMode t.env.price = .ok false → c)
    (hcall : t.call.leavesStabilityPool = true) (h : Step d s t s') : Footprint d c n n s s' := by
  obtain ⟨hvalid, h⟩ := h
  obtain ⟨s₁, h₁, h⟩ := bind_ok.mp h
  have harrival := arrival_frame hvalid.external h₁
  have hstart := (timestamp_keeps (d := d) (c := c) (n := n) hvalid.time).trans harrival.footprint
  obtain ⟨ether, rfl, -⟩ := t.call.receiveValue_ok hd hvalid.external h₁
  have hLUSD : ∀ spender, s.lusdToken.allowances d.lqtyStaking spender = 0 :=
    hs.books.allowances d.lqtyStaking (by simp [Deployment.contracts])
  exact hstart.trans (Call.body_footprint hd hvalid.external hc harrival.timestamp
    (hstart.restricted hLQTY) hLUSD hcall h)

/-- Every transaction keeps the staking contract solvent and the surpluses backed. -/
theorem Step.keeps (hd : d.Wired) (hs : Sound d s .none) (hLQTY : s.lqtyToken.Restricted d)
    {t : Transaction}
    (hc : t.call.mayCharge = true → s.checkRecoveryMode t.env.price = .ok false → c)
    (h : Step d s t s') : Keeps d c 0 0 s s' := by
  by_cases hcall : t.call.leavesStabilityPool = true
  · exact (h.footprint hd hs hLQTY hc hcall).toKeeps
  have hstep := h
  obtain ⟨hvalid, h⟩ := h
  obtain ⟨s₁, h₁, h⟩ := bind_ok.mp h
  have hb := hvalid.external
  have htime : Keeps d c 0 0 s { s with timestamp := t.env.timestamp } :=
    (timestamp_keeps hvalid.time).toKeeps
  have hstart := htime.trans (arrival_frame hb h₁).footprint.toKeeps
  obtain ⟨env, call⟩ := t
  cases call with
  | liquidate | liquidateTroves | batchLiquidateTroves =>
    exact htime.trans (liquidation_keeps hd hstep rfl)
  | provideToSP => exact hstart.trans (StabilityPool.provideToSP_holdings hd hb h).keeps
  | withdrawFromSP => exact hstart.trans (StabilityPool.withdrawFromSP_holdings hd hb h).keeps
  | withdrawETHGainToTrove =>
    exact hstart.trans (StabilityPool.withdrawETHGainToTrove_keeps hd hb h)
  | registerFrontEnd => exact hstart.trans (StabilityPool.registerFrontEnd_holdings h).keeps
  | _ => exact absurd rfl hcall

/-! ## Reachable states -/

/-- The invariants of the staking contract and the surplus pool together. -/
structure Reserved (d : Deployment) (s : System) : Prop where
  sound : Sound d s .none
  restricted : s.lqtyToken.Restricted d
  staking : StakingSolvent d s
  surplus : SurplusBacked d 0 s

/-- The allocation of 100 million LQTY, credited to four accounts. -/
theorem LQTYToken.initial_balances (d : Deployment) : ∃ bounty issuance lpRewards multisig,
    (LQTYToken.initial d).balances =
      Ledger.credit (Ledger.credit (Ledger.credit (Ledger.credit (fun _ => 0) d.bounty bounty)
        d.communityIssuance issuance) d.lpRewards lpRewards) d.multisig multisig ∧
    bounty + issuance + lpRewards + multisig = 100 * 10 ^ 24 :=
  ⟨_, _, _, _, rfl, by decide⟩

theorem LQTYToken.initial_restricted (d : Deployment) : (LQTYToken.initial d).Restricted d := by
  refine ⟨fun _ _ _ => rfl, ?_⟩
  obtain ⟨bounty, issuance, lpRewards, multisig, hbalances, hsum⟩ := LQTYToken.initial_balances d
  rw [hbalances, Ledger.sum_credit, Ledger.sum_credit, Ledger.sum_credit, Ledger.sum_credit,
    Finset.sum_const_zero]
  omega

theorem IsInitial.reserved (h : IsInitial d s) : Reserved d s := by
  have hs := h.sound
  obtain ⟨ether, timestamp, -, rfl⟩ := h
  refine ⟨hs, LQTYToken.initial_restricted d, ⟨?_, Nat.zero_le _, ⟨fun _ => Nat.le_refl _, ?_⟩,
    ⟨fun _ => Nat.le_refl _, ?_⟩, fun hstaked => absurd hstaked (Nat.lt_irrefl 0)⟩, ⟨?_, Nat.zero_le _⟩⟩
  · simp [System.initial]
  · simp [System.initial, LQTYStaking.ETHGains, Accumulator.owed]
  · simp [System.initial, LQTYStaking.LUSDGains, Accumulator.owed]
  · simp [System.initial]

theorem Reachable.reserved (hd : d.Wired) (h : Reachable d s) : Reserved d s := by
  refine Lib.Reachable.invariant (Reserved d) (fun _ => IsInitial.reserved) ?_ h
  intro s t s' _ hs _ hstep
  have hkeeps : Keeps d True 0 0 s s' :=
    hstep.keeps hd hs.sound hs.restricted fun _ _ => trivial
  exact ⟨(step_evolves hd hs.sound hstep).sound hd hs.sound, hkeeps.restricted hs.restricted,
    hkeeps.staking hs.staking, hkeeps.surplus hs.surplus⟩

end Liquity
