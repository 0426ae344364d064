import Liquity.Influence
import Liquity.Simulation.Transactions

/-!
# Every transaction is a sequence of effects

The functions one by one, from the trove manager up to the entry points.  A borrower's call writes the
sender's trove only; liquidations and redemptions write any trove.
-/

open Lib

namespace Liquity

open SafeMath

variable {d : Deployment} {sender : Address} {writable : Address → Prop} {s s' : System}
  {caller a b : Address} {amount : Nat}

/-! ## The trove manager -/

namespace TroveManager

section Wired

variable (hd : d.Wired)

include hd

theorem movePendingTroveRewardsToActivePool_effects {LUSD ETH : Nat}
    (h : movePendingTroveRewardsToActivePool d LUSD ETH s = .ok s') :
    Effects d sender writable s s' := by
  simp only [movePendingTroveRewardsToActivePool, bind_ok] at h
  obtain ⟨s₁, h₁, s₂, h₂, h⟩ := h
  exact ((Effects.decreaseDefaultDebt h₁).trans (Effects.increaseLUSDDebt h₂)).trans
    (Effects.sendETHToActivePool hd h)

theorem applyPendingRewardsInternal_effects (ha : writable a)
    (h : applyPendingRewardsInternal d a s = .ok s') : Effects d sender writable s s' := by
  unfold applyPendingRewardsInternal at h
  split at h
  · simp only [applyRewards, bind_ok] at h
    obtain ⟨-, -, ETH, -, LUSD, -, coll, -, debt, -, h⟩ := h
    have hleft : TrovesLeft writable s.troveManager
        ((s.troveManager.setTrove a
          { s.troveManager.troves a with coll, debt }).updateTroveRewardSnapshotsInternal a) :=
      (TrovesLeft.setTrove ha _ _).trans (.setSnapshot ha _ _)
    have hwritten : Effects d sender writable s _ :=
      .one (.troves s.sortedTroves s.activePool.LUSDDebt s.defaultPool.LUSDDebt hleft)
    exact hwritten.trans (movePendingTroveRewardsToActivePool_effects hd h)
  · cases h
    exact .refl

theorem applyPendingRewards_effects (ha : writable a)
    (h : applyPendingRewards d caller a s = .ok s') : Effects d sender writable s s' := by
  obtain ⟨-, -, h⟩ := bind_ok.mp h
  exact applyPendingRewardsInternal_effects hd ha h

omit hd in
theorem closeTroveInternal_effects {status : Status} (ha : writable a)
    (h : closeTroveInternal d a status s = .ok s') : Effects d sender writable s s' := by
  simp only [closeTroveInternal, bind_ok] at h
  obtain ⟨-, -, -, -, t, ht, h⟩ := h
  have hleft := ((TrovesLeft.setTrove ha _ s.troveManager).trans (.setSnapshot ha _ _)).trans
    (removeTroveOwner_left ht)
  have hwritten : Effects d sender writable s _ :=
    .one (.troves s.sortedTroves s.activePool.LUSDDebt s.defaultPool.LUSDDebt hleft)
  exact hwritten.trans (Effects.onSortedTroves h)

omit hd in
theorem closeTrove_effects (ha : writable a) (h : closeTrove d caller a s = .ok s') :
    Effects d sender writable s s' := by
  obtain ⟨-, -, h⟩ := bind_ok.mp h
  exact closeTroveInternal_effects ha h

/-! ## Liquidations -/

theorem closeLiquidatedTrove_effects (ha : writable a) {entire : EntireDebtAndColl}
    (h : closeLiquidatedTrove d a entire s = .ok s') : Effects d sender writable s s' := by
  simp only [closeLiquidatedTrove, bind_ok] at h
  obtain ⟨s₁, h₁, s₂, h₂, h⟩ := h
  exact ((movePendingTroveRewardsToActivePool_effects hd h₁).trans
    (Effects.onTroveManager h₂ fun _ => removeStakeInternal_left ha)).trans (closeTroveInternal_effects ha h)

theorem redistributeDebtAndColl_effects {debt coll : Nat}
    (h : redistributeDebtAndColl d debt coll s = .ok s') : Effects d sender writable s s' := by
  unfold redistributeDebtAndColl at h
  split at h
  · cases h
    exact .refl
  · simp only [bind_ok, add_ok] at h
    obtain ⟨ETH, -, LUSD, -, _, ⟨-, rfl⟩, _, ⟨-, rfl⟩, s₁, h₁, s₂, h₂, h⟩ := h
    have hleft : TrovesLeft writable s.troveManager { s.troveManager with
        L_ETH := s.troveManager.L_ETH + ETH.1
        L_LUSDDebt := s.troveManager.L_LUSDDebt + LUSD.1
        lastETHError_Redistribution := ETH.2
        lastLUSDDebtError_Redistribution := LUSD.2 } :=
      .of_eq rfl rfl (Nat.le_add_right _ _) (Nat.le_add_right _ _)
    have hwritten : Effects d sender writable s _ :=
      .one (.troves s.sortedTroves s.activePool.LUSDDebt s.defaultPool.LUSDDebt hleft)
    exact ((hwritten.trans (Effects.decreaseLUSDDebt h₁)).trans (Effects.increaseDefaultDebt h₂)).trans
      (Effects.sendETH_defaultPool hd h)

omit hd in
theorem updateSystemSnapshots_effects {collRemainder : Nat}
    (h : updateSystemSnapshots_excludeCollRemainder collRemainder s = .ok s') :
    Effects d sender writable s s' := by
  simp only [updateSystemSnapshots_excludeCollRemainder, bind_ok, pure_ok] at h
  obtain ⟨_, -, _, -, rfl⟩ := h
  exact Effects.one (.troves s.sortedTroves s.activePool.LUSDDebt s.defaultPool.LUSDDebt
    (.of_eq rfl rfl (Nat.le_refl _) (Nat.le_refl _)))

theorem sendGasCompensation_effects {liquidator : Address} {LUSD ETH : Nat}
    (hliquidator : d.External liquidator) (h : sendGasCompensation d liquidator LUSD ETH s = .ok s') :
    Effects d sender writable s s' := by
  obtain ⟨s₁, h₁, h⟩ := bind_ok.mp h
  have hLUSD : Effects d sender writable s s₁ := by
    unfold sendLUSDGasCompensation at h₁
    split at h₁
    · exact Effects.returnFromPool (by simp [Deployment.contracts]) h₁
    · cases h₁
      exact .refl
  split at h
  · exact hLUSD.trans (Effects.sendETH_external hd hliquidator h)
  · cases h
    exact hLUSD

omit hd in
/-- A trove ends in the status that it is closed with. -/
theorem closeTroveInternal_status {status : Status} (h : closeTroveInternal d b status s = .ok s') :
    (s'.troveManager.troves b).status = status := by
  simp only [closeTroveInternal, bind_ok, System.onSortedTroves_ok] at h
  obtain ⟨-, -, -, -, t, ht, l, -, rfl⟩ := h
  have hleft : TrovesLeft (fun _ => False) _ t := removeTroveOwner_left ht
  rw [(hleft.trove b id).2]
  show (Function.update s.troveManager.troves b _ b).status = status
  rw [Function.update_self]

/-- The troves that were liquidated by the time of `s`. -/
def Liquidated (s : System) (x : Address) : Prop :=
  (s.troveManager.troves x).status = .closedByLiquidation

theorem closeLiquidated_effects {entire : EntireDebtAndColl}
    (h : closeLiquidatedTrove d b entire s = .ok s') : Effects d sender (Liquidated s') s s' := by
  have hstatus : Liquidated s' b := by
    simp only [closeLiquidatedTrove, bind_ok] at h
    obtain ⟨s₁, -, s₂, -, h⟩ := h
    exact closeTroveInternal_status h
  exact closeLiquidatedTrove_effects hd hstatus h

theorem liquidateNormalMode_effects {LUSDInStabPool : Nat} {r : LiquidationValues × System}
    (h : liquidateNormalMode d b LUSDInStabPool s = .ok r) :
    Effects d sender (Liquidated r.2) s r.2 := by
  simp only [liquidateNormalMode, bind_ok, pure_ok] at h
  obtain ⟨entire, -, _, -, vals, -, s₁, h₁, rfl⟩ := h
  exact closeLiquidated_effects hd h₁

theorem liquidateRecoveryMode_effects {ICR LUSDInStabPool TCR price : Nat}
    {r : LiquidationValues × System}
    (h : liquidateRecoveryMode d b ICR LUSDInStabPool TCR price s = .ok r) :
    Effects d sender (Liquidated r.2) s r.2 := by
  unfold liquidateRecoveryMode at h
  split at h
  · cases h
    exact .refl
  simp only [bind_ok] at h
  obtain ⟨entire, -, _, -, h⟩ := h
  -- the branches of the source in their order
  split at h
  · simp only [bind_ok, pure_ok] at h
    obtain ⟨s₁, h₁, rfl⟩ := h
    exact closeLiquidated_effects hd h₁
  split at h
  · simp only [bind_ok, pure_ok] at h
    obtain ⟨vals, -, s₁, h₁, rfl⟩ := h
    exact closeLiquidated_effects hd h₁
  split at h
  · simp only [bind_ok, pure_ok] at h
    obtain ⟨-, -, single, -, s₁, h₁, s₂, h₂, rfl⟩ := h
    have hsurplus : Effects d sender (fun _ => False) s₁ s₂ := by
      unfold accountSurplus at h₂
      split at h₂
      · exact Effects.accountSurplus h₂
      · cases h₂
        exact .refl
    have hclosed : ∀ x, Liquidated s₁ x → Liquidated s₂ x := fun x hx =>
      (hsurplus.trovesLeft.trove x id).2.trans hx
    exact ((closeLiquidated_effects hd h₁).mono hclosed).trans (hsurplus.mono fun _ => False.elim)
  · obtain rfl := pure_ok.mp h
    exact .refl

theorem loopStep_effects {price : Nat} {recovery : Bool} {l l' : LoopState}
    (h : LoopStep d price recovery l l') :
    Effects d sender (Liquidated l'.system) l.system l'.system := by
  cases h with
  | normal mode hICR hlt hbody =>
    simp only [liquidateInNormalMode, bind_ok, pure_ok] at hbody
    obtain ⟨single, hsingle, _, -, totals, -, rfl⟩ := hbody
    exact liquidateNormalMode_effects hd hsingle
  | recovery mode hrecovering hICR hoffsettable hbody =>
    simp only [liquidateInRecoveryMode, bind_ok, pure_ok] at hbody
    obtain ⟨_, -, single, hsingle, _, -, _, -, _, -, _, -, _, -, totals, -, _, -, rfl⟩ := hbody
    exact liquidateRecoveryMode_effects hd hsingle

/-- A liquidation loop writes the troves that it liquidates. -/
theorem loop_effects {price : Nat} {recovery : Bool} {l l' : LoopState}
    (h : Relation.ReflTransGen (LoopStep d price recovery) l l') :
    Effects d sender (Liquidated l'.system) l.system l'.system := by
  induction h with
  | refl => exact .refl
  | @tail l₁ l₂ _ hstep ih =>
    have hlast : Effects d sender _ l₁.system l₂.system := loopStep_effects hd hstep
    have hstill : ∀ x, Liquidated l₁.system x → Liquidated l₂.system x := by
      intro x hx
      by_cases hwritten : Liquidated l₂.system x
      · exact hwritten
      · exact ((hlast.trovesLeft.trove x hwritten).2).trans hx
    exact (ih.mono hstill).trans hlast

theorem sendCollSurplus_effects {collSurplus : Nat}
    (h : sendCollSurplus d collSurplus s = .ok s') : Effects d sender writable s s' := by
  unfold sendCollSurplus at h
  split at h
  · exact Effects.sendETH_collSurplusPool hd h
  · cases h
    exact .refl

end Wired

end TroveManager

/-! ## LQTY issuance and offsets -/

namespace StabilityPool

theorem updateG_left {issuance : Nat} {p q : StabilityPool} (h : p.updateG issuance = .ok q) :
    DepositsLeft sender p q ∧ q.ETH = p.ETH := by
  obtain ⟨error, G, rfl⟩ := (updateG_ok h).1
  exact ⟨fun _ _ => ⟨rfl, rfl, rfl⟩, rfl⟩

theorem triggerLQTYIssuance_effects {timestamp : Nat} (htime : s.timestamp = timestamp)
    (h : triggerLQTYIssuance d timestamp s = .ok s') : Effects d sender writable s s' := by
  subst htime
  simp only [triggerLQTYIssuance, bind_ok, System.onStabilityPool_ok] at h
  obtain ⟨issued, hissued, p, hp, rfl⟩ := h
  obtain ⟨hleft, hETH⟩ := updateG_left hp
  exact Effects.one (.stabilityPool issued.2 hleft hETH (.inr ⟨issued.1, hissued⟩))

theorem decreaseLUSD_left {p q : StabilityPool} (h : decreaseLUSD amount p = .ok q) :
    DepositsLeft sender p q ∧ q.ETH = p.ETH := by
  simp only [decreaseLUSD, bind_ok, pure_ok] at h
  obtain ⟨_, -, rfl⟩ := h
  exact ⟨fun _ _ => ⟨rfl, rfl, rfl⟩, rfl⟩

theorem offset_effects (hd : d.Wired) {debtToOffset collToAdd timestamp : Nat}
    (htime : s.timestamp = timestamp)
    (h : offset d caller debtToOffset collToAdd timestamp s = .ok s') :
    Effects d sender writable s s' := by
  obtain ⟨-, rfl⟩ | ⟨-, -, s₁, rewards, p, h₁, hrewards, hp, h⟩ := offset_ok h
  · exact .refl
  have hleft : DepositsLeft sender s₁.stabilityPool p ∧ p.ETH = s₁.stabilityPool.ETH := by
    simp only [computeRewardsPerUnitStaked, updateRewardSumAndProduct, bind_ok, pure_ok] at hrewards hp
    obtain ⟨_, -, _, -, -, -, _, -, _, -, _, -, _, -, rfl⟩ := hrewards
    obtain ⟨-, -, _, -, _, -, _, -, _, -, -, -, rfl⟩ := hp
    exact ⟨fun _ _ => ⟨rfl, rfl, rfl⟩, rfl⟩
  simp only [moveOffsetCollAndDebt, bind_ok] at h
  obtain ⟨s₂, h₂, s₃, h₃, s₄, h₄, h⟩ := h
  have hwritten : Effects d _ writable s₁ _ :=
    .one (.stabilityPool s₁.communityIssuance hleft.1 hleft.2 (.inl rfl))
  refine ((triggerLQTYIssuance_effects htime h₁).trans hwritten).trans ?_
  have hdebt : Effects d sender writable _ s₃ := (Effects.decreaseLUSDDebt h₂).trans
    (Effects.onStabilityPool h₃ fun _ => decreaseLUSD_left)
  exact (hdebt.trans (Effects.burn (.inr (by simp [Deployment.contracts])) h₄)).trans
    (Effects.sendETH_stabilityPool hd h)

end StabilityPool

theorem TroveManager.settleLiquidation_effects (hd : d.Wired) {env : Env}
    (hb : d.External env.sender) (htime : s.timestamp = env.timestamp) {totals : LiquidationTotals}
    (h : TroveManager.settleLiquidation d env totals s = .ok s') : Effects d sender writable s s' := by
  simp only [TroveManager.settleLiquidation, bind_ok] at h
  obtain ⟨-, -, s₁, h₁, s₂, h₂, s₃, h₃, s₄, h₄, _, -, _, -, h⟩ := h
  have hmoved : Effects d sender writable s s₂ :=
    (StabilityPool.offset_effects hd htime h₁).trans (redistributeDebtAndColl_effects hd h₂)
  exact ((hmoved.trans (sendCollSurplus_effects hd h₃)).trans (updateSystemSnapshots_effects h₄)).trans
    (sendGasCompensation_effects hd hb h)

/-! ## Redemptions -/

namespace TroveManager

section Wired

variable (hd : d.Wired)

include hd

theorem redeemFully_effects (ha : writable a) {newColl : Nat}
    (h : redeemFully d a newColl s = .ok s') : Effects d sender writable s s' := by
  simp only [redeemFully, redeemCloseTrove, bind_ok] at h
  obtain ⟨s₁, h₁, s₂, h₂, s₃, h₃, s₄, h₄, s₅, h₅, h⟩ := h
  have hclosed : Effects d sender writable s s₂ := (Effects.onTroveManager h₁ fun _ =>
    removeStakeInternal_left ha).trans (closeTroveInternal_effects ha h₂)
  have hburned : Effects d sender writable s₂ s₄ :=
    (Effects.burn (.inr (by simp [Deployment.contracts])) h₃).trans (Effects.decreaseLUSDDebt h₄)
  exact ((hclosed.trans hburned).trans (Effects.accountSurplus h₅)).trans
    (Effects.sendETH_collSurplusPool hd h)

omit hd in
theorem redeemPartially_effects (ha : writable a) {newDebt newColl newNICR : Nat}
    {hints : RedemptionHints} (h : redeemPartially d a newDebt newColl newNICR hints s = .ok s') :
    Effects d sender writable s s' := by
  simp only [redeemPartially, bind_ok, pure_ok] at h
  obtain ⟨s₁, h₁, t, ht, rfl⟩ := h
  have hleft := (TrovesLeft.setTrove ha _ s₁.troveManager).trans
    (updateStakeAndTotalStakesInternal_left ha ht)
  exact (Effects.onSortedTroves h₁).trans (Effects.one (.troves s₁.sortedTroves s₁.activePool.LUSDDebt
    s₁.defaultPool.LUSDDebt hleft))

theorem redeemCollateralFromTrove_effects (ha : writable a) {maxLUSDamount price : Nat}
    {hints : RedemptionHints} {r : SingleRedemptionValues × System}
    (h : redeemCollateralFromTrove d a maxLUSDamount price hints s = .ok r) :
    Effects d sender writable s r.2 := by
  obtain ⟨_, _, -, -, -, -, -, -, ⟨-, -, h⟩ | ⟨_, -, -, ⟨-, h, -⟩ | ⟨-, -, -, h⟩⟩⟩ :=
    redeemCollateralFromTrove_ok h
  · exact redeemFully_effects hd ha h
  · rw [h]
  · exact redeemPartially_effects ha h

theorem redemptionLoop_effects (hall : ∀ x, writable x) {price rounds maxIterations : Nat}
    {hints : RedemptionHints} {currentBorrower : Address} {r r' : RedemptionState}
    (h : redemptionLoop d price hints rounds currentBorrower maxIterations r = .ok r') :
    Effects d sender writable r.system r'.system := by
  induction rounds generalizing currentBorrower maxIterations r with
  | zero => cases h
  | succ rounds ih =>
    unfold redemptionLoop at h
    split at h
    · simp only [bind_ok] at h
      obtain ⟨s₁, h₁, single, h₂, h⟩ := h
      have hround : Effects d sender writable _ _ :=
        (applyPendingRewardsInternal_effects hd (hall currentBorrower) h₁).trans
          (redeemCollateralFromTrove_effects hd (hall _) h₂)
      split at h
      · cases h
        exact hround
      · simp only [bind_ok] at h
        obtain ⟨_, -, _, -, _, -, h⟩ := h
        exact hround.trans (ih h)
    · cases h
      exact .refl

theorem settleRedemption_effects {env : Env} {totalLUSDSupplyAtStart maxFeePercentage : Nat}
    {r : RedemptionState} (hb : d.External env.sender)
    (h : settleRedemption d env totalLUSDSupplyAtStart maxFeePercentage r = .ok s') :
    Effects d env.sender writable r.system s' := by
  simp only [settleRedemption, bind_ok] at h
  obtain ⟨-, -, s₁, h₁, fee, -, -, -, s₂, h₂, s₃, h₃, _, -, s₄, h₄, s₅, h₅, h⟩ := h
  have hfee : Effects d env.sender writable _ s₂ := (Effects.onTroveManager h₁
    fun _ => updateBaseRateFromRedemption_left).trans (Effects.sendETH_lqtyStaking hd h₂)
  have hstakers : Effects d env.sender writable s₂ s₃ := by
    refine Effects.onLQTYStaking h₃ fun l hl => ?_
    simp only [LQTYStaking.increaseF_ETH, bind_ok, pure_ok] at hl
    obtain ⟨-, -, _, -, _, -, rfl⟩ := hl
    exact fun _ _ => ⟨rfl, rfl⟩
  have hburned : Effects d env.sender writable s₃ s₅ :=
    (Effects.burn (.inl rfl) h₄).trans (Effects.decreaseLUSDDebt h₅)
  exact ((hfee.trans hstakers).trans hburned).trans (Effects.sendETH_external hd hb h)

theorem redeemCollateral_effects (hall : ∀ x, writable x) {env : Env}
    {LUSDamount maxIterations maxFeePercentage : Nat} {hints : RedemptionHints}
    (hb : d.External env.sender)
    (h : redeemCollateral d env LUSDamount hints maxIterations maxFeePercentage s = .ok s') :
    Effects d env.sender writable s s' := by
  simp only [redeemCollateral, bind_ok] at h
  obtain ⟨-, -, -, -, -, -, -, -, -, -, _, -, -, -, _, -, r, hr, h⟩ := h
  exact (redemptionLoop_effects hd hall hr).trans (settleRedemption_effects hd hb h)

end Wired

end TroveManager

/-! ## `BorrowerOperations` -/

namespace BorrowerOperations

section Wired

variable (hd : d.Wired)

include hd

theorem activePoolAddColl_effects (h : activePoolAddColl d amount s = .ok s') :
    Effects d sender writable s s' := by
  have hne := hd.borrowerOperations_ne_activePool
  obtain ⟨hether, h⟩ := System.callValue_ok (orRevert_ok.mp h)
  simp only [System.receiveETH, if_true, System.onActivePool_ok, ActivePool.receive, bind_ok, pure_ok,
    add_ok] at h
  obtain ⟨p, ⟨-, -, _, ⟨-, rfl⟩, rfl⟩, rfl⟩ := h
  have hpayer : d.borrowerOperations ∈ d.contracts := by simp [Deployment.contracts]
  refine Effects.one (.pay (s.activePool.ETH + amount) s.defaultPool.ETH s.stabilityPool.ETH
    s.collSurplusPool.ETH (.inr hpayer) hether ?_ ?_ ?_ ?_)
  · rw [move_target hne]
    omega
  · have hpool : d.defaultPool ≠ d.borrowerOperations := hd.get_ne (show (3 : Fin 13) ≠ 0 by decide)
    rw [move_of_ne hpool hd.defaultPool_ne_activePool]
  · have hpool : d.stabilityPool ≠ d.borrowerOperations := hd.get_ne (show (4 : Fin 13) ≠ 0 by decide)
    rw [move_of_ne hpool hd.stabilityPool_ne_activePool]
  · have hpool : d.collSurplusPool ≠ d.borrowerOperations := hd.get_ne (show (6 : Fin 13) ≠ 0 by decide)
    rw [move_of_ne hpool hd.collSurplusPool_ne_activePool]

omit hd in
theorem withdrawLUSDInternal_effects {net : Nat} (h : withdrawLUSDInternal d b amount net s = .ok s') :
    Effects d sender writable s s' := by
  obtain ⟨s₁, h₁, h⟩ := bind_ok.mp h
  exact (Effects.increaseLUSDDebt h₁).trans (Effects.mint h)

omit hd in
theorem repayLUSDInternal_effects (hb : b = sender ∨ b ∈ d.contracts)
    (h : repayLUSDInternal d b amount s = .ok s') : Effects d sender writable s s' := by
  obtain ⟨s₁, h₁, h⟩ := bind_ok.mp h
  exact (Effects.decreaseLUSDDebt h₁).trans (Effects.burn hb h)

omit hd in
theorem triggerBorrowingFee_effects {timestamp maxFeePercentage : Nat} {r : Nat × System}
    (h : triggerBorrowingFee d timestamp amount maxFeePercentage s = .ok r) :
    Effects d sender writable s r.2 := by
  simp only [triggerBorrowingFee, bind_ok, pure_ok] at h
  obtain ⟨s₁, h₁, fee, -, -, -, s₂, h₂, s₃, h₃, rfl⟩ := h
  have hdecayed : Effects d sender writable s s₁ := Effects.onTroveManager h₁
    fun _ => TroveManager.decayBaseRateFromBorrowing_left
  have hstakers : Effects d sender writable s₁ s₂ := by
    refine Effects.onLQTYStaking h₂ fun l hl => ?_
    simp only [LQTYStaking.increaseF_LUSD, bind_ok, pure_ok] at hl
    obtain ⟨-, -, _, -, _, -, rfl⟩ := hl
    exact fun _ _ => ⟨rfl, rfl⟩
  exact (hdecayed.trans hstakers).trans (Effects.mint h₃)

omit hd in
theorem createTrove_effects (hb : writable b) {coll debt NICR : Nat} {upper lower : Address}
    (h : createTrove d b coll debt NICR upper lower s = .ok s') : Effects d sender writable s s' := by
  simp only [createTrove, bind_ok] at h
  obtain ⟨s₁, h₁, s₂, h₂, s₃, h₃, s₄, h₄, s₅, h₅, s₆, h₆, h⟩ := h
  have hfields : Effects d sender writable s s₃ :=
    ((Effects.onTroveManager h₁ fun _ => TroveManager.setTroveStatus_left hb).trans
      (Effects.onTroveManager h₂ fun _ => TroveManager.increaseTroveColl_left hb)).trans
      (Effects.onTroveManager h₃ fun _ => TroveManager.increaseTroveDebt_left hb)
  have hstake := (hfields.trans
    (Effects.onTroveManager h₄ fun _ => TroveManager.updateTroveRewardSnapshots_left hb)).trans
      (Effects.onTroveManager h₅ fun _ => TroveManager.updateStakeAndTotalStakes_left hb)
  exact (hstake.trans (Effects.onSortedTroves h₆)).trans
    (Effects.onTroveManager h fun _ => TroveManager.addTroveOwnerToArray_left)

theorem openTrove_effects {env : Env} (hb : writable env.sender) {maxFee : Nat} {upper lower : Address}
    (h : openTrove d env maxFee amount upper lower s = .ok s') : Effects d sender writable s s' := by
  simp only [openTrove, bind_ok] at h
  obtain ⟨recovery, -, -, -, -, -, fee, hfee, _, -, -, -, _, -, -, -, _, -, _, -, -, -, s₁, h₁, s₂,
    h₂, s₃, h₃, h⟩ := h
  have hcharged : Effects d sender writable s fee.2 := by
    unfold openTroveFee at hfee
    split at hfee
    · exact triggerBorrowingFee_effects hfee
    · cases hfee
      exact .refl
  have hopened := (hcharged.trans (createTrove_effects hb h₁)).trans (activePoolAddColl_effects hd h₂)
  exact (hopened.trans (withdrawLUSDInternal_effects h₃)).trans (withdrawLUSDInternal_effects h)

omit hd in
theorem updateTroveFromAdjustment_effects (hb : writable b) {collChange debtChange : Nat}
    {collInc debtInc : Bool}
    (h : updateTroveFromAdjustment d b collChange collInc debtChange debtInc s = .ok s') :
    Effects d sender writable s s' := by
  obtain ⟨s₁, h₁, h⟩ := bind_ok.mp h
  have hcoll : Effects d sender writable s s₁ := by
    unfold changeTroveColl at h₁
    split at h₁
    · exact Effects.onTroveManager h₁ fun _ => TroveManager.increaseTroveColl_left hb
    · exact Effects.onTroveManager h₁ fun _ => TroveManager.decreaseTroveColl_left hb
  unfold changeTroveDebt at h
  split at h
  · exact hcoll.trans (Effects.onTroveManager h fun _ => TroveManager.increaseTroveDebt_left hb)
  · exact hcoll.trans (Effects.onTroveManager h fun _ => TroveManager.decreaseTroveDebt_left hb)

/-- The account that calls pays and is paid: the sender, or a contract that sends ether along. -/
theorem performAdjustment_effects {a : Adjustment} {vars : AdjustmentVars} (ha : writable a.borrower)
    (hb : b = sender ∨ b ∈ d.contracts) (hpaid : vars.isCollIncrease = false → d.External b)
    (h : performAdjustment d b a vars s = .ok s') : Effects d sender writable s s' := by
  simp only [performAdjustment, moveTokensAndETHfromAdjustment, bind_ok] at h
  obtain ⟨s₁, h₁, s₂, h₂, _, -, s₃, h₃, s₄, h₄, h⟩ := h
  have hwritten : Effects d sender writable s s₃ :=
    ((updateTroveFromAdjustment_effects ha h₁).trans
      (Effects.onTroveManager h₂ fun _ => TroveManager.updateStakeAndTotalStakes_left ha)).trans
      (Effects.onSortedTroves h₃)
  have htokens : Effects d sender writable s₃ s₄ := by
    unfold moveTokensFromAdjustment at h₄
    split at h₄
    · exact withdrawLUSDInternal_effects h₄
    · exact repayLUSDInternal_effects hb h₄
  unfold moveETHFromAdjustment at h
  split at h
  · exact (hwritten.trans htokens).trans (activePoolAddColl_effects hd h)
  next hdecrease =>
    have hexternal := hpaid (Bool.eq_false_iff.mpr hdecrease)
    exact (hwritten.trans htokens).trans (Effects.sendETH_external hd hexternal h)

/-- The caller is the borrower, or the Stability Pool with ether. -/
theorem adjustTroveInternal_effects {env : Env} {a : Adjustment} (hb : d.External a.borrower)
    (ha : writable a.borrower) (h : adjustTroveInternal d env a s = .ok s') :
    Effects d a.borrower writable s s' := by
  simp only [adjustTroveInternal, bind_ok] at h
  obtain ⟨recovery, -, _, hvalid, s₁, h₁, fee, hfee, vars, hvars, -, -, -, -, h⟩ := h
  simp only [requireValidAdjustment, bind_ok, assertThat_ok] at hvalid
  obtain ⟨-, -, -, -, -, -, -, -, hsender⟩ := hvalid
  have hcharged : Effects d a.borrower writable s₁ fee.2 := by
    unfold adjustmentFee at hfee
    split at hfee
    · exact triggerBorrowingFee_effects hfee
    · cases hfee
      exact .refl
  have happlied := (TroveManager.applyPendingRewards_effects hd ha h₁).trans hcharged
  refine happlied.trans (performAdjustment_effects hd ha ?_ (fun hdecrease => ?_) h)
  · rcases hsender with heq | ⟨heq, -, -⟩
    · exact .inl heq
    · exact .inr (by simp [heq, Deployment.contracts])
  · rcases hsender with heq | ⟨-, hvalue, -⟩
    · rw [heq]
      exact hb
    · -- ether that comes along is an increase
      simp only [adjustmentVars, bind_ok, pure_ok] at hvars
      obtain ⟨_, -, _, -, _, -, -, -, rfl⟩ := hvars
      simp only [getCollChange, if_pos (Nat.pos_iff_ne_zero.mp hvalue)] at hdecrease
      cases hdecrease

theorem closeTrove_effects {env : Env} (hb : d.External env.sender) (ha : writable env.sender)
    (h : closeTrove d env s = .ok s') : Effects d env.sender writable s s' := by
  simp only [closeTrove, bind_ok] at h
  obtain ⟨-, -, -, -, s₁, h₁, _, -, -, -, _, -, -, -, s₂, h₂, s₃, h₃, s₄, h₄, s₅, h₅, h⟩ := h
  have hremoved : Effects d env.sender writable s₁ s₂ := by
    refine Effects.onTroveManager h₂ fun t ht => ?_
    obtain ⟨-, -, ht⟩ := bind_ok.mp ht
    exact TroveManager.removeStakeInternal_left ha ht
  have hclosed := ((TroveManager.applyPendingRewards_effects hd ha h₁).trans hremoved).trans
    (TroveManager.closeTrove_effects ha h₃)
  have hrepaid := (hclosed.trans (repayLUSDInternal_effects (.inl rfl) h₄)).trans
    (repayLUSDInternal_effects (.inr (by simp [Deployment.contracts])) h₅)
  exact hrepaid.trans (Effects.sendETH_external hd hb h)

/-- A claim takes what is recorded for the claimant. -/
theorem claimCollateral_effects {env : Env} (hb : d.External env.sender)
    (h : claimCollateral d env s = .ok s') : Effects d env.sender writable s s' := by
  simp only [claimCollateral, CollSurplusPool.claimColl, bind_ok, sub_ok, orRevert_ok] at h
  obtain ⟨-, -, -, -, _, ⟨hle, rfl⟩, h⟩ := h
  obtain ⟨hether, h⟩ := System.callValue_ok h
  obtain rfl := System.receiveETH_external hb h
  have hpayer : d.collSurplusPool ∈ d.contracts := by simp [Deployment.contracts]
  have hleft : ∀ x, x ≠ env.sender → s.collSurplusPool.balances x ≤
      Function.update s.collSurplusPool.balances env.sender 0 x :=
    fun x hx => by rw [Function.update_of_ne hx]
  have htaken : Effects d env.sender writable s _ := .one (.surplus hleft)
  refine htaken.trans (Effects.one (.pay s.activePool.ETH s.defaultPool.ETH s.stabilityPool.ETH
    (s.collSurplusPool.ETH - s.collSurplusPool.balances env.sender) (.inr hpayer) hether ?_ ?_ ?_ ?_))
  · rw [move_of_ne hd.collSurplusPool_ne_activePool.symm hb.ne_activePool.symm]
  · rw [move_of_ne hd.collSurplusPool_ne_defaultPool.symm hb.ne_defaultPool.symm]
  · rw [move_of_ne hd.collSurplusPool_ne_stabilityPool.symm hb.ne_stabilityPool.symm]
  · rw [move_source hb.ne_collSurplusPool.symm]
    dsimp only at hether ⊢
    omega

end Wired

end BorrowerOperations

/-! ## Depositors and front ends -/

namespace StabilityPool

variable {f : Address} {value : Nat} (p : StabilityPool)

theorem tagNewDeposit_left :
    DepositsLeft sender p (p.tagNewDeposit sender f) ∧ (p.tagNewDeposit sender f).ETH = p.ETH := by
  unfold tagNewDeposit
  split
  · refine ⟨fun x hx => ⟨?_, rfl, rfl⟩, rfl⟩
    exact Function.update_of_ne hx ..
  · exact ⟨fun _ _ => ⟨rfl, rfl, rfl⟩, rfl⟩

theorem updateFrontEndStakeAndSnapshots_left :
    DepositsLeft sender p (p.updateFrontEndStakeAndSnapshots f value) ∧
      (p.updateFrontEndStakeAndSnapshots f value).ETH = p.ETH := by
  unfold updateFrontEndStakeAndSnapshots
  split
  all_goals exact ⟨fun _ _ => ⟨rfl, rfl, rfl⟩, rfl⟩

theorem updateDepositAndSnapshots_left :
    DepositsLeft sender p (p.updateDepositAndSnapshots sender value) ∧
      (p.updateDepositAndSnapshots sender value).ETH = p.ETH := by
  unfold updateDepositAndSnapshots
  split
  all_goals
    refine ⟨fun x hx => ⟨?_, ?_, rfl⟩, rfl⟩
    · exact Function.update_of_ne hx ..
    · exact Function.update_of_ne hx ..

/-- One write of the pool's storage. -/
theorem write_effects {p : StabilityPool}
    (h : DepositsLeft sender s.stabilityPool p ∧ p.ETH = s.stabilityPool.ETH) :
    Effects d sender writable s { s with stabilityPool := p } :=
  Effects.one (.stabilityPool s.communityIssuance h.1 h.2 (.inl rfl))

theorem sendLQTY_effects {timestamp : Nat} (htime : s.timestamp = timestamp)
    (h : CommunityIssuance.sendLQTY d caller b amount timestamp s = .ok s') :
    Effects d sender writable s s' := by
  obtain ⟨-, -, h⟩ := bind_ok.mp h
  exact Effects.transferLQTY htime (.inr (by simp [Deployment.contracts])) h

theorem payOutLQTYGains_effects {timestamp : Nat} (htime : s.timestamp = timestamp)
    (h : payOutLQTYGains d timestamp a f s = .ok s') : Effects d sender writable s s' := by
  simp only [payOutLQTYGains, bind_ok] at h
  obtain ⟨s₁, h₁, gain, -, h⟩ := h
  have hfrontEnd : Effects d sender writable s s₁ := by
    unfold payOutFrontEndLQTYGain at h₁
    split at h₁
    · obtain ⟨gain, -, h₁⟩ := bind_ok.mp h₁
      exact sendLQTY_effects htime h₁
    · cases h₁
      exact .refl
  have htime₁ : s₁.timestamp = timestamp := (Effects.timestamp_eq hfrontEnd).trans htime
  exact hfrontEnd.trans (sendLQTY_effects htime₁ h)

theorem sendLUSDtoStabilityPool_effects (h : sendLUSDtoStabilityPool d sender amount s = .ok s') :
    Effects d sender writable s s' := by
  simp only [sendLUSDtoStabilityPool, bind_ok, pure_ok] at h
  obtain ⟨s₁, h₁, total, -, rfl⟩ := h
  exact (Effects.sendToPool h₁).trans (write_effects ⟨fun _ _ => ⟨rfl, rfl, rfl⟩, rfl⟩)

theorem sendLUSDToDepositor_effects (h : sendLUSDToDepositor d b amount s = .ok s') :
    Effects d sender writable s s' := by
  unfold sendLUSDToDepositor at h
  split at h
  · cases h
    exact .refl
  · simp only [bind_ok] at h
    obtain ⟨s₁, h₁, h⟩ := h
    exact (Effects.returnFromPool (by simp [Deployment.contracts]) h₁).trans
      (Effects.onStabilityPool h fun _ => decreaseLUSD_left)

section Wired

variable (hd : d.Wired)

include hd

theorem sendETHGainToDepositor_effects (hb : d.External b)
    (h : sendETHGainToDepositor d b amount s = .ok s') : Effects d sender writable s s' := by
  unfold sendETHGainToDepositor at h
  split at h
  · cases h
    exact .refl
  simp only [bind_ok, sub_ok, orRevert_ok] at h
  obtain ⟨_, ⟨hle, rfl⟩, h⟩ := h
  obtain ⟨hether, h⟩ := System.callValue_ok h
  obtain rfl := System.receiveETH_external hb h
  have hpayer : d.stabilityPool ∈ d.contracts := by simp [Deployment.contracts]
  refine Effects.one (.pay s.activePool.ETH s.defaultPool.ETH (s.stabilityPool.ETH - amount)
    s.collSurplusPool.ETH (.inr hpayer) hether ?_ ?_ ?_ ?_)
  · rw [move_of_ne hd.stabilityPool_ne_activePool.symm hb.ne_activePool.symm]
  · rw [move_of_ne hd.stabilityPool_ne_defaultPool.symm hb.ne_defaultPool.symm]
  · rw [move_source hb.ne_stabilityPool.symm]
    dsimp only at hether ⊢
    omega
  · rw [move_of_ne hd.collSurplusPool_ne_stabilityPool hb.ne_collSurplusPool.symm]

theorem provideToSP_effects {env : Env} (hb : d.External env.sender)
    (htime : s.timestamp = env.timestamp)
    (h : provideToSP d env amount f s = .ok s') : Effects d env.sender writable s s' := by
  simp only [provideToSP, bind_ok] at h
  obtain ⟨-, -, -, -, -, -, s₁, h₁, _, -, s₂, h₂, _, -, _, -, s₃, h₃, _, -, h⟩ := h
  have hissued : Effects d env.sender writable s s₁ := triggerLQTYIssuance_effects htime h₁
  have htime₁ : s₁.timestamp = env.timestamp := (Effects.timestamp_eq hissued).trans htime
  have htagged : Effects d env.sender writable s s₂ :=
    (hissued.trans (write_effects (tagNewDeposit_left _))).trans (payOutLQTYGains_effects htime₁ h₂)
  have hsent := (htagged.trans (write_effects (updateFrontEndStakeAndSnapshots_left _))).trans
    (sendLUSDtoStabilityPool_effects h₃)
  exact (hsent.trans (write_effects (updateDepositAndSnapshots_left _))).trans
    (sendETHGainToDepositor_effects hd hb h)

theorem withdrawFromSP_effects {env : Env} (hb : d.External env.sender)
    (htime : s.timestamp = env.timestamp)
    (h : withdrawFromSP d env amount s = .ok s') : Effects d env.sender writable s s' := by
  simp only [withdrawFromSP, bind_ok] at h
  obtain ⟨-, -, -, -, s₁, h₁, _, -, s₂, h₂, _, -, _, -, s₃, h₃, _, -, h⟩ := h
  have hissued : Effects d env.sender writable s s₁ := triggerLQTYIssuance_effects htime h₁
  have htime₁ : s₁.timestamp = env.timestamp := (Effects.timestamp_eq hissued).trans htime
  have hpaid : Effects d env.sender writable s s₂ := hissued.trans (payOutLQTYGains_effects htime₁ h₂)
  have hsent := (hpaid.trans (write_effects (updateFrontEndStakeAndSnapshots_left _))).trans
    (sendLUSDToDepositor_effects h₃)
  exact (hsent.trans (write_effects (updateDepositAndSnapshots_left _))).trans
    (sendETHGainToDepositor_effects hd hb h)

/-- The gain goes through `BorrowerOperations`, which is called by the pool. -/
theorem withdrawETHGainToTrove_effects {env : Env} {upper lower : Address}
    (hb : d.External env.sender) (htime : s.timestamp = env.timestamp) (ha : writable env.sender)
    (h : withdrawETHGainToTrove d env upper lower s = .ok s') :
    Effects d env.sender writable s s' := by
  simp only [withdrawETHGainToTrove, BorrowerOperations.moveETHGainToTrove, bind_ok, sub_ok,
    require_ok] at h
  obtain ⟨-, -, -, -, -, -, s₁, h₁, reading, -, s₂, h₂, stake, -, _, ⟨hle, rfl⟩, -, hether, -, -, h⟩ := h
  have hissued : Effects d env.sender writable s s₁ := triggerLQTYIssuance_effects htime h₁
  have htime₁ : s₁.timestamp = env.timestamp := (Effects.timestamp_eq hissued).trans htime
  have hpaid : Effects d env.sender writable s s₂ := hissued.trans (payOutLQTYGains_effects htime₁ h₂)
  generalize hp : (s₂.stabilityPool.updateFrontEndStakeAndSnapshots _ stake).updateDepositAndSnapshots
    env.sender reading.compoundedLUSDDeposit = p at h hle
  have hwritten : Effects d env.sender writable s₂ { s₂ with stabilityPool := p } := by
    have hstake : DepositsLeft env.sender s₂.stabilityPool
          (s₂.stabilityPool.updateFrontEndStakeAndSnapshots
            (s₁.stabilityPool.deposits env.sender).frontEndTag stake) ∧ _ :=
      updateFrontEndStakeAndSnapshots_left _
    have hdeposit : DepositsLeft env.sender _ ((s₂.stabilityPool.updateFrontEndStakeAndSnapshots
          (s₁.stabilityPool.deposits env.sender).frontEndTag stake).updateDepositAndSnapshots
            env.sender reading.compoundedLUSDDeposit) ∧ _ :=
      updateDepositAndSnapshots_left _
    rw [hp] at hdeposit
    exact write_effects ⟨hstake.1.trans hdeposit.1, hdeposit.2.trans hstake.2⟩
  have hsent : Effects d env.sender writable { s₂ with stabilityPool := p } { s₂ with
      stabilityPool := { p with ETH := p.ETH - reading.depositorETHGain }
      ether := move s₂.ether d.stabilityPool d.borrowerOperations reading.depositorETHGain } := by
    have hpayer : d.stabilityPool ∈ d.contracts := by simp [Deployment.contracts]
    have hpool : d.stabilityPool ≠ d.borrowerOperations := hd.get_ne (show (4 : Fin 13) ≠ 0 by decide)
    refine Effects.one (.pay s₂.activePool.ETH s₂.defaultPool.ETH (p.ETH - reading.depositorETHGain)
      s₂.collSurplusPool.ETH (.inr hpayer) hether ?_ ?_ ?_ ?_)
    · rw [move_of_ne hd.stabilityPool_ne_activePool.symm hd.borrowerOperations_ne_activePool.symm]
    · have hne : d.defaultPool ≠ d.borrowerOperations := hd.get_ne (show (3 : Fin 13) ≠ 0 by decide)
      rw [move_of_ne hd.stabilityPool_ne_defaultPool.symm hne]
    · rw [move_source hpool]
      dsimp only
      omega
    · have hne : d.collSurplusPool ≠ d.borrowerOperations :=
        hd.get_ne (show (6 : Fin 13) ≠ 0 by decide)
      rw [move_of_ne hd.collSurplusPool_ne_stabilityPool hne]
  have hadded := BorrowerOperations.adjustTroveInternal_effects hd hb ha h
  exact ((hpaid.trans hwritten).trans hsent).trans hadded

omit hd in
theorem registerFrontEnd_effects {env : Env} {kickbackRate : Nat}
    (h : registerFrontEnd env kickbackRate s = .ok s') : Effects d env.sender writable s s' := by
  simp only [registerFrontEnd, bind_ok, pure_ok] at h
  obtain ⟨-, -, -, -, -, -, rfl⟩ := h
  exact write_effects ⟨fun x hx => ⟨rfl, rfl, Function.update_of_ne hx ..⟩, rfl⟩

end Wired

end StabilityPool

/-! ## Staking -/

namespace LQTYStaking

variable (hd : d.Wired)

include hd

theorem sendGains_effects (hb : d.External b) {ETHGain LUSDGain : Nat}
    (h : sendGains d b ETHGain LUSDGain s = .ok s') : Effects d sender writable s s' := by
  have hpayer : d.lqtyStaking ∈ d.contracts := by simp [Deployment.contracts]
  simp only [sendGains, sendETHGainToUser, bind_ok, orRevert_ok] at h
  obtain ⟨s₁, h₁, h⟩ := h
  obtain ⟨hether, h⟩ := System.callValue_ok h
  obtain rfl := System.receiveETH_external hb h
  refine (Effects.transferLUSD (.inr hpayer) h₁).trans
    (Effects.payOutside (.inr hpayer) hether fun q hq => ?_)
  simp only [List.mem_cons, List.not_mem_nil, or_false] at hq
  rcases hq with rfl | rfl | rfl | rfl
  · exact ⟨hd.lqtyStaking_ne_activePool.symm, hb.ne_activePool.symm⟩
  · exact ⟨hd.lqtyStaking_ne_defaultPool.symm, hb.ne_defaultPool.symm⟩
  · exact ⟨hd.lqtyStaking_ne_stabilityPool.symm, hb.ne_stabilityPool.symm⟩
  · exact ⟨hd.lqtyStaking_ne_collSurplusPool.symm, hb.ne_collSurplusPool.symm⟩

theorem stake_effects {env : Env} (hb : d.External env.sender) (htime : s.timestamp = env.timestamp)
    (h : stake d env amount s = .ok s') : Effects d env.sender writable s s' := by
  simp only [stake, bind_ok] at h
  obtain ⟨-, -, gains, -, newStake, -, total, -, s₁, h₁, h⟩ := h
  have hstaked : StakesLeft env.sender s.lqtyStaking { s.lqtyStaking.updateUserSnapshots env.sender with
      stakes := Function.update s.lqtyStaking.stakes env.sender newStake
      totalLQTYStaked := total } :=
    fun x hx => ⟨Function.update_of_ne hx .., Function.update_of_ne hx ..⟩
  have hwritten : Effects d _ writable s _ := .one (.staking hstaked)
  have hsent := hwritten.trans (Effects.sendToLQTYStaking htime h₁)
  split at h
  · exact hsent.trans (sendGains_effects hd hb h)
  · cases h
    exact hsent

theorem unstake_effects {env : Env} (hb : d.External env.sender) (htime : s.timestamp = env.timestamp)
    (h : unstake d env amount s = .ok s') : Effects d env.sender writable s s' := by
  simp only [unstake, bind_ok] at h
  obtain ⟨-, -, ETHGain, -, LUSDGain, -, s₁, h₁, h⟩ := h
  have hsnapshots : StakesLeft env.sender s.lqtyStaking
      (s.lqtyStaking.updateUserSnapshots env.sender) :=
    fun x hx => ⟨rfl, Function.update_of_ne hx ..⟩
  have hcollected : Effects d _ writable s _ := .one (.staking hsnapshots)
  refine (hcollected.trans ?_).trans (sendGains_effects hd hb h)
  unfold withdrawStake at h₁
  split at h₁
  · simp only [bind_ok] at h₁
    obtain ⟨newStake, -, total, -, h₁⟩ := h₁
    have hpayer : d.lqtyStaking ∈ d.contracts := by simp [Deployment.contracts]
    refine (Effects.one (.staking ?_)).trans (Effects.transferLQTY ?_ (.inr hpayer) h₁)
    · exact fun x hx => ⟨Function.update_of_ne hx .., rfl⟩
    · exact htime
  · cases h₁
    exact .refl

end LQTYStaking

/-! ## Transactions -/

/-- The troves that a transaction may write: a liquidation those that are liquidated in the end, a
redemption any, and every other call the sender's. -/
def Transaction.Writes (t : Transaction) (s' : System) (x : Address) : Prop :=
  match t.call with
  | .liquidate .. | .liquidateTroves .. | .batchLiquidateTroves .. => TroveManager.Liquidated s' x
  | .redeemCollateral .. => True
  | _ => x = t.env.sender

theorem liquidation_effects (hd : d.Wired) {t : Transaction} {x : Tx TroveManager.LoopState}
    (hstep : Step d s t s')
    (htally : t.call.tally d t.env { s with timestamp := t.env.timestamp } = some x) :
    Effects d t.env.sender (TroveManager.Liquidated s') { s with timestamp := t.env.timestamp } s' := by
  obtain ⟨l, rfl, h⟩ := hstep.tallied hd htally
  obtain ⟨recovery, l₀, hstart, hsteps⟩ := t.call.tally_steps htally
  have hloop : Effects d t.env.sender _ l₀.system l.system := TroveManager.loop_effects hd hsteps
  rw [hstart.fresh.2] at hloop
  have hsettled : Effects d t.env.sender (fun _ => False) l.system s' :=
    TroveManager.settleLiquidation_effects hd hstep.1.external hloop.timestamp_eq h
  -- settling writes no trove
  have hstill : ∀ x, TroveManager.Liquidated l.system x → TroveManager.Liquidated s' x :=
    fun x hx => (hsettled.trovesLeft.trove x id).2.trans hx
  exact (hloop.mono hstill).trans (hsettled.mono fun _ => False.elim)

theorem Call.body_effects (hd : d.Wired) {env : Env} (hb : d.External env.sender)
    (htime : s.timestamp = env.timestamp) {call : Call} (hown : writable env.sender)
    (hany : ∀ a h m f, call = .redeemCollateral a h m f → ∀ x, writable x)
    (htally : call.tally d env s = none) (h : call.body d env s = .ok s') :
    Effects d env.sender writable s s' := by
  cases call with
  | openTrove => exact BorrowerOperations.openTrove_effects hd hown h
  | addColl | withdrawColl | withdrawLUSD | repayLUSD | adjustTrove =>
    exact BorrowerOperations.adjustTroveInternal_effects (a := ⟨env.sender, _, _, _, _, _, _⟩) hd hb hown h
  | closeTrove => exact BorrowerOperations.closeTrove_effects hd hb hown h
  | claimCollateral => exact BorrowerOperations.claimCollateral_effects hd hb h
  | redeemCollateral => exact TroveManager.redeemCollateral_effects hd (hany _ _ _ _ rfl) hb h
  | provideToSP => exact StabilityPool.provideToSP_effects hd hb htime h
  | withdrawFromSP => exact StabilityPool.withdrawFromSP_effects hd hb htime h
  | withdrawETHGainToTrove => exact StabilityPool.withdrawETHGainToTrove_effects hd hb htime hown h
  | registerFrontEnd => exact StabilityPool.registerFrontEnd_effects h
  | stake => exact LQTYStaking.stake_effects hd hb htime h
  | unstake => exact LQTYStaking.unstake_effects hd hb htime h
  | transferLUSD => exact Effects.transferLUSD (.inl rfl) h
  | approveLUSD =>
    obtain ⟨t, ht, rfl⟩ := System.onLUSDToken_ok.mp h
    obtain rfl := LUSDToken.approve_ok ht
    exact Effects.one .approveLUSD
  | transferLUSDFrom =>
    obtain ⟨t, ht, rfl⟩ := System.onLUSDToken_ok.mp h
    obtain ⟨-, hle, rfl⟩ := LUSDToken.transferFrom_ok ht
    exact Effects.one (.spendLUSD hle)
  | transferLQTY => exact Effects.transferLQTY htime (.inl rfl) h
  | approveLQTY =>
    obtain ⟨t, ht, rfl⟩ := System.onLQTYToken_ok.mp h
    obtain rfl := LQTYToken.approve_ok ht
    exact Effects.one .approveLQTY
  | transferLQTYFrom =>
    obtain ⟨t, ht, rfl⟩ := System.onLQTYToken_ok.mp h
    rw [← htime] at ht
    have hlocked := LQTYToken.transferFrom_locked ht
    obtain ⟨-, hbalance, hle, rfl⟩ := LQTYToken.transferFrom_ok ht
    exact Effects.one (.spendLQTY hle hbalance hlocked)
  | _ => cases htally

/-- Ether that comes with a call is the sender's. -/
theorem Call.receiveValue_effects (hd : d.Wired) {env : Env} (hb : d.External env.sender) {call : Call}
    (h : call.receiveValue d env s = .ok s') : Effects d env.sender writable s s' := by
  unfold receiveValue at h
  split at h
  · cases h
    exact .refl
  · simp only [bind_ok, require_ok, pure_ok] at h
    obtain ⟨-, -, -, hle, rfl⟩ := h
    refine Effects.payOutside (.inl rfl) hle fun q hq => ?_
    simp only [List.mem_cons, List.not_mem_nil, or_false] at hq
    rcases hq with rfl | rfl | rfl | rfl
    · exact ⟨hb.ne_activePool.symm, hd.borrowerOperations_ne_activePool.symm⟩
    · exact ⟨hb.ne_defaultPool.symm, hd.get_ne (show (3 : Fin 13) ≠ 0 by decide)⟩
    · exact ⟨hb.ne_stabilityPool.symm, hd.get_ne (show (4 : Fin 13) ≠ 0 by decide)⟩
    · exact ⟨hb.ne_collSurplusPool.symm, hd.get_ne (show (6 : Fin 13) ≠ 0 by decide)⟩

/-- Every transaction is a sequence of effects that its sender or the contracts pay for. -/
theorem Step.effects (hd : d.Wired) {t : Transaction} (h : Step d s t s') :
    Effects d t.env.sender (t.Writes s') { s with timestamp := t.env.timestamp } s' := by
  have hother : (∀ s, t.call.tally d t.env s = none) → t.Writes s' t.env.sender →
      (∀ a h m f, t.call = .redeemCollateral a h m f → ∀ x, t.Writes s' x) →
      Effects d t.env.sender (t.Writes s') { s with timestamp := t.env.timestamp } s' := by
    intro htally hown hany
    obtain ⟨hvalid, h⟩ := h
    obtain ⟨s₁, h₁, h⟩ := bind_ok.mp h
    have harrived : Effects d t.env.sender (t.Writes s') _ s₁ :=
      Call.receiveValue_effects hd hvalid.external h₁
    exact harrived.trans
      (Call.body_effects hd hvalid.external harrived.timestamp_eq hown hany (htally s₁) h)
  obtain ⟨env, call⟩ := t
  cases call with
  | liquidate | liquidateTroves | batchLiquidateTroves => exact liquidation_effects hd h rfl
  | redeemCollateral => exact hother (fun _ => rfl) trivial fun _ _ _ _ _ _ => trivial
  | _ => exact hother (fun _ => rfl) rfl fun _ _ _ _ hcall => by cases hcall

end Liquity
