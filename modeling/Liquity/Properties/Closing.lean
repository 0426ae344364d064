import Liquity.Liveness
import Liquity.Properties.Sorting
import Liquity.Properties.SystemRatio

/-!
# Borrowers can always close

A borrower who has the LUSD gets the collateral back: outside Recovery Mode, where another trove stays
open and the system is above the critical ratio without this one, closing a trove fails at most because
a number does not fit its width, and pays exactly the collateral for exactly the debt.
-/

open Lib

namespace Liquity

open SafeMath LiquityMath TroveManager BorrowerOperations

variable {d : Deployment} {s s' : System} {ι : InFlight} {b : Address} {amount : Nat}

/-! ## Paying the debt back -/

theorem BorrowerOperations.repayLUSDInternal_succeeds (hb : b ≠ 0) (hdebt : amount ≤ s.activePool.LUSDDebt)
    (hbalance : amount ≤ s.lusdToken.balances b) (hsupply : amount ≤ s.lusdToken.totalSupply) :
    ∃ s', repayLUSDInternal d b amount s = .ok s' := by
  obtain ⟨t, ht⟩ := LUSDToken.burn_of_le (d := d) (.inl rfl) hb hbalance hsupply
  simp only [repayLUSDInternal, bind_ok, System.onActivePool_ok, System.onLUSDToken_ok,
    ActivePool.decreaseLUSDDebt, ActivePool.requireCallerIsBOorTroveMorSP, require_ok, sub_ok, pure_ok]
  exact ⟨_, _, ⟨_, ⟨(), .inl trivial, _, ⟨hdebt, rfl⟩, rfl⟩, rfl⟩, t, ht, rfl⟩

/-- What a closed trove leaves is there: its debt in the Active Pool and in the supply, the gas reserve
in the gas pool, and its collateral in the Active Pool. -/
theorem repayAndWithdraw_succeeds (hd : d.Wired) (hb : d.External b) {repayment gas coll : Nat}
    (hs : PoolsBacked d s) (hcoll : coll ≤ s.activePool.ETH)
    (hdebt : repayment + gas ≤ s.activePool.LUSDDebt)
    (hbalance : repayment ≤ s.lusdToken.balances b)
    (hgas : gas ≤ s.lusdToken.balances d.gasPool)
    (hsupply : s.activePool.LUSDDebt ≤ s.lusdToken.totalSupply) :
    ∃ s', (do
      let s ← repayLUSDInternal d b repayment s
      let s ← repayLUSDInternal d d.gasPool gas s
      ActivePool.sendETH d d.borrowerOperations b coll s) = .ok s' := by
  have hgasPool : d.gasPool ≠ 0 := fun hzero => hd.zero_notMem (by simp [Deployment.contracts, hzero])
  obtain ⟨s₁, h₁⟩ : ∃ s₁, repayLUSDInternal d b repayment s = .ok s₁ :=
    repayLUSDInternal_succeeds hb.1 (by omega) hbalance (by omega)
  obtain ⟨-, -, -, hs₁⟩ := repayLUSDInternal_ok h₁
  obtain ⟨s₂, h₂⟩ : ∃ s₂, repayLUSDInternal d d.gasPool gas s₁ = .ok s₂ := by
    subst hs₁
    apply repayLUSDInternal_succeeds hgasPool
    · show _ ≤ s.activePool.LUSDDebt - repayment
      omega
    · show _ ≤ Ledger.debit s.lusdToken.balances b repayment d.gasPool
      rw [Ledger.debit_of_ne hb.ne_gasPool.symm]
      exact hgas
    · show _ ≤ s.lusdToken.totalSupply - repayment
      omega
  obtain ⟨-, -, -, hs₂⟩ := repayLUSDInternal_ok h₂
  have hpools : PoolsBacked d s₂ := by
    rw [hs₂, hs₁]
    exact ⟨hs.1, hs.2, hs.3, hs.4⟩
  have hETH : coll ≤ s₂.activePool.ETH := by
    rw [hs₂, hs₁]
    exact hcoll
  obtain ⟨s', hs'⟩ := ActivePool.sendETH_external_succeeds hpools (.inl rfl) hb hETH
  exact ⟨s', bind_ok.mpr ⟨s₁, h₁, bind_ok.mpr ⟨s₂, h₂, hs'⟩⟩⟩

/-! ## Closing a trove -/

namespace BorrowerOperations

/-- The trove of the sender can be closed: the system is not in Recovery Mode, the debt less the gas
reserve is there, and the system without the trove is above the critical ratio. -/
structure Closable (env : Env) (s : System) : Prop where
  active : (s.troveManager.troves env.sender).status = .active
  more : 1 < s.troveManager.troveOwners.length
  normal : ∀ TCR, s.getTCR env.price = .ok TCR → CCR ≤ TCR
  balance : s.troveManager.settledDebt env.sender - LUSD_GAS_COMPENSATION ≤
    s.lusdToken.balances env.sender
  left : ∀ TCR, computeCR (s.totalColl - s.troveManager.settledColl env.sender)
    (s.totalDebt - s.troveManager.settledDebt env.sender) env.price = .ok TCR → CCR ≤ TCR

theorem requireNotInRecoveryMode_onlyOverflows {price : Nat}
    (h : ∀ TCR, s.getTCR price = .ok TCR → CCR ≤ TCR) :
    OnlyOverflows (requireNotInRecoveryMode price s) := by
  unfold requireNotInRecoveryMode System.checkRecoveryMode
  refine Avoids.bind ?_ fun recovery hrecovery => ?_
  · refine Avoids.bind ?_ fun TCR _ => avoids_ok _
    unfold System.getTCR System.getEntireSystemColl System.getEntireSystemDebt
    refine (onlyOverflows_add _ _).bind fun _ _ => (onlyOverflows_add _ _).bind fun _ _ => ?_
    exact avoids_computeCR overflow_not_bad _ _ _
  · obtain ⟨TCR, hTCR, hmode⟩ := bind_ok.mp hrecovery
    obtain rfl := pure_ok.mp hmode
    have hle := h TCR hTCR
    exact avoids_of_ok ⟨(), require_ok.mpr (decide_eq_false (by omega))⟩

/-- Taking a trove's amounts off those of the system. -/
theorem getNewTCR_onlyOverflows {coll debt price : Nat} (hcoll : coll ≤ s.totalColl)
    (hdebt : debt ≤ s.totalDebt) :
    OnlyOverflows (getNewTCRFromTroveChange coll false debt false price s) := by
  unfold getNewTCRFromTroveChange System.getEntireSystemColl System.getEntireSystemDebt
  refine (onlyOverflows_add _ _).bind fun C hC => (onlyOverflows_add _ _).bind fun D hD => ?_
  obtain ⟨-, rfl⟩ := add_ok.mp hC
  obtain ⟨-, rfl⟩ := add_ok.mp hD
  refine Avoids.bind (avoids_checkedSub hcoll) fun _ _ => ?_
  refine Avoids.bind (avoids_checkedSub hdebt) fun _ _ => ?_
  exact avoids_computeCR overflow_not_bad _ _ _

/-- The amounts of a trove with its rewards applied are those that were settled before. -/
theorem settled_amounts (h : RewardsApplied b s s') (hactive : (s.troveManager.troves b).status = .active) :
    (s'.troveManager.troves b).coll = s.troveManager.settledColl b ∧
      (s'.troveManager.troves b).debt = s.troveManager.settledDebt b := by
  have hactive' := (h.status b).trans hactive
  exact (h.rewardsKept (RewardsKept.refl s.troveManager)).settled hactive' (h.settled hactive')

/-- Applying rewards opens and closes no trove. -/
theorem troveOwners_of_applied (h : RewardsApplied b s s') :
    s'.troveManager.troveOwners = s.troveManager.troveOwners := by
  rcases h.troveManager with heq | ⟨-, heq⟩
  · rw [heq]
  · rw [heq]
    rfl

theorem closeTrove_onlyOverflows (hd : d.Wired) (hs : InOrder d s .none) {env : Env}
    (hb : d.External env.sender) (hclosable : Closable env s) :
    OnlyOverflows (closeTrove d env s) := by
  unfold closeTrove
  refine (avoids_of_ok ⟨(), require_ok.mpr hclosable.active⟩).bind fun _ _ => ?_
  refine (requireNotInRecoveryMode_onlyOverflows hclosable.normal).bind fun _ _ => ?_
  refine Avoids.bind ?_ fun s₁ h₁ => ?_
  · refine (avoids_of_ok ⟨(), require_ok.mpr rfl⟩).bind fun _ _ => ?_
    exact applyPendingRewardsInternal_avoids overflow_not_bad hd hs hclosable.active
  obtain ⟨-, -, h₁⟩ := bind_ok.mp h₁
  obtain ⟨e₁, happlied⟩ := applyPendingRewardsInternal_evolves hd hs.sound PlainOnly.plain h₁
  have hs₁ := e₁.sound hd hs.sound
  have heffects : Effects d env.sender (fun x => x = env.sender) s s₁ :=
    applyPendingRewardsInternal_effects hd rfl h₁
  have hpools := heffects.conserved.pools hs.pools
  have hactive := (happlied.status env.sender).trans hclosable.active
  obtain ⟨hcoll, hdebt⟩ := settled_amounts happlied hclosable.active
  obtain ⟨hC, hD⟩ : s₁.totalColl = s.totalColl ∧ s₁.totalDebt = s.totalDebt := happlied.pools
  have hcollPart : (s₁.troveManager.troves env.sender).coll ≤ s₁.activePool.ETH :=
    hs₁.books.coll_le env.sender
  have hdebtPart : (s₁.troveManager.troves env.sender).debt ≤ s₁.activePool.LUSDDebt :=
    hs₁.books.debt_le env.sender
  have hmin : LUSD_GAS_COMPENSATION ≤ (s₁.troveManager.troves env.sender).debt :=
    (Nat.le_add_left _ MIN_NET_DEBT).trans (hs₁.books.minDebt env.sender hactive)
  -- the source computes the repayment with a checked subtraction
  refine (avoids_checkedSub hmin).bind fun repayment hrepayment => ?_
  obtain ⟨-, rfl⟩ := sub_ok.mp hrepayment
  have hbalance : (s₁.troveManager.troves env.sender).debt - LUSD_GAS_COMPENSATION ≤
      s₁.lusdToken.balances env.sender := by
    rw [hdebt, happlied.lusdToken]
    exact hclosable.balance
  refine (avoids_of_ok ⟨(), require_ok.mpr hbalance⟩).bind fun _ _ => ?_
  refine (getNewTCR_onlyOverflows (hcollPart.trans (Nat.le_add_right _ _))
    (hdebtPart.trans (Nat.le_add_right _ _))).bind fun newTCR hnew => ?_
  have hleft : CCR ≤ newTCR := by
    obtain ⟨-, -, C, D, hC', hD', hTCR⟩ := getNewTCRFromTroveChange_ok hnew
    obtain ⟨-, rfl⟩ := sub_ok.mp hC'
    obtain ⟨-, rfl⟩ := sub_ok.mp hD'
    rw [hC, hD, hcoll, hdebt] at hTCR
    exact hclosable.left newTCR hTCR
  refine (avoids_of_ok ⟨(), require_ok.mpr hleft⟩).bind fun _ _ => ?_
  have hmore : 1 < s₁.troveManager.troveOwners.length := by
    rw [troveOwners_of_applied happlied]
    exact hclosable.more
  have hclosed : ∃ t s₂, removeStakeInternal env.sender s₁.troveManager = .ok t ∧
      closeTroveInternal d env.sender .closedByOwner { s₁ with troveManager := t } = .ok s₂ :=
    removeStake_closeTrove_succeeds hs₁ (by decide) hactive hmore
  obtain ⟨t, s₂, ht, h₂⟩ := hclosed
  obtain ⟨-, -, l, -, hs₂⟩ := removeStake_closeTrove_ok ht h₂
  have hstake : s₁.onTroveManager (TroveManager.removeStake d d.borrowerOperations env.sender) =
      .ok { s₁ with troveManager := t } :=
    System.onTroveManager_ok.mpr ⟨t, bind_ok.mpr ⟨(), require_ok.mpr rfl, ht⟩, rfl⟩
  have hclose : TroveManager.closeTrove d d.borrowerOperations env.sender { s₁ with troveManager := t } =
      .ok s₂ := bind_ok.mpr ⟨(), require_ok.mpr rfl, h₂⟩
  rw [hstake, ok_bind, hclose, ok_bind]
  apply avoids_of_ok
  -- neither the registry nor the list matters for the payments
  have hpaid : PoolsBacked d s₂ := by
    rw [hs₂]
    exact ⟨hpools.1, hpools.2, hpools.3, hpools.4⟩
  have hgas := hs₁.books.gas_le hactive
  apply repayAndWithdraw_succeeds hd hb hpaid
  · rw [hs₂]
    exact hcollPart
  · rw [hs₂, Nat.sub_add_cancel hmin]
    exact hdebtPart
  · rw [hs₂]
    exact hbalance
  · rw [hs₂]
    exact (Nat.le_add_left _ _).trans hgas
  · rw [hs₂]
    exact (Nat.le_add_right _ _).trans_eq hs₁.books.supply.symm

/-- What a closed trove pays and costs. -/
structure Closed (b : Address) (s s' : System) : Prop where
  status : (s'.troveManager.troves b).status = .closedByOwner
  ether : s'.ether b = s.ether b + s.troveManager.settledColl b
  balance : s'.lusdToken.balances b + (s.troveManager.settledDebt b - LUSD_GAS_COMPENSATION) =
    s.lusdToken.balances b

/-- Rewards go from pool to pool. -/
theorem applyPendingRewardsInternal_ether {x : Address} (hx : d.External x)
    (h : applyPendingRewardsInternal d b s = .ok s') : s'.ether x = s.ether x := by
  unfold applyPendingRewardsInternal at h
  split at h
  next =>
    simp only [applyRewards, movePendingTroveRewardsToActivePool, bind_ok, System.onDefaultPool_ok,
      System.onActivePool_ok] at h
    obtain ⟨-, -, _, -, _, -, _, -, _, -, _, ⟨_, -, rfl⟩, _, ⟨_, -, rfl⟩, h⟩ := h
    rw [DefaultPool.sendETHToActivePool_ether h]
    exact move_of_ne hx.ne_defaultPool hx.ne_activePool
  next =>
    cases h
    rfl

/-- Of the payments only the last is in ether. -/
theorem closeTrove_ether {env : Env} (hb : d.External env.sender) (h : closeTrove d env s = .ok s') :
    ∃ s₁, applyPendingRewardsInternal d env.sender s = .ok s₁ ∧
      s'.ether env.sender = s.ether env.sender + (s₁.troveManager.troves env.sender).coll := by
  simp only [closeTrove, bind_ok, applyPendingRewards, TroveManager.closeTrove] at h
  obtain ⟨-, -, -, -, s₁, ⟨-, -, h₁⟩, _, -, -, -, _, -, -, -, s₂, h₂, s₃, ⟨-, -, h₃⟩, s₄, h₄, s₅, h₅, h₆⟩ := h
  obtain ⟨t, ht, rfl⟩ := System.onTroveManager_ok.mp h₂
  obtain ⟨-, -, hstake⟩ := bind_ok.mp ht
  obtain ⟨-, -, l, -, rfl⟩ := removeStake_closeTrove_ok hstake h₃
  obtain ⟨-, -, -, rfl⟩ := repayLUSDInternal_ok h₄
  obtain ⟨-, -, -, rfl⟩ := repayLUSDInternal_ok h₅
  refine ⟨s₁, h₁, ?_⟩
  rw [ActivePool.sendETH_ether h₆, move_target hb.ne_activePool.symm,
    ← applyPendingRewardsInternal_ether hb h₁]

theorem closeTrove_closed (hd : d.Wired) (hs : Sound d s .none) {env : Env} (hb : d.External env.sender)
    (h : closeTrove d env s = .ok s') : Closed env.sender s s' := by
  obtain ⟨s₀, h₀, hether⟩ := closeTrove_ether hb h
  obtain ⟨-, happlied₀⟩ := applyPendingRewardsInternal_evolves hd hs PlainOnly.plain h₀
  obtain ⟨s₁, l, ether, -, happlied, hactive, -, hbalance, -, -, rfl⟩ :=
    closeTrove_ok hd hs PlainOnly.plain hb h
  rw [happlied.status] at hactive
  obtain ⟨-, hdebt⟩ := settled_amounts happlied hactive
  rw [hdebt, happlied.lusdToken] at hbalance
  constructor
  · dsimp only
    rw [unregister_troves_self]
  · rw [hether, (settled_amounts happlied₀ hactive).1]
  · dsimp only
    rw [Ledger.debit_of_ne hb.ne_gasPool, Ledger.debit_self, hdebt, happlied.lusdToken]
    exact Nat.sub_add_cancel hbalance

/-- In every such state a borrower who holds the debt, less the gas reserve, gets the trove's whole
collateral for it: unless the system is or falls below the critical ratio, or no other trove is left,
closing fails at most because a number does not fit its width. -/
theorem borrowers_can_close (hd : d.Wired) (h : ReachableWhen d RestakesSettled s) {env : Env}
    (hvalid : Transaction.Valid d ⟨env, .closeTrove⟩ s) (hvalue : env.value = 0)
    (hclosable : Closable env s) :
    OnlyOverflows (Call.execute d env .closeTrove s) ∧
      ∀ s', Call.execute d env .closeTrove s = .ok s' → Closed env.sender s s' := by
  have hr := reachable_inOrder hd h
  have hs : InOrder d { s with timestamp := env.timestamp } .none :=
    ⟨{ hr.sound with }, { hr.pools with }, hr.rewards⟩
  unfold Call.execute Call.receiveValue
  rw [if_pos hvalue, ok_bind]
  constructor
  · apply closeTrove_onlyOverflows hd hs hvalid.external
    exact ⟨hclosable.active, hclosable.more, hclosable.normal, hclosable.balance, hclosable.left⟩
  · intro s' hs'
    obtain ⟨hstatus, hether, hbalance⟩ := closeTrove_closed hd hs.sound hvalid.external hs'
    exact ⟨hstatus, hether, hbalance⟩

/-- The first of two borrowers who share a redistribution closes the trove with LUSD of the other. -/
def sampleBuyout : List Transaction :=
  sampleShared ++ [⟨⟨101, 0, 10, 2000 * 10 ^ 18⟩, .transferLUSD 103 (500 * 10 ^ 18)⟩]

theorem borrowers_can_close_sample : ∃ s, ReachableWhen sampleDeployment RestakesSettled s ∧
    0 < s.troveManager.pendingLUSDDebt 103 ∧
    OnlyOverflows (Call.execute sampleDeployment ⟨103, 0, 60, 2000 * 10 ^ 18⟩ .closeTrove s) := by
  obtain ⟨s, hs, hpending, hvalid, hactive, hmore, hnormal, hbalance, hleft⟩ := exists_reachable
    (fun _ t => t.call.keepsStakes = true) sampleBuyout
    (fun s => 0 < s.troveManager.pendingLUSDDebt 103 ∧
      Transaction.Valid sampleDeployment ⟨⟨103, 0, 60, 2000 * 10 ^ 18⟩, .closeTrove⟩ s ∧
      (s.troveManager.troves 103).status = .active ∧ 1 < s.troveManager.troveOwners.length ∧
      CCR ≤ okOr (s.getTCR (2000 * 10 ^ 18)) 0 ∧
      s.troveManager.settledDebt 103 - LUSD_GAS_COMPENSATION ≤ s.lusdToken.balances 103 ∧
      CCR ≤ okOr (computeCR (s.totalColl - s.troveManager.settledColl 103)
        (s.totalDebt - s.troveManager.settledDebt 103) (2000 * 10 ^ 18)) 0) (by decide +kernel)
  have hsettled : ReachableWhen sampleDeployment RestakesSettled s :=
    Lib.Reachable.mono (fun _ _ => Call.keepsStakes.restakesSettled) hs
  refine ⟨s, hsettled, hpending,
    (borrowers_can_close sampleDeployment_wired hsettled hvalid rfl ⟨hactive, hmore, ?_, hbalance, ?_⟩).1⟩
  · intro TCR hTCR
    rwa [hTCR, okOr_ok] at hnormal
  · intro TCR hTCR
    rwa [hTCR, okOr_ok] at hleft

end BorrowerOperations

end Liquity
