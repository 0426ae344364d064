import Liquity.Subgraph.Operations

/-!
# The log of a redemption

A redemption reports every trove that it takes a lot from.  The last trove may only have its rewards
applied: then nothing is reported afterwards that would correct the snapshots of the subgraph.
-/

open Lib

namespace Liquity

open SafeMath LiquityMath TroveManager

namespace Subgraph

variable {d : Deployment} {s s' : System} {ι : InFlight} {exact : Prop} {b : Address} {price : Nat}
  {t t₀ : TroveManager}

/-! ## When the snapshots follow -/

/-- The open trove that an event reports with a stake: the subgraph takes its snapshots. -/
def Event.reported : Event → Option Address
  | .troveUpdatedByBorrower b _ _ stake .adjustTrove | .troveUpdated b _ _ stake .redeemCollateral =>
    if stake ≠ 0 then some b else none
  | _ => none

/-- The trove whose rewards an event reports. -/
def Event.rewarded : Event → Option Address
  | .troveUpdated b _ _ _ .applyPendingRewards => some b
  | _ => none

/-- The log of a transaction that started in `t` tells the snapshots of all troves that it changes. -/
structure SnapshotsFollow (t : TroveManager) (log : List Event) : Prop where
  current : ∀ e ∈ log, ∀ b ∈ Event.reported e, SnapshotCurrent b t
  /-- What is applied last is not corrected. -/
  last : ∀ e ∈ log.getLast?, ∀ b ∈ Event.rewarded e, ¬ t.RewardsVanish b

/-- Only the troves that occur in the log are looked at. -/
instance (t : TroveManager) (log : List Event) : Decidable (SnapshotsFollow t log) :=
  decidable_of_iff ((∀ e ∈ log, (Event.reported e).all (fun b => decide (SnapshotCurrent b t)) = true) ∧
      log.getLast?.all (fun e => (Event.rewarded e).all fun b => decide (¬ t.RewardsVanish b)) = true)
    ⟨fun h => ⟨fun e he => by simpa [Option.all_eq_true] using h.1 e he,
      fun e he => by simpa [Option.all_eq_true] using (Option.all_eq_true _ _).mp h.2 e he⟩,
    fun h => ⟨fun e he => by simpa [Option.all_eq_true] using h.current e he,
      (Option.all_eq_true _ _).mpr fun e he => by simpa [Option.all_eq_true] using h.last e he⟩⟩

theorem SnapshotsFollow.of_append (log : List Event) {log' : List Event}
    (h : SnapshotsFollow t (log ++ log')) : SnapshotsFollow t log' := by
  refine ⟨fun e he => h.current e (List.mem_append_right _ he), fun e he => h.last e ?_⟩
  rw [List.getLast?_append]
  rw [Option.mem_def] at he ⊢
  rw [he]
  rfl

theorem hasPendingRewards_of_active (h : (t.troves b).status = .active) :
    t.hasPendingRewards b = true ↔ (t.rewardSnapshots b).ETH < t.L_ETH := by
  simp [hasPendingRewards, h]

/-- What is said of a trove when the transaction starts still holds when the trove is reached. -/
theorem snapshotCurrent_kept (h : RewardsKept t₀ t) (hactive : (t.troves b).status = .active)
    (hcurrent : SnapshotCurrent b t₀) : SnapshotCurrent b t := by
  unfold SnapshotCurrent at hcurrent ⊢
  obtain ⟨hactive₀, hsame | ⟨-, happlied⟩⟩ := h.trove b hactive
  · rw [hasPendingRewards_of_active hactive₀] at hcurrent
    rw [hasPendingRewards_of_active hactive, hsame.snapshot, h.L_ETH, h.L_LUSDDebt]
    exact hcurrent
  · right
    rw [happlied.snapshot, h.L_LUSDDebt]
    simp [TroveManager.applied]

theorem rewardsVanish_kept (h : RewardsKept t₀ t) (hactive : (t.troves b).status = .active)
    (hvanish : t.RewardsVanish b) : t₀.RewardsVanish b := by
  obtain ⟨hpending, hstake, hETH, hdebt⟩ := hvanish
  rw [hasPendingRewards_of_active hactive] at hpending
  obtain ⟨hactive₀, hsame | ⟨-, happlied⟩⟩ := h.trove b hactive
  · simp only [pendingETH, pendingLUSDDebt, hsame.snapshot, hsame.stake, h.L_ETH, h.L_LUSDDebt]
      at hpending hstake hETH hdebt
    exact ⟨(hasPendingRewards_of_active hactive₀).mpr hpending, hstake, hETH, hdebt⟩
  · -- rewards that were applied before are not pending
    rw [happlied.snapshot, h.L_ETH] at hpending
    simp [TroveManager.applied] at hpending

/-! ## One trove -/

/-- The contracts in the middle of a redemption: what is drawn has left the totals. -/
def redemptionView (exact : Prop) (price : Nat) (r : RedemptionState) : View :=
  { view exact (some price) r.system with
    coll := (r.system.activePool.ETH + r.system.defaultPool.ETH : Nat) - r.totalETHDrawn
    debt := (r.system.activePool.LUSDDebt + r.system.defaultPool.LUSDDebt : Nat) - r.totalLUSDToRedeem }

/-- A lot is taken from a trove whose rewards were applied. -/
theorem redeemCollateralFromTrove_emits {hints : RedemptionHints} {r : RedemptionState}
    {single : SingleRedemptionValues × System} (hd : d.Wired) (hs : Sound d r.system ι)
    (hs' : Sound d single.2 ⟨ι.coll + single.1.ETHLot, ι.debt + single.1.LUSDLot, ι.gas⟩)
    (hremaining : 0 < r.remainingLUSD)
    (hactive : (r.system.troveManager.troves b).status = .active)
    (hcurrent : exact → (single.2.troveManager.troves b).stake ≠ 0 →
      r.system.troveManager.rewardSnapshots b =
        ⟨r.system.troveManager.L_ETH, r.system.troveManager.L_LUSDDebt⟩)
    (h : redeemCollateralFromTrove d b r.remainingLUSD price hints r.system = .ok single)
    (hdone : single.1.cancelledPartial = false) :
    Emits exact { redemptionView exact price r with stale := insert b {_x | ¬ exact} }
      [updated .redeemCollateral b single.2.troveManager]
      (redemptionView exact price
        { remainingLUSD := r.remainingLUSD - single.1.LUSDLot
          totalLUSDToRedeem := r.totalLUSDToRedeem + single.1.LUSDLot
          totalETHDrawn := r.totalETHDrawn + single.1.ETHLot
          system := single.2 }) := by
  obtain ⟨coll, debt, rfl, rfl, hGAS, hlot, -, hETH, hcases⟩ := redeemCollateralFromTrove_ok h
  have hmin := hs.books.minDebt b hactive
  have hmin : Ledger.minDebt ≤ (r.system.troveManager.troves b).debt := hmin
  have hcoll : (r.system.troveManager.troves b).coll ≤ r.system.activePool.ETH := hs.books.coll_le b
  have hdebt : (r.system.troveManager.troves b).debt ≤ r.system.activePool.LUSDDebt :=
    hs.books.debt_le b
  have hpos := hs.books.coll_pos b hactive
  rcases hcases with ⟨hfull, -, hclosed⟩ | ⟨NICR, hpartial, -, hcases⟩
  · -- the trove is closed
    obtain ⟨-, -, hle, -, l, -, hsystem⟩ := redeemFully_ok hd hclosed
    rw [hsystem]
    refine (closed_emits rfl .redemption rfl hactive hpos subset_rfl).congr ?_
    simp only [redemptionView, view, View.mk.injEq, true_and, and_true]
    exact ⟨rfl, by omega, by omega⟩
  · -- the trove is kept
    obtain ⟨-, -, -, hpartially⟩ := hcases.resolve_left fun hcancelled => by
      rw [hcancelled.1] at hdone
      cases hdone
    obtain ⟨stake, l, -, -, hsystem⟩ := redeemPartially_ok hpartially
    have hself : (single.2.troveManager.troves b) = { r.system.troveManager.troves b with
        coll := (r.system.troveManager.troves b).coll - single.1.ETHLot
        debt := (r.system.troveManager.troves b).debt - single.1.LUSDLot
        stake } := by
      rw [hsystem]
      exact Function.update_self ..
    have hactive' : (single.2.troveManager.troves b).status = .active := by
      rw [hself]
      exact hactive
    have hminNetDebt : 0 < MIN_NET_DEBT := by decide
    unfold Ledger.minDebt at hmin
    refine (reported_emits rfl .redemption ?_ ?_ hactive' (hs'.books.coll_pos b hactive') subset_rfl
      fun hexact hstake => ?_).congr ?_
    · rw [hsystem]
      exact Writes.adjusted ..
    · -- there is always something to take
      simp only [redemptionView, view, hself]
      omega
    · have hsnapshot := hcurrent hexact hstake
      rw [hsystem]
      exact hsnapshot
    · have hpools : single.2.activePool = r.system.activePool ∧
          single.2.defaultPool = r.system.defaultPool ∧
          single.2.stabilityPool = r.system.stabilityPool := by
        rw [hsystem]
        exact ⟨rfl, rfl, rfl⟩
      simp only [redemptionView, view, View.mk.injEq, hself, hpools, true_and, and_true]
      omega

/-! ## The loop -/

section Loop

variable {hints : RedemptionHints} {r r' : RedemptionState} {currentBorrower : Address}
  {rounds maxIterations : Nat}

/-- The events of a round that does not revert. -/
theorem redemptionLog_succ {s₁ : System} {single : SingleRedemptionValues × System}
    (hcontinue : currentBorrower ≠ 0 ∧ 0 < r.remainingLUSD ∧ 0 < maxIterations)
    (hs₁ : applyPendingRewardsInternal d currentBorrower r.system = .ok s₁)
    (hsingle : redeemCollateralFromTrove d currentBorrower r.remainingLUSD price hints s₁ = .ok single) :
    redemptionLog d price hints (rounds + 1) currentBorrower maxIterations r =
      applyPendingRewardsLog currentBorrower r.system.troveManager ++
        if single.1.cancelledPartial then []
        else
          updated .redeemCollateral currentBorrower single.2.troveManager ::
            redemptionLog d price hints rounds (r.system.sortedTroves.getPrev currentBorrower)
              (maxIterations - 1)
              { remainingLUSD := r.remainingLUSD - single.1.LUSDLot
                totalLUSDToRedeem := r.totalLUSDToRedeem + single.1.LUSDLot
                totalETHDrawn := r.totalETHDrawn + single.1.ETHLot
                system := single.2 } := by
  rw [redemptionLog, if_pos hcontinue]
  exact congrArg _ (eventsAfter_ok _ (bind_ok.mpr ⟨s₁, hs₁, hsingle⟩))

theorem redemptionLoop_emits (hd : d.Wired) (hs : Sound d s .none)
    (hpast : (s.ledger .none).SnapshotsPast) (hr : Evolves d AnyMove s .none r.system r.inFlight)
    (hkept : RewardsKept s.troveManager r.system.troveManager ∨ r.remainingLUSD = 0)
    (h : redemptionLoop d price hints rounds currentBorrower maxIterations r = .ok r')
    (hfollow : exact →
      SnapshotsFollow s.troveManager (redemptionLog d price hints rounds currentBorrower maxIterations r)) :
    Emits exact (redemptionView exact price r)
      (redemptionLog d price hints rounds currentBorrower maxIterations r)
      (redemptionView exact price r') := by
  induction rounds generalizing currentBorrower maxIterations r with
  | zero => simp [redemptionLoop] at h
  | succ rounds ih =>
    unfold redemptionLoop at h
    split at h
    next hcontinue =>
      simp only [bind_ok] at h
      obtain ⟨s₁, hs₁, single, hsingle, h⟩ := h
      rw [redemptionLog_succ hcontinue hs₁ hsingle] at hfollow ⊢
      have hsr := hr.sound hd hs
      have hkept := hkept.resolve_right hcontinue.2.1.ne'
      obtain ⟨e₁, happlied⟩ := applyPendingRewardsInternal_evolves hd hsr
        (fun L => AnyMove.all L _) hs₁
      have hs₁' := e₁.sound hd hsr
      have hpastr := snapshotsPast_of_evolves hd hs hpast hr
      have hview₁ : redemptionView exact price { r with system := s₁ } =
          { redemptionView exact price r with troveManager := s₁.troveManager } := by
        simp only [redemptionView, view, happlied.stabilityPool, happlied.pools.1, happlied.pools.2]
      have hactive : (s₁.troveManager.troves currentBorrower).status = .active := by
        by_contra hinactive
        obtain ⟨coll, debt, -, rfl, hGAS, -⟩ := redeemCollateralFromTrove_ok hsingle
        rw [(hs₁'.registered.inactive _ hinactive).2.1] at hGAS
        exact absurd hGAS (by decide)
      have hactive₀ : (r.system.troveManager.troves currentBorrower).status = .active :=
        (happlied.status currentBorrower).symm.trans hactive
      have hpos := hsr.books.coll_pos _ hactive₀
      have hcases := redeemCollateralFromTrove_evolves hd hs₁' (fun L => AnyMove.all L _)
        (happlied.rewardsKept hkept) happlied.settled (fun _ _ _ => AnyMove.all _ _) hsingle
      rcases hcases with ⟨hcancelled, hsame⟩ | ⟨hdone, e₂, hlot, hkept'⟩
      · -- only the rewards are kept
        simp only [hcancelled, if_true] at h hfollow ⊢
        cases h
        rw [List.append_nil] at hfollow ⊢
        rw [hsame, hview₁]
        refine applyPendingRewards_emits happlied rfl rfl hactive₀ hpos subset_rfl
          fun hexact hvanish => ?_
        have hlast : (applyPendingRewardsLog currentBorrower r.system.troveManager).getLast? =
            some (updated .applyPendingRewards currentBorrower
              (r.system.troveManager.applied currentBorrower)) := by
          rw [applyPendingRewardsLog, if_pos hvanish.1]
          rfl
        exact absurd (rewardsVanish_kept hkept hactive₀ hvanish) ((hfollow hexact).last _ hlast _ rfl)
      · simp only [hdone, Bool.false_eq_true, if_false, bind_ok, add_ok, sub_ok] at h hfollow ⊢
        obtain ⟨_, ⟨-, rfl⟩, _, ⟨-, rfl⟩, _, ⟨-, rfl⟩, h⟩ := h
        have hrewards : Emits exact (redemptionView exact price r) _
            { redemptionView exact price { r with system := s₁ } with
              stale := insert currentBorrower {_x | ¬ exact} } :=
          (applyPendingRewards_emits happlied rfl rfl hactive₀ hpos (Set.subset_insert _ _)
            fun _ _ => Set.mem_insert _ _).congr (by rw [hview₁]; rfl)
        have hreport : Emits exact _ _ _ := redeemCollateralFromTrove_emits
          (r := { r with system := s₁ }) hd hs₁' (e₂.sound hd hs₁') hcontinue.2.1 hactive
          (fun hexact hstake => rewardSnapshots_applied happlied hactive₀ (hpastr _).1
            (snapshotCurrent_kept hkept hactive₀ ((hfollow hexact).current _
              (List.mem_append_right _ List.mem_cons_self) _ (if_pos hstake)))) hsingle hdone
        -- after a partial redemption nothing is left to redeem, and the loop stops
        have hrest := ih ((hr.trans e₁).trans e₂) (hkept'.imp_right fun heq => by simp only [heq, Nat.sub_self])
          h fun hexact => ((hfollow hexact).of_append _).of_append [_]
        exact hrewards.append (hreport.append hrest)
    next hstop =>
      cases h
      rw [redemptionLog, if_neg hstop]
      exact .nil _

/-- The payments take what was drawn out of the pools. -/
theorem settleRedemption_emits (hd : d.Wired) {env : Env} (hsender : d.External env.sender)
    {supply maxFee : Nat} (h : settleRedemption d env supply maxFee r = .ok s') :
    Emits exact (redemptionView exact price r) [] (view exact (some price) s') := by
  simp only [settleRedemption, bind_ok, sub_ok] at h
  obtain ⟨-, -, s₁, h₁, fee, -, -, -, s₂, h₂, s₃, h₃, rest, ⟨hfee, rfl⟩, s₄, h₄, s₅, h₅, h₆⟩ := h
  obtain ⟨t, ht, rfl⟩ := System.onTroveManager_ok.mp h₁
  obtain ⟨rate, time, rfl⟩ := updateBaseRateFromRedemption_ok ht
  obtain ⟨hfee', -, ether, rfl⟩ := ActivePool.sendETH_lqtyStaking hd h₂
  obtain ⟨l, -, rfl⟩ := System.onLQTYStaking_ok.mp h₃
  obtain ⟨token, -, rfl⟩ := System.onLUSDToken_ok.mp h₄
  obtain ⟨p, hp, rfl⟩ := System.onActivePool_ok.mp h₅
  obtain ⟨hdebt, rfl⟩ := ActivePool.decreaseLUSDDebt_ok hp
  obtain ⟨hrest, -, ether', rfl⟩ := ActivePool.sendETH_external hsender h₆
  have hrate : Emits exact (redemptionView exact price r) [] { redemptionView exact price r with
      troveManager := { r.system.troveManager with baseRate := rate, lastFeeOperationTime := time } } :=
    feeRate_emits rfl
  refine hrate.congr ?_
  dsimp only at hfee' hdebt hrest ⊢
  simp only [redemptionView, view, View.mk.injEq, true_and, and_true]
  omega

theorem redeemCollateral_emits (hd : d.Wired) (hs : Sound d s .none)
    (hpast : (s.ledger .none).SnapshotsPast) {env : Env} (hsender : d.External env.sender)
    {amount maxFee : Nat} (h : redeemCollateral d env amount hints maxIterations maxFee s = .ok s')
    (hfollow : exact → SnapshotsFollow s.troveManager
      (redeemCollateralLog d env.price amount hints maxIterations s)) :
    Emits exact (view exact (some env.price) s)
      (redeemCollateralLog d env.price amount hints maxIterations s)
      (view exact (some env.price) s') := by
  simp only [redeemCollateral, bind_ok] at h
  obtain ⟨-, -, -, -, -, -, -, -, -, -, supply, -, -, -, first, hfirst, r, hr, h⟩ := h
  unfold redeemCollateralLog at hfollow ⊢
  rw [eventsAfter_ok _ hfirst] at hfollow ⊢
  have hloop := redemptionLoop_emits hd hs hpast (.refl hs) (.inl (.refl _)) hr hfollow
  have hsettled := hloop.append (settleRedemption_emits hd hsender h)
  rw [List.append_nil] at hsettled
  convert hsettled using 1
  simp [redemptionView, view]

end Loop

end Subgraph

end Liquity
