import Liquity.Subgraph.Liquidations

/-!
# The logs of borrowers and redeemers

Every operation on a trove applies the pending rewards first and then reports the trove as it leaves it.
In between the subgraph may know less about the trove, until the second event tells it.
-/

open Lib

namespace Liquity

open TroveManager

namespace Subgraph

variable {d : Deployment} {s s' : System} {ι : InFlight} {exact : Prop} {b : Address} {price : Nat}
  {v : View}

/-- Every move is admitted. -/
def AnyMove (_ : Ledger) (_ : Label) : Prop := True

theorem AnyMove.all (L : Ledger) (label : Label) : AnyMove L label := trivial

/-! ## Rewards -/

/-- The snapshots after rewards are applied, unless the debt accumulator alone has moved. -/
theorem rewardSnapshots_applied (h : RewardsApplied b s s')
    (hactive : (s.troveManager.troves b).status = .active)
    (hpast : (s.troveManager.rewardSnapshots b).ETH ≤ s.troveManager.L_ETH)
    (hcurrent : s.troveManager.hasPendingRewards b = true ∨
      (s.troveManager.rewardSnapshots b).LUSDDebt = s.troveManager.L_LUSDDebt) :
    s'.troveManager.rewardSnapshots b = ⟨s'.troveManager.L_ETH, s'.troveManager.L_LUSDDebt⟩ := by
  have hsettled := h.settled ((h.status b).trans hactive)
  rcases h.troveManager with ht | ⟨-, ht⟩
  · rw [ht] at hsettled ⊢
    have hnone : s.troveManager.hasPendingRewards b = false := by
      simpa [hasPendingRewards, hactive] using hsettled
    have hdebt := hcurrent.resolve_left (by rw [hnone]; decide)
    rw [← hdebt, ← Nat.le_antisymm hpast hsettled]
  · rw [ht]
    exact Function.update_self ..

/-- The event of `_applyPendingRewards`, if there is one. -/
theorem applyPendingRewards_emits (h : RewardsApplied b s s')
    (hv : v.troveManager = s.troveManager) (hprice : v.price = some price)
    (hactive : (s.troveManager.troves b).status = .active)
    (hpos : 0 < (s.troveManager.troves b).coll) {stale : Set Address} (hstale : v.stale ⊆ stale)
    (hvanish : exact → s.troveManager.RewardsVanish b → b ∈ stale) :
    Emits exact v (applyPendingRewardsLog b s.troveManager)
      { v with troveManager := s'.troveManager, stale } := by
  have hsettled := h.settled ((h.status b).trans hactive)
  unfold applyPendingRewardsLog
  split
  next hpending =>
    have ht : s'.troveManager = s.troveManager.applied b := by
      refine (h.troveManager.resolve_left fun ht => ?_).2
      rw [ht] at hsettled
      have hlt : (s.troveManager.rewardSnapshots b).ETH < s.troveManager.L_ETH := by
        simpa [hasPendingRewards, hactive] using hpending
      omega
    rw [← hv] at hactive hpos ht hpending hvanish ⊢
    rw [ht]
    exact .single (.applied hprice hactive hpos hstale fun hexact hstake hETH hdebt =>
      hvanish hexact ⟨hpending, hstake, hETH, hdebt⟩)
  next hnone =>
    have ht : s'.troveManager = s.troveManager := h.troveManager.resolve_right fun ht => hnone ht.1
    rw [ht, ← hv]
    exact .single (.silent rfl rfl rfl rfl hstale)

/-! ## Reports -/

/-- A trove that stays open is reported, with its snapshots. -/
theorem reported_emits {t : TroveManager} {operation : TroveOperation} {e : Event}
    (hprice : v.price = some price) (hreports : Reports b (t.troves b) operation e)
    (hwrites : Writes b v.troveManager t)
    (hchanged : (t.troves b).coll ≠ (v.troveManager.troves b).coll ∨
      (t.troves b).debt ≠ (v.troveManager.troves b).debt)
    (hactive : (t.troves b).status = .active) (hpos : 0 < (t.troves b).coll)
    (hstale : v.stale ⊆ insert b {_x | ¬ exact})
    (hsnapshot : exact → (t.troves b).stake ≠ 0 → t.rewardSnapshots b = ⟨t.L_ETH, t.L_LUSDDebt⟩) :
    Emits exact v [e] { v with
      troveManager := t, stale := {_x | ¬ exact}
      coll := v.coll + ((t.troves b).coll - (v.troveManager.troves b).coll)
      debt := v.debt + ((t.troves b).debt - (v.troveManager.troves b).debt) } := by
  refine .single (.updated hprice hreports hwrites hchanged ?_ (fun hzero => absurd hzero hpos.ne') ?_
    fun hexact _ hstake => hsnapshot hexact hstake)
  · rw [statusLeft, if_neg hpos.ne', hactive]
  · rintro x ⟨hx, hne⟩
    exact (hstale hx).resolve_left hne

/-- A trove that is closed is reported as empty. -/
theorem closed_emits {operation : TroveOperation} {status : Status} {e : Event}
    (hprice : v.price = some price)
    (hreports : Reports b ((v.troveManager.unregister b status).troves b) operation e)
    (hstatus : status = statusLeft operation 0)
    (hactive : (v.troveManager.troves b).status = .active) (hpos : 0 < (v.troveManager.troves b).coll)
    (hstale : v.stale ⊆ insert b {_x | ¬ exact}) :
    Emits exact v [e] { v with
      troveManager := v.troveManager.unregister b status, stale := {_x | ¬ exact}
      coll := v.coll - (v.troveManager.troves b).coll
      debt := v.debt - (v.troveManager.troves b).debt } := by
  have hself : (v.troveManager.unregister b status).troves b =
      ⟨0, 0, 0, status, (v.troveManager.troves b).arrayIndex⟩ := unregister_troves_self
  have hemission : Emission exact v [e] { v with
      troveManager := v.troveManager.unregister b status, stale := {_x | ¬ exact}
      coll := v.coll + (((v.troveManager.unregister b status).troves b).coll -
        (v.troveManager.troves b).coll)
      debt := v.debt + (((v.troveManager.unregister b status).troves b).debt -
        (v.troveManager.troves b).debt) } := by
    refine .updated hprice hreports (Writes.unregister ..) ?_ ?_ (fun _ => hactive) ?_ ?_
    · rw [hself]
      exact .inl hpos.ne
    · rw [hself]
      exact hstatus
    · rintro x ⟨hx, hne⟩
      exact (hstale hx).resolve_left hne
    · intro _ _ hstake
      rw [hself] at hstake
      exact absurd rfl hstake
  have hview : Emits exact v [e] _ := .single hemission
  rw [hself] at hview
  simpa only [Nat.cast_zero, zero_sub, ← sub_eq_add_neg] using hview

/-! ## Borrowers -/

/-- Nothing that the subgraph knows depends on the fee rate. -/
theorem feeRate_emits {t : TroveManager} {rate time : Nat}
    (ht : t = { v.troveManager with baseRate := rate, lastFeeOperationTime := time }) :
    Emits exact v [] { v with troveManager := t } := by
  subst ht
  exact .single (.silent rfl rfl rfl rfl subset_rfl)

/-- An adjustment without any change is rejected. -/
theorem adjustTroveInternal_nonzero {env : Env} {a : BorrowerOperations.Adjustment}
    (h : BorrowerOperations.adjustTroveInternal d env a s = .ok s') :
    env.value ≠ 0 ∨ a.collWithdrawal ≠ 0 ∨ a.LUSDChange ≠ 0 := by
  simp only [BorrowerOperations.adjustTroveInternal, bind_ok, BorrowerOperations.requireValidAdjustment,
    BorrowerOperations.requireNonZeroAdjustment, require_ok] at h
  obtain ⟨-, -, -, ⟨-, -, -, -, -, hnonzero, -⟩, -⟩ := h
  exact hnonzero

/-- What an adjustment does to a trove: its collateral or its debt changes. -/
theorem adjustment_changes {env : Env} {a : BorrowerOperations.Adjustment} {s₁ : System}
    {r : Nat × System} {vars : BorrowerOperations.AdjustmentVars} {coll debt : Nat}
    (hnonzero : env.value ≠ 0 ∨ a.collWithdrawal ≠ 0 ∨ a.LUSDChange ≠ 0)
    (h : BorrowerOperations.AdjustmentMade d env a s s₁ r vars coll debt s') :
    coll ≠ (r.2.troveManager.troves a.borrower).coll ∨
      debt ≠ (r.2.troveManager.troves a.borrower).debt := by
  obtain ⟨hchange, hnet, hdebt, hcoll⟩ := BorrowerOperations.adjustmentVars_ok h.vars_ok
  rw [← hcoll, ← hdebt]
  have hcollChange := BorrowerOperations.applyChange_ok h.collChange
  have hdebtChange := BorrowerOperations.applyChange_ok h.debtChange
  unfold BorrowerOperations.getCollChange at hchange
  split at hchange
  next hvalue =>
    obtain ⟨hamount, -⟩ := Prod.mk.inj hchange
    omega
  next hvalue =>
    obtain ⟨hamount, -⟩ := Prod.mk.inj hchange
    omega

/-- The snapshots that the subgraph takes when a trove is reported are those of the contracts. -/
def SnapshotCurrent (b : Address) (t : TroveManager) : Prop :=
  t.hasPendingRewards b = true ∨ (t.rewardSnapshots b).LUSDDebt = t.L_LUSDDebt

instance (b : Address) (t : TroveManager) : Decidable (SnapshotCurrent b t) :=
  inferInstanceAs (Decidable (_ ∨ _))

section Borrowers

variable (hd : d.Wired) (hs : Sound d s ι)

include hd hs

theorem adjustTroveInternal_emits (hpast : (s.ledger ι).SnapshotsPast) {env : Env}
    {a : BorrowerOperations.Adjustment} (hb : d.External a.borrower)
    (h : BorrowerOperations.adjustTroveInternal d env a s = .ok s')
    (hcurrent : exact → (s'.troveManager.troves a.borrower).stake ≠ 0 →
      SnapshotCurrent a.borrower s.troveManager) :
    Emits exact (view exact (some price) s)
      (applyPendingRewardsLog a.borrower s.troveManager ++
        [BorrowerOperations.updated .adjustTrove a.borrower s'.troveManager])
      (view exact (some price) s') := by
  have hevolves : Evolves d AnyMove s ι s' ι := BorrowerOperations.adjustTroveInternal_evolves hd hs
    (fun L => AnyMove.all L _) hb (fun L _ _ _ _ _ => AnyMove.all L _) h
  have hs' := hevolves.sound hd hs
  obtain ⟨s₁, r, vars, coll, debt, -, hmade⟩ := BorrowerOperations.adjustTroveInternal_ok
    hd hs (fun L => AnyMove.all L _) hb h
  have hchanges := adjustment_changes (adjustTroveInternal_nonzero h) hmade
  have hactive : (s.troveManager.troves a.borrower).status = .active :=
    (hmade.applied.status a.borrower).symm.trans hmade.active
  obtain ⟨rate, time, staking, hfee⟩ := hmade.fee.eq
  obtain ⟨stake, -, htm⟩ := hmade.adjusted.troveManager
  have hrewards : Emits exact (view exact (some price) s)
      (applyPendingRewardsLog a.borrower s.troveManager)
      { view exact (some price) s with
        troveManager := s₁.troveManager, stale := insert a.borrower {_x | ¬ exact} } :=
    applyPendingRewards_emits hmade.applied rfl rfl hactive (hs.books.coll_pos _ hactive)
      (Set.subset_insert _ _) fun _ _ => Set.mem_insert _ _
  have hfees : Emits exact _ [] _ := feeRate_emits
    (v := { view exact (some price) s with
      troveManager := s₁.troveManager, stale := insert a.borrower {_x | ¬ exact} })
    (t := r.2.troveManager) (by rw [hfee])
  have hview : view exact (some price) s' = { view exact (some price) s with
      troveManager := s'.troveManager
      coll := (view exact (some price) s).coll + ((s'.troveManager.troves a.borrower).coll -
        (r.2.troveManager.troves a.borrower).coll)
      debt := (view exact (some price) s).debt + ((s'.troveManager.troves a.borrower).debt -
        (r.2.troveManager.troves a.borrower).debt) } := by
    have hpools := hmade.applied.pools
    have hETH := hmade.adjusted.activeETH
    have hLUSDDebt := hmade.adjusted.activeDebt
    have hdefault := hmade.adjusted.defaultPool
    have hdeposits := hmade.adjusted.stabilityPool
    have hactive' : r.2.activePool = s₁.activePool := by rw [hfee]
    have hdefault' : r.2.defaultPool = s₁.defaultPool := by rw [hfee]
    have hdeposits' : r.2.stabilityPool = s₁.stabilityPool := by rw [hfee]
    rw [hactive'] at hETH hLUSDDebt
    have hcoll : (s'.troveManager.troves a.borrower).coll = coll := by
      rw [htm]
      simp [adjusted]
    have hdebt : (s'.troveManager.troves a.borrower).debt = debt := by
      rw [htm]
      simp [adjusted]
    simp only [view, View.mk.injEq, hcoll, hdebt, hdefault, hdefault', hdeposits, hdeposits',
      hmade.applied.stabilityPool, true_and, and_true]
    omega
  have hstatus : (s'.troveManager.troves a.borrower).status = .active := by
    rw [htm]
    simpa [adjusted, hfee] using hmade.active
  refine hrewards.append (hfees.append ?_)
  rw [hview]
  refine reported_emits rfl (.borrower .adjustTrove) ?_ ?_ hstatus (hs'.books.coll_pos _ hstatus) subset_rfl
    fun hexact hstake => ?_
  · rw [htm]
    exact Writes.adjusted ..
  · rw [htm]
    simpa [adjusted] using hchanges
  · have hsnapshot := rewardSnapshots_applied hmade.applied hactive (hpast _).1
      (hcurrent hexact hstake)
    rw [htm, hfee]
    exact hsnapshot

theorem closeTrove_emits {env : Env} (hb : d.External env.sender)
    (h : BorrowerOperations.closeTrove d env s = .ok s') :
    Emits exact (view exact (some price) s)
      (applyPendingRewardsLog env.sender s.troveManager ++
        [BorrowerOperations.updated .closeTrove env.sender s'.troveManager])
      (view exact (some price) s') := by
  obtain ⟨s₁, l, ether, hevolves, happlied, hactive₁, -, -, -, -, rfl⟩ :=
    BorrowerOperations.closeTrove_ok hd hs (fun L => AnyMove.all L _) hb h
  have hs₁ := hevolves.sound hd hs
  have hactive := (happlied.status env.sender).symm.trans hactive₁
  have hrewards : Emits exact (view exact (some price) s)
      (applyPendingRewardsLog env.sender s.troveManager)
      { view exact (some price) s with
        troveManager := s₁.troveManager, stale := insert env.sender {_x | ¬ exact} } :=
    applyPendingRewards_emits happlied rfl rfl hactive (hs.books.coll_pos _ hactive)
      (Set.subset_insert _ _) fun _ _ => Set.mem_insert _ _
  have hcoll : (s₁.troveManager.troves env.sender).coll ≤ s₁.activePool.ETH :=
    hs₁.books.coll_le env.sender
  have hdebt : (s₁.troveManager.troves env.sender).debt ≤ s₁.activePool.LUSDDebt :=
    hs₁.books.debt_le env.sender
  refine hrewards.append ((closed_emits rfl (.borrower .closeTrove) rfl hactive₁
    (hs₁.books.coll_pos _ hactive₁) subset_rfl).congr ?_)
  have hpools := happlied.pools
  simp only [view, View.mk.injEq, happlied.stabilityPool, true_and, and_true]
  exact ⟨rfl, by omega, by omega⟩

end Borrowers

theorem openTrove_emits (hd : d.Wired) (hs : Sound d s .none) {env : Env} {maxFee amount : Nat}
    {upper lower : Address} (h : BorrowerOperations.openTrove d env maxFee amount upper lower s = .ok s') :
    Emits exact (view exact (some price) s)
      [BorrowerOperations.updated .openTrove env.sender s'.troveManager]
      (view exact (some price) s') := by
  have hevolves : Evolves d AnyMove s .none s' .none :=
    BorrowerOperations.openTrove_evolves hd hs (fun L _ => AnyMove.all L _) h
  have hs' := hevolves.sound hd hs
  obtain ⟨recovery, r, stake, l, ether, -, hr, hinactive, -, -, -, -, -, rfl⟩ :=
    BorrowerOperations.openTrove_ok hd hs h
  obtain ⟨rate, time, staking, hfee⟩ := (BorrowerOperations.openTroveFee_ok hr).eq
  obtain ⟨hcoll, hdebt, -⟩ := hs.registered.inactive _ hinactive
  have hempty : (r.2.troveManager.troves env.sender).coll = 0 ∧
      (r.2.troveManager.troves env.sender).debt = 0 := by
    rw [hfee]
    exact ⟨hcoll, hdebt⟩
  have hself : (r.2.troveManager.register env.sender env.value
      (amount + r.1 + LUSD_GAS_COMPENSATION) stake).troves env.sender =
        ⟨amount + r.1 + LUSD_GAS_COMPENSATION, env.value, stake, .active,
          r.2.troveManager.troveOwners.length⟩ := Function.update_self ..
  have hpos : 0 < ((r.2.troveManager.register env.sender env.value
      (amount + r.1 + LUSD_GAS_COMPENSATION) stake).troves env.sender).coll :=
    hs'.books.coll_pos env.sender (congrArg Liquity.Trove.status hself)
  -- the fee is charged first, which the subgraph does not see
  have hfees : Emits exact (view exact (some price) s) [] (view exact (some price) r.2) := by
    refine (feeRate_emits (t := r.2.troveManager) (by rw [hfee]; rfl)).congr ?_
    rw [hfee]
    rfl
  refine hfees.append ((reported_emits rfl (.borrower .openTrove) (Writes.register ..) ?_ ?_ hpos
    (Set.subset_insert _ _) fun _ _ => Function.update_self ..).congr ?_)
  · -- the gas reserve alone makes a new debt
    have hgas := LUSD_GAS_COMPENSATION_pos
    simp only [view, hself, hempty]
    omega
  · exact congrArg Liquity.Trove.status hself
  · simp only [view, View.mk.injEq, hself, hempty, true_and, and_true]
    omega

end Subgraph

end Liquity
