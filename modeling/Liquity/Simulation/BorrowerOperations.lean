import Liquity.Simulation.Redemption

/-!
# Simulation: borrower operations

Opening, adjusting and closing a trove are single moves of the ledger, after pending rewards were
applied.
-/

open Lib

namespace Liquity

open SafeMath LiquityMath TroveManager

variable {d : Deployment} {s s' : System} {ι : InFlight} {allow : Ledger → Label → Prop}
  {b : Address}

namespace Ledger

theorem credit_zero (f : Address → Nat) (a : Address) : credit f a 0 = f := by
  simp [credit]

end Ledger

namespace BorrowerOperations

open Ledger (credit)

/-! ## Fees and tokens -/

/-- The system after the stakers were credited with a fee: only the base rate and the stakers' own
sums change besides. -/
structure FeeCharged (d : Deployment) (fee : Nat) (s s' : System) : Prop where
  eq : ∃ baseRate lastFeeOperationTime lqtyStaking, s' = { s with
    troveManager := { s.troveManager with baseRate, lastFeeOperationTime }
    lqtyStaking
    lusdToken := { s.lusdToken with
      totalSupply := s.lusdToken.totalSupply + fee
      balances := credit s.lusdToken.balances d.lqtyStaking fee } }
  supply_lt : s.lusdToken.totalSupply < 2 ^ 256 → s'.lusdToken.totalSupply < 2 ^ 256

theorem FeeCharged.none (s : System) : FeeCharged d 0 s s :=
  ⟨⟨_, _, _, by rw [Ledger.credit_zero]; rfl⟩, id⟩

theorem triggerBorrowingFee_ok {timestamp amount maxFee : Nat} {r : Nat × System}
    (h : triggerBorrowingFee d timestamp amount maxFee s = .ok r) : FeeCharged d r.1 s r.2 := by
  simp only [triggerBorrowingFee, bind_ok, pure_ok, System.onTroveManager_ok,
    System.onLQTYStaking_ok, System.onLUSDToken_ok, decayBaseRateFromBorrowing] at h
  obtain ⟨_, ⟨t, ⟨-, -, rate, -, -, -, ht⟩, rfl⟩, fee, -, -, -, _, ⟨l, -, rfl⟩, _, ⟨token, htoken, rfl⟩,
    rfl⟩ := h
  obtain ⟨time, rfl⟩ := updateLastFeeOpTime_ok ht
  obtain ⟨hlt, rfl⟩ := LUSDToken.mint_ok htoken
  exact ⟨⟨rate, time, l, rfl⟩, fun _ => hlt⟩

theorem openTroveFee_ok {env : Env} {recovery : Bool} {maxFee amount : Nat} {r : Nat × System}
    (h : openTroveFee d env recovery maxFee amount s = .ok r) : FeeCharged d r.1 s r.2 := by
  unfold openTroveFee at h
  split at h
  · exact triggerBorrowingFee_ok h
  · cases h
    exact .none s

theorem adjustmentFee_ok {timestamp : Nat} {a : Adjustment} {recovery : Bool} {r : Nat × System}
    (h : adjustmentFee d timestamp a recovery s = .ok r) :
    FeeCharged d r.1 s r.2 ∧ (a.isDebtIncrease = false → r.1 = 0) := by
  unfold adjustmentFee at h
  split at h
  next hfee => exact ⟨triggerBorrowingFee_ok h, fun hdecrease => by simp [hdecrease] at hfee⟩
  next =>
    cases h
    exact ⟨.none s, fun _ => rfl⟩

theorem withdrawLUSDInternal_ok {amount net : Nat}
    (h : withdrawLUSDInternal d b amount net s = .ok s') :
    s.lusdToken.totalSupply + amount < 2 ^ 256 ∧ s' = { s with
      activePool := { s.activePool with LUSDDebt := s.activePool.LUSDDebt + net }
      lusdToken := { s.lusdToken with
        totalSupply := s.lusdToken.totalSupply + amount
        balances := credit s.lusdToken.balances b amount } } := by
  simp only [withdrawLUSDInternal, bind_ok, System.onActivePool_ok, System.onLUSDToken_ok] at h
  obtain ⟨_, ⟨p, hp, rfl⟩, t, ht, rfl⟩ := h
  obtain rfl := ActivePool.increaseLUSDDebt_ok hp
  obtain ⟨hlt, rfl⟩ := LUSDToken.mint_ok ht
  exact ⟨hlt, rfl⟩

theorem repayLUSDInternal_ok {amount : Nat} (h : repayLUSDInternal d b amount s = .ok s') :
    amount ≤ s.activePool.LUSDDebt ∧ amount ≤ s.lusdToken.balances b ∧
      amount ≤ s.lusdToken.totalSupply ∧ s' = { s with
      activePool := { s.activePool with LUSDDebt := s.activePool.LUSDDebt - amount }
      lusdToken := { s.lusdToken with
        totalSupply := s.lusdToken.totalSupply - amount
        balances := Ledger.debit s.lusdToken.balances b amount } } := by
  simp only [repayLUSDInternal, bind_ok, System.onActivePool_ok, System.onLUSDToken_ok] at h
  obtain ⟨_, ⟨p, hp, rfl⟩, t, ht, rfl⟩ := h
  obtain ⟨hdebt, rfl⟩ := ActivePool.decreaseLUSDDebt_ok hp
  obtain ⟨hbalance, hsupply, rfl⟩ := LUSDToken.burn_ok ht
  exact ⟨hdebt, hbalance, hsupply, rfl⟩

theorem activePoolAddColl_ok (hd : d.Wired) {amount : Nat}
    (h : activePoolAddColl d amount s = .ok s') :
    ∃ ether, s' = { s with
      activePool := { s.activePool with ETH := s.activePool.ETH + amount }, ether } ∧
      EtherKept d s s' :=
  System.callValue_activePool hd.borrowerOperations_ne_activePool (orRevert_ok.mp h)

/-! ## Opening a trove -/

/-- The setters that `openTrove` calls on the trove manager before it touches the list. -/
def openingWrites (d : Deployment) (b : Address) (coll debt : Nat) (t : TroveManager) :
    Tx TroveManager := do
  let t ← setTroveStatus d d.borrowerOperations b .active t
  let t ← increaseTroveColl d d.borrowerOperations b coll t
  let t ← increaseTroveDebt d d.borrowerOperations b debt t
  let t ← updateTroveRewardSnapshots d d.borrowerOperations b t
  updateStakeAndTotalStakes d d.borrowerOperations b t

theorem createTrove_eq (coll debt NICR : Nat) (upper lower : Address) :
    createTrove d b coll debt NICR upper lower s = (do
      let t ← openingWrites d b coll debt s.troveManager
      let l ← SortedTroves.insert t.getNominalICR d d.borrowerOperations b NICR upper lower
        s.sortedTroves
      let t ← addTroveOwnerToArray d d.borrowerOperations b t
      return { s with troveManager := t, sortedTroves := l }) := by
  simp only [createTrove, openingWrites, System.onTroveManager, System.onSortedTroves, bind_assoc,
    pure_bind]

theorem openingWrites_ok {t t' : TroveManager} {coll debt : Nat}
    (hempty : (t.troves b).coll = 0 ∧ (t.troves b).debt = 0 ∧ (t.troves b).stake = 0)
    (h : openingWrites d b coll debt t = .ok t') :
    ∃ stake, t.computeNewStake coll = .ok stake ∧ t' = { t with
      troves := Function.update t.troves b
        ⟨debt, coll, stake, .active, (t.troves b).arrayIndex⟩
      totalStakes := t.totalStakes + stake
      rewardSnapshots := Function.update t.rewardSnapshots b ⟨t.L_ETH, t.L_LUSDDebt⟩ } := by
  obtain ⟨hcoll, hdebt, hstake⟩ := hempty
  simp only [openingWrites, bind_ok, setTroveStatus, increaseTroveColl, increaseTroveDebt,
    updateTroveRewardSnapshots, updateStakeAndTotalStakes, pure_ok, add_ok] at h
  obtain ⟨_, ⟨-, -, rfl⟩, _, ⟨-, -, _, ⟨-, rfl⟩, rfl⟩, _, ⟨-, -, _, ⟨-, rfl⟩, rfl⟩, _, ⟨-, -, rfl⟩, -, -,
    h⟩ := h
  obtain ⟨stake, hnew, rfl⟩ := updateStakeAndTotalStakesInternal_ok h
  refine ⟨stake, ?_, ?_⟩
  · rw [← hnew]
    simp [setTrove, updateTroveRewardSnapshotsInternal, computeNewStake, hcoll]
  · simp [setTrove, adjusted, updateTroveRewardSnapshotsInternal, hcoll, hdebt, hstake]

/-- The setters that `openTrove` calls register the trove. -/
theorem createTrove_ok {coll debt NICR : Nat} {upper lower : Address}
    (hempty : (s.troveManager.troves b).coll = 0 ∧ (s.troveManager.troves b).debt = 0 ∧
      (s.troveManager.troves b).stake = 0)
    (hlength : s.troveManager.troveOwners.length < 2 ^ 128)
    (h : createTrove d b coll debt NICR upper lower s = .ok s') :
    ∃ (t : TroveManager) (stake : Nat) (l : SortedTroves),
      s.troveManager.computeNewStake coll = .ok stake ∧
      (∀ x, x ≠ b → t.getNominalICR x = s.troveManager.getNominalICR x) ∧
      SortedTroves.insert t.getNominalICR d d.borrowerOperations b NICR upper lower
        s.sortedTroves = .ok l ∧
      s' = { s with
        troveManager := s.troveManager.register b coll debt stake, sortedTroves := l } := by
  simp only [createTrove_eq, bind_ok, addTroveOwnerToArray, addTroveOwnerToArrayInternal, pure_ok,
    sub_ok] at h
  obtain ⟨t, ht, l, hl, _, ⟨-, -, _, ⟨-, rfl⟩, rfl⟩, rfl⟩ := h
  obtain ⟨stake, hstake, rfl⟩ := openingWrites_ok hempty ht
  refine ⟨_, stake, l, hstake, fun x hx => ?_, hl, ?_⟩
  · exact getNominalICR_congr (by simp [Function.update_of_ne hx])
      (by simp [Function.update_of_ne hx]) rfl rfl
  · simp only [setTrove, register, List.length_append, List.length_singleton, Nat.add_sub_cancel,
      Nat.mod_eq_of_lt hlength, Function.update_self, Function.update_idem]

/-- Every open trove holds at least one wei, so there are fewer of them than there is ether. -/
theorem length_owners_lt (hs : Sound d s ι) : s.troveManager.troveOwners.length < 2 ^ 128 := by
  have hnodup := hs.registered.owners_nodup
  have hcoll : s.troveManager.troveOwners.length ≤ ∑ x, (s.troveManager.troves x).coll := by
    calc s.troveManager.troveOwners.length = s.troveManager.troveOwners.toFinset.card :=
          (List.toFinset_card_of_nodup hnodup).symm
      _ = ∑ _x ∈ s.troveManager.troveOwners.toFinset, 1 := Finset.card_eq_sum_ones _
      _ ≤ ∑ x ∈ s.troveManager.troveOwners.toFinset, (s.troveManager.troves x).coll := by
          refine Finset.sum_le_sum fun x hx => hs.books.coll_pos x ?_
          exact (hs.registered.mem_owners x).mp (List.mem_toFinset.mp hx)
      _ ≤ ∑ x, (s.troveManager.troves x).coll :=
          Finset.sum_le_sum_of_subset (Finset.subset_univ _)
  have hactive := hs.books.activeETH
  have hle := hs.ether_le
  have hlt := hs.ether_lt
  have hsum := le_sum s.ether d.activePool
  simp only [System.ledger, books] at hactive
  omega

/-- What opening a trove leaves behind, once its fee was charged. -/
theorem openTrove_ok (hd : d.Wired) (hs : Sound d s .none) {env : Env} {maxFee amount : Nat}
    {upper lower : Address} (h : openTrove d env maxFee amount upper lower s = .ok s') :
    ∃ recovery r stake l ether, s.checkRecoveryMode env.price = .ok recovery ∧
      openTroveFee d env recovery maxFee amount s = .ok r ∧
      (s.troveManager.troves env.sender).status ≠ .active ∧ MIN_NET_DEBT ≤ amount + r.1 ∧
      s.troveManager.computeNewStake env.value = .ok stake ∧
      (∃ (t : TroveManager) (NICR : Nat),
        computeNominalCR env.value (amount + r.1 + LUSD_GAS_COMPENSATION) = .ok NICR ∧
        (∀ x, x ≠ env.sender → t.getNominalICR x = s.troveManager.getNominalICR x) ∧
        SortedTroves.insert t.getNominalICR d d.borrowerOperations env.sender NICR upper lower
          s.sortedTroves = .ok l) ∧
      EtherKept d r.2 s' ∧ s'.lusdToken.totalSupply < 2 ^ 256 ∧ s' = { r.2 with
        troveManager := r.2.troveManager.register env.sender env.value
          (amount + r.1 + LUSD_GAS_COMPENSATION) stake
        sortedTroves := l
        activePool := ⟨r.2.activePool.ETH + env.value,
          r.2.activePool.LUSDDebt + (amount + r.1) + LUSD_GAS_COMPENSATION⟩
        lusdToken := { r.2.lusdToken with
          totalSupply := r.2.lusdToken.totalSupply + amount + LUSD_GAS_COMPENSATION
          balances := credit (credit r.2.lusdToken.balances env.sender amount) d.gasPool
            LUSD_GAS_COMPENSATION }
        ether } := by
  simp only [openTrove, bind_ok, requireTroveisNotActive, requireAtLeastMinNetDebt, require_ok,
    add_ok, LiquityBase.getCompositeDebt] at h
  obtain ⟨recovery, hmode, -, -, -, hinactive, r, hr, net, ⟨-, rfl⟩, -, hmin, debt, ⟨-, rfl⟩, -, -, ICR,
    -, NICR, hNICR, -, -, s₁, h₁, s₂, h₂, s₃, h₃, h₄⟩ := h
  obtain ⟨rate, time, staking, hfee⟩ := (openTroveFee_ok hr).eq
  have hempty := hs.registered.inactive _ hinactive
  have hlength := length_owners_lt hs
  have hempty₁ : (r.2.troveManager.troves env.sender).coll = 0 ∧
      (r.2.troveManager.troves env.sender).debt = 0 ∧
      (r.2.troveManager.troves env.sender).stake = 0 := by
    rw [hfee]
    exact hempty
  have hlength₁ : r.2.troveManager.troveOwners.length < 2 ^ 128 := by
    rw [hfee]
    exact hlength
  obtain ⟨t, stake, l, hstake, hcongr, hl, rfl⟩ := createTrove_ok hempty₁ hlength₁ h₁
  obtain ⟨ether, rfl, hkept⟩ := activePoolAddColl_ok hd h₂
  obtain ⟨-, rfl⟩ := withdrawLUSDInternal_ok h₃
  obtain ⟨hsupply, rfl⟩ := withdrawLUSDInternal_ok h₄
  refine ⟨recovery, r, stake, l, ether, hmode, hr, hinactive, hmin, ?_, ⟨t, NICR, hNICR, ?_, ?_⟩,
    hkept.congr rfl rfl rfl rfl, hsupply, rfl⟩
  · rw [← hstake, hfee]
    rfl
  · intro x hx
    rw [hcongr x hx, hfee]
    rfl
  · rw [← hl, hfee]

theorem openTrove_evolves (hd : d.Wired) (hs : Sound d s .none) {env : Env} {maxFee amount : Nat}
    {upper lower : Address}
    (hregister : ∀ L, L.tm = s.troveManager.books → allow L (.register env.sender env.value))
    (h : openTrove d env maxFee amount upper lower s = .ok s') :
    Evolves d allow s .none s' .none := by
  obtain ⟨recovery, r, stake, l, ether, -, hr, hinactive, hmin, hstake, ⟨t, NICR, hNICR, hcongr, hl⟩,
    hkept, hsupply, rfl⟩ := openTrove_ok hd hs h
  obtain ⟨rate, time, staking, hfee⟩ := (openTroveFee_ok hr).eq
  generalize r.1 = fee at *
  rw [hfee] at hkept hsupply ⊢
  obtain ⟨hlist, hb, hnotMem, hpos, u, v, huv, horder, hfits⟩ := SortedTroves.insert_toList hs.list hl
  have hfits' : SortedTroves.Fits s.troveManager.getNominalICR NICR u v := by
    refine hfits.congr fun x hx => (hcongr x ?_).symm
    rintro rfl
    exact hnotMem (huv ▸ hx)
  refine Evolves.move (?_ : Ledger.Move d _ (.register env.sender env.value) _) (hregister _ rfl)
    hlist (hkept.congr rfl rfl rfl rfl)
  convert Ledger.Move.openTrove (L := s.ledger .none) hinactive hb hmin hNICR hpos hstake huv hfits'
    hsupply using 1
  simp only [System.ledger, horder]
  rfl

/-! ## Adjusting a trove -/

theorem applyChange_ok {inc : Bool} {amount change amount' : Nat}
    (h : applyChange inc amount change = .ok amount') :
    (inc = true ∧ amount' = amount + change) ∨
      (inc = false ∧ change ≤ amount ∧ amount' = amount - change) := by
  unfold applyChange at h
  split at h
  next hinc =>
    obtain ⟨-, rfl⟩ := add_ok.mp h
    exact .inl ⟨hinc, rfl⟩
  next hinc =>
    obtain ⟨hle, rfl⟩ := sub_ok.mp h
    exact .inr ⟨by simpa using hinc, hle, rfl⟩

theorem changeTroveColl_ok {change : Nat} {inc : Bool} (h : changeTroveColl d b change inc s = .ok s') :
    ∃ coll, applyChange inc (s.troveManager.troves b).coll change = .ok coll ∧
      s' = { s with troveManager :=
        s.troveManager.setTrove b { s.troveManager.troves b with coll } } := by
  cases inc <;>
  · simp only [changeTroveColl, Bool.false_eq_true, if_true, if_false, System.onTroveManager_ok,
      increaseTroveColl, decreaseTroveColl, bind_ok, pure_ok] at h
    obtain ⟨_, ⟨-, -, coll, hcoll, rfl⟩, rfl⟩ := h
    exact ⟨coll, hcoll, rfl⟩

theorem changeTroveDebt_ok {change : Nat} {inc : Bool} (h : changeTroveDebt d b change inc s = .ok s') :
    ∃ debt, applyChange inc (s.troveManager.troves b).debt change = .ok debt ∧
      s' = { s with troveManager :=
        s.troveManager.setTrove b { s.troveManager.troves b with debt } } := by
  cases inc <;>
  · simp only [changeTroveDebt, Bool.false_eq_true, if_true, if_false, System.onTroveManager_ok,
      increaseTroveDebt, decreaseTroveDebt, bind_ok, pure_ok] at h
    obtain ⟨_, ⟨-, -, debt, hdebt, rfl⟩, rfl⟩ := h
    exact ⟨debt, hdebt, rfl⟩

theorem updateTroveFromAdjustment_ok {collChange debtChange : Nat} {collInc debtInc : Bool}
    (h : updateTroveFromAdjustment d b collChange collInc debtChange debtInc s = .ok s') :
    ∃ coll debt, applyChange collInc (s.troveManager.troves b).coll collChange = .ok coll ∧
      applyChange debtInc (s.troveManager.troves b).debt debtChange = .ok debt ∧
      s' = { s with troveManager :=
        s.troveManager.setTrove b { s.troveManager.troves b with coll, debt } } := by
  obtain ⟨s₁, h₁, h⟩ := bind_ok.mp h
  obtain ⟨coll, hcoll, rfl⟩ := changeTroveColl_ok h₁
  obtain ⟨debt, hdebt, rfl⟩ := changeTroveDebt_ok h
  simp only [setTrove, Function.update_self, Function.update_idem] at hdebt ⊢
  exact ⟨coll, debt, hcoll, hdebt, rfl⟩

/-- The tokens follow the debt: what the trove owes more or less is what is minted, with the fee, or
burned. -/
theorem moveTokensFromAdjustment_ok {change net fee debt debt' : Nat} {inc : Bool}
    (hdebt : applyChange inc debt net = .ok debt') (hnet : change + fee = net)
    (hfee : inc = false → fee = 0)
    (hb : change = 0 ∨ b ≠ d.gasPool ∧ b ≠ d.stabilityPool)
    (h : moveTokensFromAdjustment d b change inc net s = .ok s') :
    ∃ LUSDDebt token, s' = { s with activePool := ⟨s.activePool.ETH, LUSDDebt⟩, lusdToken := token } ∧
      LUSDDebt + debt = s.activePool.LUSDDebt + debt' ∧
      token.totalSupply + debt + fee = s.lusdToken.totalSupply + debt' ∧
      (s.lusdToken.totalSupply < 2 ^ 256 → token.totalSupply < 2 ^ 256) ∧
      ∑ x, token.balances x + s.lusdToken.totalSupply =
        ∑ x, s.lusdToken.balances x + token.totalSupply ∧
      s.lusdToken.balances d.gasPool ≤ token.balances d.gasPool ∧
      s.lusdToken.balances d.stabilityPool ≤ token.balances d.stabilityPool ∧
      token.allowances = s.lusdToken.allowances := by
  rcases applyChange_ok hdebt with ⟨rfl, rfl⟩ | ⟨rfl, hle, rfl⟩
  · simp only [moveTokensFromAdjustment, if_true] at h
    obtain ⟨hlt, rfl⟩ := withdrawLUSDInternal_ok h
    refine ⟨_, _, rfl, by omega, ?_, fun _ => hlt, ?_, Ledger.le_credit _ _ _ _, Ledger.le_credit _ _ _ _, rfl⟩
    · simp only
      omega
    · simp only [Ledger.sum_credit]
      omega
  · simp only [moveTokensFromAdjustment, Bool.false_eq_true, if_false] at h
    obtain ⟨hactive, hbalance, hsupply, rfl⟩ := repayLUSDInternal_ok h
    have hzero := hfee rfl
    have hburn := Ledger.sum_debit hbalance
    have hkeep : ∀ c, (change ≠ 0 → b ≠ c) →
        s.lusdToken.balances c ≤ Ledger.debit s.lusdToken.balances b change c := by
      intro c hc
      by_cases hchange : change = 0
      · rw [hchange, Ledger.debit, Nat.sub_zero, Function.update_eq_self]
      · rw [Ledger.debit_of_ne (hc hchange).symm]
    refine ⟨_, _, rfl, by omega, ?_, fun hlt => (Nat.sub_le _ _).trans_lt hlt, ?_,
      hkeep _ fun hne => (hb.resolve_left hne).1, hkeep _ fun hne => (hb.resolve_left hne).2, rfl⟩
    · simp only
      omega
    · simp only
      omega

theorem moveETHFromAdjustment_ok (hd : d.Wired) {change coll coll' : Nat} {inc : Bool}
    (hcoll : applyChange inc coll change = .ok coll') (hb : inc = false → d.External b)
    (h : moveETHFromAdjustment d b change inc s = .ok s') :
    EtherKept d s s' ∧ ∃ ETH ether,
      s' = { s with activePool := ⟨ETH, s.activePool.LUSDDebt⟩, ether } ∧
      ETH + coll = s.activePool.ETH + coll' := by
  rcases applyChange_ok hcoll with ⟨rfl, rfl⟩ | ⟨rfl, hle, rfl⟩
  · simp only [moveETHFromAdjustment, if_true] at h
    obtain ⟨ether, rfl, hkept⟩ := activePoolAddColl_ok hd h
    exact ⟨hkept, _, ether, rfl, by omega⟩
  · simp only [moveETHFromAdjustment, Bool.false_eq_true, if_false] at h
    obtain ⟨hETH, hkept, ether, rfl⟩ := ActivePool.sendETH_external (hb rfl) h
    exact ⟨hkept, _, ether, rfl, by omega⟩

theorem adjustmentVars_ok {env : Env} {a : Adjustment} {fee : Nat} {vars : AdjustmentVars}
    (h : adjustmentVars env a fee s = .ok vars) :
    (vars.collChange, vars.isCollIncrease) = getCollChange env.value a.collWithdrawal ∧
      a.LUSDChange + fee = vars.netDebtChange ∧
      vars.debt = (s.troveManager.troves a.borrower).debt ∧
      vars.coll = (s.troveManager.troves a.borrower).coll := by
  simp only [adjustmentVars, bind_ok, pure_ok, add_ok] at h
  obtain ⟨_, ⟨-, rfl⟩, _, -, _, -, -, -, rfl⟩ := h
  exact ⟨rfl, rfl, rfl, rfl⟩

/-- A trove keeps the minimum debt: only repayments lower the debt, and they are checked. -/
theorem minDebt_of_repayment {a : Adjustment} {vars : AdjustmentVars} {fee debt' : Nat}
    (hmin : Ledger.minDebt ≤ vars.debt)
    (hdebt : applyChange a.isDebtIncrease vars.debt vars.netDebtChange = .ok debt')
    (hnet : a.LUSDChange + fee = vars.netDebtChange) (hfee : a.isDebtIncrease = false → fee = 0)
    (h : requireValidRepayment a vars s = .ok ()) : Ledger.minDebt ≤ debt' := by
  rcases applyChange_ok hdebt with ⟨-, rfl⟩ | ⟨hdec, hle, rfl⟩
  · exact hmin.trans (Nat.le_add_right _ _)
  · have hzero := hfee hdec
    unfold requireValidRepayment at h
    split at h
    · simp only [bind_ok, LiquityBase.getNetDebt, requireAtLeastMinNetDebt, require_ok, sub_ok] at h
      obtain ⟨_, ⟨hGAS, rfl⟩, _, ⟨hchange, rfl⟩, -, hnetDebt, -⟩ := h
      unfold Ledger.minDebt
      omega
    next hno =>
      have hchange : a.LUSDChange = 0 := by
        by_contra hne
        exact hno ⟨hdec, Nat.pos_of_ne_zero hne⟩
      omega

/-- What the state changes of an adjustment leave behind. -/
structure Adjusted (d : Deployment) (b : Address) (fee coll debt : Nat) (s s' : System) : Prop where
  defaultPool : s'.defaultPool = s.defaultPool
  stabilityPool : s'.stabilityPool = s.stabilityPool
  troveManager : ∃ stake, s.troveManager.computeNewStake coll = .ok stake ∧
    s'.troveManager = s.troveManager.adjusted b coll debt stake
  inserted : ∃ NICR upper lower, computeNominalCR coll debt = .ok NICR ∧
    SortedTroves.reInsert s'.troveManager.getNominalICR d d.borrowerOperations b NICR upper lower
      s.sortedTroves = .ok s'.sortedTroves
  activeETH : s'.activePool.ETH + (s.troveManager.troves b).coll = s.activePool.ETH + coll
  activeDebt : s'.activePool.LUSDDebt + (s.troveManager.troves b).debt =
    s.activePool.LUSDDebt + debt
  totalSupply : s'.lusdToken.totalSupply + (s.troveManager.troves b).debt + fee =
    s.lusdToken.totalSupply + debt
  supply_lt : s.lusdToken.totalSupply < 2 ^ 256 → s'.lusdToken.totalSupply < 2 ^ 256
  sum_balances : ∑ x, s'.lusdToken.balances x + s.lusdToken.totalSupply =
    ∑ x, s.lusdToken.balances x + s'.lusdToken.totalSupply
  gasPool : s.lusdToken.balances d.gasPool ≤ s'.lusdToken.balances d.gasPool
  stabilityPool_le : s.lusdToken.balances d.stabilityPool ≤ s'.lusdToken.balances d.stabilityPool
  allowances : s'.lusdToken.allowances = s.lusdToken.allowances
  ether : EtherKept d s s'

theorem performAdjustment_ok (hd : d.Wired) {sender : Address} {a : Adjustment}
    {vars : AdjustmentVars} {fee : Nat} (hnofee : a.isDebtIncrease = false → fee = 0)
    (hnet : a.LUSDChange + fee = vars.netDebtChange)
    (hdebteq : vars.debt = (s.troveManager.troves a.borrower).debt)
    (hcolleq : vars.coll = (s.troveManager.troves a.borrower).coll)
    (htokens : a.LUSDChange = 0 ∨ sender ≠ d.gasPool ∧ sender ≠ d.stabilityPool)
    (hETH : vars.isCollIncrease = false → d.External sender)
    (h : performAdjustment d sender a vars s = .ok s') :
    ∃ coll debt, applyChange vars.isCollIncrease vars.coll vars.collChange = .ok coll ∧
      applyChange a.isDebtIncrease vars.debt vars.netDebtChange = .ok debt ∧
      Adjusted d a.borrower fee coll debt s s' := by
  simp only [performAdjustment, bind_ok, moveTokensAndETHfromAdjustment,
    getNewNominalICRFromTroveChange, getNewTroveAmounts, pure_ok] at h
  obtain ⟨s₂, h₂, s₃, h₃, NICR, ⟨_, ⟨coll, hcoll, debt, hdebt, rfl⟩, hNICR⟩, s₄, h₄, s₅, h₅, h₆⟩ := h
  obtain ⟨coll', debt', hcoll', hdebt', rfl⟩ := updateTroveFromAdjustment_ok h₂
  rw [← hcolleq, hcoll] at hcoll'
  rw [← hdebteq, hdebt] at hdebt'
  cases hcoll'
  cases hdebt'
  simp only [System.onTroveManager_ok, updateStakeAndTotalStakes, bind_ok] at h₃
  obtain ⟨t, ⟨-, -, ht⟩, rfl⟩ := h₃
  obtain ⟨stake, hstake, rfl⟩ := updateStakeAndTotalStakesInternal_ok ht
  rw [computeNewStake_setTrove] at hstake
  dsimp only at h₄
  rw [adjusted_setTrove rfl] at h₄
  obtain ⟨l, hl, rfl⟩ := System.onSortedTroves_ok.mp h₄
  dsimp only at hl h₅
  obtain ⟨LUSDDebt, token, rfl, hLUSDDebt, hsupply, hlt, hsum, hgas, hpool, hallowances⟩ :=
    moveTokensFromAdjustment_ok hdebt hnet hnofee htokens h₅
  dsimp only at h₆
  obtain ⟨hkept, ETH, ether, rfl, hETHeq⟩ := moveETHFromAdjustment_ok hd hcoll hETH h₆
  rw [hcolleq] at hETHeq
  rw [hdebteq] at hLUSDDebt hsupply
  exact ⟨coll, debt, hcoll, hdebt, rfl, rfl, ⟨stake, hstake, rfl⟩, ⟨NICR, _, _, hNICR, hl⟩, hETHeq, hLUSDDebt,
    hsupply, hlt, hsum, hgas, hpool, hallowances, hkept.congr rfl rfl rfl rfl⟩

/-- A trove's ratio does not depend on another trove's amounts and stake. -/
theorem getNominalICR_adjusted (t : TroveManager) {x : Address} (hx : x ≠ b) (coll debt stake : Nat) :
    (t.adjusted b coll debt stake).getNominalICR x = t.getNominalICR x :=
  getNominalICR_congr (by simp [adjusted, Function.update_of_ne hx]) rfl rfl rfl

/-- Fee and state changes together are one move. -/
theorem Adjusted.evolves {s₁ : System} {fee coll debt : Nat} (hs : Sound d s ι)
    (hallow : allow (s.ledger ι) (.restake b coll))
    (hactive : (s.troveManager.troves b).status = .active)
    (hsettled : s.troveManager.L_ETH ≤ (s.troveManager.rewardSnapshots b).ETH)
    (hfee : FeeCharged d fee s s₁) (hmin : Ledger.minDebt ≤ debt)
    (h : Adjusted d b fee coll debt s₁ s') : Evolves d allow s ι s' ι := by
  have hlt := fun hlt => h.supply_lt (hfee.supply_lt hlt)
  obtain ⟨rate, time, staking, rfl⟩ := hfee.eq
  obtain ⟨stake, hstake, htm⟩ := h.troveManager
  obtain ⟨NICR, upper, lower, hNICR, hl⟩ := h.inserted
  obtain ⟨hlist, -, hpos, u, v, huv, horder, hfits⟩ := SortedTroves.reInsert_toList hs.list hl
  have hfits' : SortedTroves.Fits s.troveManager.getNominalICR NICR u v := by
    refine hfits.congr fun x hx => ?_
    have hxb : x ≠ b := by
      rintro rfl
      exact hs.registered.order_nodup.not_mem_erase (huv ▸ hx)
    rw [htm]
    exact (getNominalICR_adjusted _ hxb coll debt stake).symm
  have hsupply : s'.lusdToken.totalSupply + (s.troveManager.troves b).debt =
      s.lusdToken.totalSupply + debt := by
    have hfee := h.totalSupply
    simp only at hfee
    omega
  have hsum : ∑ x, s'.lusdToken.balances x + s.lusdToken.totalSupply =
      ∑ x, s.lusdToken.balances x + s'.lusdToken.totalSupply := by
    have hfee := h.sum_balances
    simp only [Ledger.sum_credit] at hfee
    omega
  have hm : Ledger.Move d (s.ledger ι) (.restake b coll)
      { s.ledger ι with
        balances := s'.lusdToken.balances
        totalSupply := s'.lusdToken.totalSupply
        activeETH := s'.activePool.ETH
        activeDebt := s'.activePool.LUSDDebt
        order := u ++ b :: v
        tm := (s.ledger ι).tm.adjusted b coll debt stake } :=
    .adjust hactive hsettled h.activeETH h.activeDebt hsupply hlt hsum
      ((Ledger.le_credit _ _ _ _).trans h.gasPool)
      ((Ledger.le_credit _ _ _ _).trans h.stabilityPool_le) hmin hNICR hpos hstake huv hfits'
  refine Evolves.move (?_ : Ledger.Move d _ (.restake b coll) _) hallow hlist
    (h.ether.congr rfl rfl rfl rfl)
  convert hm using 1
  simp only [System.ledger, horder, htm, h.defaultPool, h.stabilityPool, h.allowances]
  rfl

/-- A successful adjustment: `s₁` has the rewards applied, `r.2` has the fee `r.1` charged. -/
structure AdjustmentMade (d : Deployment) (env : Env) (a : Adjustment) (s s₁ : System)
    (r : Nat × System) (vars : AdjustmentVars) (coll debt : Nat) (s' : System) : Prop where
  active : (s₁.troveManager.troves a.borrower).status = .active
  applied : RewardsApplied a.borrower s s₁
  fee : FeeCharged d r.1 s₁ r.2
  vars_ok : adjustmentVars env a r.1 r.2 = .ok vars
  valid : ∃ recovery, s.checkRecoveryMode env.price = .ok recovery ∧
    requireValidAdjustmentInCurrentMode env.price recovery a vars r.2 = .ok ()
  collChange : applyChange vars.isCollIncrease vars.coll vars.collChange = .ok coll
  debtChange : applyChange a.isDebtIncrease vars.debt vars.netDebtChange = .ok debt
  minDebt_old : Ledger.minDebt ≤ vars.debt
  minDebt : Ledger.minDebt ≤ debt
  adjusted : Adjusted d a.borrower r.1 coll debt r.2 s'

/-- An adjustment by the borrower, or by the Stability Pool for one. -/
theorem adjustTroveInternal_ok (hd : d.Wired) (hs : Sound d s ι) (hplain : ∀ L, allow L .plain)
    {env : Env} {a : Adjustment} (hb : d.External a.borrower)
    (h : adjustTroveInternal d env a s = .ok s') :
    ∃ s₁ r vars coll debt, Evolves d allow s ι s₁ ι ∧
      AdjustmentMade d env a s s₁ r vars coll debt s' := by
  simp only [adjustTroveInternal, bind_ok, applyPendingRewards] at h
  obtain ⟨recovery, hmode, _, hvalid, s₁, ⟨-, -, h₁⟩, r, hr, vars, hvars, _, hmodeValid, _, hrepay, h⟩ := h
  simp only [requireValidAdjustment, requireTroveisActive, bind_ok, require_ok, assertThat_ok] at hvalid
  obtain ⟨-, -, -, -, -, -, -, hactive, hsender⟩ := hvalid
  obtain ⟨e₁, happlied⟩ := applyPendingRewardsInternal_evolves hd hs hplain h₁
  have hs₁ := e₁.sound hd hs
  have hactive₁ := (happlied.status a.borrower).trans hactive
  obtain ⟨hfee, hnofee⟩ := adjustmentFee_ok hr
  obtain ⟨hchange, hnet, hdebteq, hcolleq⟩ := adjustmentVars_ok hvars
  have htokens : a.LUSDChange = 0 ∨ env.sender ≠ d.gasPool ∧ env.sender ≠ d.stabilityPool := by
    rcases hsender with hself | ⟨-, -, hzero⟩
    · rw [hself]
      exact .inr ⟨hb.ne_gasPool, hb.ne_stabilityPool⟩
    · exact .inl hzero
  have hETH : vars.isCollIncrease = false → d.External env.sender := by
    intro hdecrease
    rcases hsender with hself | ⟨-, hvalue, -⟩
    · rw [hself]
      exact hb
    · -- the Stability Pool always brings ether
      simp only [getCollChange, if_pos hvalue.ne', Prod.mk.injEq] at hchange
      simp [hchange.2] at hdecrease
  obtain ⟨coll, debt, hcoll, hdebt, hadjusted⟩ :=
    performAdjustment_ok hd hnofee hnet hdebteq hcolleq htokens hETH h
  have hminOld : Ledger.minDebt ≤ vars.debt := by
    rw [hdebteq]
    obtain ⟨rate, time, staking, heq⟩ := hfee.eq
    rw [heq]
    exact hs₁.books.minDebt _ hactive₁
  have hmin := minDebt_of_repayment hminOld hdebt hnet hnofee hrepay
  exact ⟨s₁, r, vars, coll, debt, e₁, hactive₁, happlied, hfee, hvars, ⟨recovery, hmode, hmodeValid⟩,
    hcoll, hdebt, hminOld, hmin, hadjusted⟩

theorem adjustTroveInternal_evolves (hd : d.Wired) (hs : Sound d s ι) (hplain : ∀ L, allow L .plain)
    {env : Env} {a : Adjustment} (hb : d.External a.borrower)
    (hrestake : ∀ L coll, RewardsKept s.troveManager L.tm →
      (L.tm.troves a.borrower).status = .active →
      L.tm.L_ETH ≤ (L.tm.rewardSnapshots a.borrower).ETH →
      applyChange (getCollChange env.value a.collWithdrawal).2 (L.tm.troves a.borrower).coll
        (getCollChange env.value a.collWithdrawal).1 = .ok coll → allow L (.restake a.borrower coll))
    (h : adjustTroveInternal d env a s = .ok s') : Evolves d allow s ι s' ι := by
  obtain ⟨s₁, r, vars, coll, debt, e₁, hmade⟩ := adjustTroveInternal_ok hd hs hplain hb h
  have hkept := hmade.applied.rewardsKept (.refl s.troveManager)
  have hsettled := hmade.applied.settled hmade.active
  have hcoll : applyChange (getCollChange env.value a.collWithdrawal).2
      (s₁.troveManager.troves a.borrower).coll (getCollChange env.value a.collWithdrawal).1 =
        .ok coll := by
    obtain ⟨hchange, -, -, hcolleq⟩ := adjustmentVars_ok hmade.vars_ok
    obtain ⟨rate, time, staking, heq⟩ := hmade.fee.eq
    rw [← hchange, ← hmade.collChange, hcolleq, heq]
  exact e₁.trans (hmade.adjusted.evolves (e₁.sound hd hs)
    (hrestake _ coll hkept.books hmade.active hsettled hcoll) hmade.active hsettled hmade.fee
    hmade.minDebt)

/-! ## Closing a trove -/

/-- Paying back the debt and the gas reserve, and taking the collateral. -/
theorem repayAndWithdraw_ok {repayment gas coll : Nat} (hb : d.External b) {s₁ s₂ : System}
    (h₁ : repayLUSDInternal d b repayment s = .ok s₁)
    (h₂ : repayLUSDInternal d d.gasPool gas s₁ = .ok s₂)
    (h : ActivePool.sendETH d d.borrowerOperations b coll s₂ = .ok s') :
    EtherKept d s s' ∧ repayment ≤ s.lusdToken.balances b ∧ ∃ ether, s' = { s with
      activePool := ⟨s.activePool.ETH - coll, s.activePool.LUSDDebt - (repayment + gas)⟩
      lusdToken := { s.lusdToken with
        totalSupply := s.lusdToken.totalSupply - (repayment + gas)
        balances := Ledger.debit (Ledger.debit s.lusdToken.balances b repayment) d.gasPool gas }
      ether } := by
  obtain ⟨-, hbalance, -, rfl⟩ := repayLUSDInternal_ok h₁
  dsimp only at h₂
  obtain ⟨-, -, -, rfl⟩ := repayLUSDInternal_ok h₂
  dsimp only at h
  obtain ⟨-, hkept, ether, rfl⟩ := ActivePool.sendETH_external hb h
  refine ⟨hkept.congr rfl rfl rfl rfl, hbalance, ether, ?_⟩
  simp only [Nat.sub_add_eq]

/-- What closing a trove leaves behind: `s₁` has its rewards applied. -/
theorem closeTrove_ok (hd : d.Wired) (hs : Sound d s ι) (hplain : ∀ L, allow L .plain)
    {env : Env} (hb : d.External env.sender) (h : closeTrove d env s = .ok s') :
    ∃ s₁ l ether, Evolves d allow s ι s₁ ι ∧ RewardsApplied env.sender s s₁ ∧
      (s₁.troveManager.troves env.sender).status = .active ∧
      1 < s₁.troveManager.troveOwners.length ∧
      (s₁.troveManager.troves env.sender).debt - LUSD_GAS_COMPENSATION ≤
        s₁.lusdToken.balances env.sender ∧
      SortedTroves.remove d d.troveManager env.sender s₁.sortedTroves = .ok l ∧ EtherKept d s₁ s' ∧
      s' = { s₁ with
        troveManager := s₁.troveManager.unregister env.sender .closedByOwner
        sortedTroves := l
        activePool := ⟨s₁.activePool.ETH - (s₁.troveManager.troves env.sender).coll,
          s₁.activePool.LUSDDebt - (s₁.troveManager.troves env.sender).debt⟩
        lusdToken := { s₁.lusdToken with
          totalSupply := s₁.lusdToken.totalSupply - (s₁.troveManager.troves env.sender).debt
          balances := Ledger.debit (Ledger.debit s₁.lusdToken.balances env.sender
            ((s₁.troveManager.troves env.sender).debt - LUSD_GAS_COMPENSATION)) d.gasPool
              LUSD_GAS_COMPENSATION }
        ether } := by
  simp only [closeTrove, bind_ok, requireTroveisActive, require_ok, applyPendingRewards, sub_ok,
    TroveManager.closeTrove] at h
  obtain ⟨-, hactive, -, -, s₁, ⟨-, -, h₁⟩, _, ⟨hGAS, rfl⟩, -, -, _, -, -, -, s₂, h₂, s₃, ⟨-, -, h₃⟩, s₄,
    h₄, s₅, h₅, h₆⟩ := h
  obtain ⟨e₁, happlied⟩ := applyPendingRewardsInternal_evolves hd hs hplain h₁
  have hactive₁ := (happlied.status env.sender).trans hactive
  obtain ⟨t, ht, rfl⟩ := System.onTroveManager_ok.mp h₂
  obtain ⟨-, -, hstake⟩ := bind_ok.mp ht
  obtain ⟨-, hmore, l, hl, rfl⟩ := removeStake_closeTrove_ok hstake h₃
  obtain ⟨hkept, hbalance, ether, rfl⟩ := repayAndWithdraw_ok hb h₄ h₅ h₆
  have hdebt : (s₁.troveManager.troves env.sender).debt - LUSD_GAS_COMPENSATION +
      LUSD_GAS_COMPENSATION = (s₁.troveManager.troves env.sender).debt := Nat.sub_add_cancel hGAS
  refine ⟨s₁, l, ether, e₁, happlied, hactive₁, hmore, hbalance, hl, hkept.congr rfl rfl rfl rfl, ?_⟩
  simp only [hdebt]

theorem closeTrove_evolves (hd : d.Wired) (hs : Sound d s ι) (hplain : ∀ L, allow L .plain)
    {env : Env} (hb : d.External env.sender) (h : closeTrove d env s = .ok s') :
    Evolves d allow s ι s' ι := by
  obtain ⟨s₁, l, ether, e₁, -, hactive, hmore, hbalance, hl, hkept, rfl⟩ := closeTrove_ok hd hs hplain hb h
  have hs₁ := e₁.sound hd hs
  obtain ⟨hlist, horder⟩ := SortedTroves.remove_toList hs₁.list hl
  refine e₁.trans (Evolves.move (?_ : Ledger.Move d _ .plain _) (hplain _) hlist hkept)
  convert Ledger.Move.closeTrove (L := s₁.ledger ι) hactive (hs₁.registered.length_owners ▸ hmore)
    hb.ne_gasPool hb.ne_stabilityPool hbalance using 1
  simp only [System.ledger, horder]
  rfl

theorem claimCollateral_evolves (hs : Sound d s ι) (hd : d.Wired) {env : Env}
    (hb : d.External env.sender) (h : claimCollateral d env s = .ok s') :
    Evolves d allow s ι s' ι := by
  simp only [claimCollateral, CollSurplusPool.claimColl, bind_ok, orRevert_ok] at h
  obtain ⟨-, -, -, -, ETH, -, h⟩ := h
  obtain ⟨ether, rfl, hkept⟩ := System.callValue_external hd.collSurplusPool_ne_activePool hb h
  exact .silent hs rfl rfl (hkept.congr rfl rfl rfl rfl)

end BorrowerOperations

end Liquity
