import Liquity.Properties.RedemptionLots

/-!
# What a redemption takes and pays

The lots of a redemption are known from the state before.  All of them are burned from the redeemer
and their collateral is split between the redeemer and the stakers; a full lot closes its trove, burns
its gas reserve and leaves the rest of its collateral to its owner.
-/

open Lib

namespace Liquity

open SafeMath LiquityMath TroveManager

variable {d : Deployment} {s s' : System} {x : Address} {price : Nat}

/-! ## The lots as a list -/

section Plan

variable {t : TroveManager} {ids : List Address} {NICR amount iterations : Nat}

/-- The lots are taken in the order of the list, from as many troves as it takes. -/
theorem redemptionLots_borrowers :
    (t.redemptionLots price NICR ids amount iterations).map RedemptionLot.borrower <+: ids := by
  induction ids generalizing amount iterations with
  | nil => exact List.prefix_refl _
  | cons b rest ih =>
    unfold TroveManager.redemptionLots
    split
    · dsimp only
      split
      · exact List.prefix_cons_inj b |>.mpr ih
      · exact List.nil_prefix
    · exact List.nil_prefix

theorem redemptionLots_sum_le :
    ((t.redemptionLots price NICR ids amount iterations).map RedemptionLot.LUSD).sum ≤ amount := by
  induction ids generalizing amount iterations with
  | nil => exact Nat.zero_le _
  | cons b rest ih =>
    unfold TroveManager.redemptionLots
    split
    · dsimp only
      split
      · have hlot : (t.redemptionLot price amount b).LUSD ≤ amount := Nat.min_le_left _ _
        have hrest := @ih (amount - (t.redemptionLot price amount b).LUSD) (iterations - 1)
        rw [List.map_cons, List.sum_cons]
        omega
      · exact Nat.zero_le _
    · exact Nat.zero_le _

/-- Every lot is what its trove gives for some amount. -/
theorem redemptionLots_mem {lot : RedemptionLot}
    (h : lot ∈ t.redemptionLots price NICR ids amount iterations) :
    ∃ amount, lot = t.redemptionLot price amount lot.borrower := by
  induction ids generalizing amount iterations with
  | nil => cases h
  | cons b rest ih =>
    unfold TroveManager.redemptionLots at h
    split at h
    · dsimp only at h
      split at h
      · rcases List.mem_cons.mp h with rfl | h
        · exact ⟨amount, rfl⟩
        · exact ih h
      · cases h
    · cases h

/-- A partial lot is all that was left to redeem. -/
theorem redemptionLots_open {lot : RedemptionLot}
    (h : lot ∈ t.redemptionLots price NICR ids amount iterations)
    (hGAS : LUSD_GAS_COMPENSATION ≤ lot.debt) (hopen : lot.closes = false) :
    ((t.redemptionLots price NICR ids amount iterations).map RedemptionLot.LUSD).sum = amount := by
  induction ids generalizing amount iterations with
  | nil => cases h
  | cons b rest ih =>
    unfold TroveManager.redemptionLots at h ⊢
    split at h
    next hcontinue =>
      dsimp only at h ⊢
      rw [if_pos hcontinue]
      split at h
      next haccepted =>
        rw [if_pos haccepted, List.map_cons, List.sum_cons]
        have hle : (t.redemptionLot price amount b).LUSD ≤ amount := Nat.min_le_left _ _
        rcases List.mem_cons.mp h with rfl | h
        · have hall := redemptionLot_open hGAS hopen
          rw [hall, Nat.sub_self, redemptionLots_zero]
          rfl
        · rw [ih h]
          exact Nat.add_sub_cancel' hle
      next => cases h
    next => cases h

end Plan

/-! ## The lots one after the other -/

namespace LotsTaken

variable {lots : List RedemptionLot} {lot : RedemptionLot}

theorem setsAside (h : LotsTaken d lots s s') :
    SetsAside d (lots.map RedemptionLot.surplus).sum (lots.map RedemptionLot.reserve).sum s s' := by
  induction h with
  | done haside _ => exact haside
  | part _ htaken =>
    rw [List.map_singleton, List.map_singleton, List.sum_singleton, List.sum_singleton]
    exact htaken.toSetsAside
  | full _ htaken _ ih =>
    rw [List.map_cons, List.map_cons, List.sum_cons, List.sum_cons]
    exact htaken.toSetsAside.trans ih

theorem fits (h : LotsTaken d lots s s') (hmem : lot ∈ lots) :
    LUSD_GAS_COMPENSATION ≤ lot.debt ∧ lot.LUSD ≤ lot.debt - LUSD_GAS_COMPENSATION ∧
      lot.ETH ≤ lot.coll := by
  induction h with
  | done => cases hmem
  | part _ htaken =>
    obtain rfl := List.mem_singleton.mp hmem
    exact htaken.fits
  | full _ htaken _ ih =>
    rcases List.mem_cons.mp hmem with rfl | hmem
    · exact htaken.fits
    · exact ih hmem

theorem untouched (h : LotsTaken d lots s s') (hx : ∀ lot ∈ lots, lot.borrower ≠ x) :
    Untouched x s s' := by
  induction h with
  | done _ hquiet => exact hquiet x
  | part _ htaken => exact htaken.untouched x (hx _ (by simp)).symm
  | full _ htaken _ ih =>
    obtain ⟨hfirst, hrest⟩ := List.forall_mem_cons.mp hx
    exact (htaken.untouched x hfirst.symm).trans (ih hrest)

/-- A full lot closes its trove, and nothing reaches it again. -/
theorem closed (h : LotsTaken d lots s s') (hnodup : (lots.map RedemptionLot.borrower).Nodup)
    (hmem : lot ∈ lots) (hcloses : lot.closes = true) :
    (s'.troveManager.troves lot.borrower).status = .closedByRedemption ∧
      s'.troveManager.entireAmounts lot.borrower = .ok (0, 0) ∧
      s'.collSurplusPool.balances lot.borrower =
        s.collSurplusPool.balances lot.borrower + lot.surplus := by
  induction h with
  | done => cases hmem
  | part hopen _ =>
    obtain rfl := List.mem_singleton.mp hmem
    rw [hcloses] at hopen
    cases hopen
  | @full first rest s s₁ s' _ htaken hrest ih =>
    rw [List.map_cons, List.nodup_cons] at hnodup
    rcases List.mem_cons.mp hmem with rfl | hmem
    · have hkept := hrest.untouched fun other hother heq =>
        hnodup.1 (List.mem_map.mpr ⟨other, hother, heq⟩)
      obtain ⟨hstatus, hentire⟩ := htaken.closed hcloses
      exact ⟨hkept.status.trans hstatus, hkept.entireAmounts.trans hentire,
        hkept.surplus.trans htaken.surplus⟩
    · obtain ⟨hstatus, hentire, hsurplus⟩ := ih hnodup.2 hmem
      have hne : lot.borrower ≠ first.borrower := fun heq =>
        hnodup.1 (List.mem_map.mpr ⟨lot, hmem, heq⟩)
      rw [(htaken.untouched _ hne).surplus] at hsurplus
      exact ⟨hstatus, hentire, hsurplus⟩

/-- A partial lot is the last one, and its trove keeps the rest. -/
theorem kept (h : LotsTaken d lots s s') (hmem : lot ∈ lots) (hopen : lot.closes = false) :
    lots.getLast? = some lot ∧ (s'.troveManager.troves lot.borrower).status = .active ∧
      (s'.troveManager.troves lot.borrower).coll = lot.coll - lot.ETH ∧
      (s'.troveManager.troves lot.borrower).debt = lot.debt - lot.LUSD ∧
      Ledger.minDebt ≤ lot.debt - lot.LUSD := by
  induction h with
  | done => cases hmem
  | part _ htaken =>
    obtain rfl := List.mem_singleton.mp hmem
    exact ⟨rfl, htaken.kept hopen⟩
  | full hcloses _ _ ih =>
    rcases List.mem_cons.mp hmem with rfl | hmem
    · rw [hcloses] at hopen
      cases hopen
    · obtain ⟨hlast, hkept⟩ := ih hmem
      refine ⟨?_, hkept⟩
      rw [List.getLast?_cons, hlast]
      rfl

end LotsTaken

/-- Lots that are priced one by one are priced in total. -/
theorem sum_ETH_mul_le {lots : List RedemptionLot}
    (h : ∀ lot ∈ lots, lot.ETH = lot.LUSD * DECIMAL_PRECISION / price) :
    (lots.map RedemptionLot.ETH).sum * price ≤
      (lots.map RedemptionLot.LUSD).sum * DECIMAL_PRECISION := by
  induction lots with
  | nil => exact Nat.le_of_eq (Nat.zero_mul _)
  | cons lot rest ih =>
    obtain ⟨hfirst, hrest⟩ := List.forall_mem_cons.mp h
    rw [List.map_cons, List.map_cons, List.sum_cons, List.sum_cons, Nat.add_mul, Nat.add_mul]
    refine Nat.add_le_add ?_ (ih hrest)
    rw [hfirst]
    exact Nat.div_mul_le_self _ _

/-! ## The call -/

namespace TroveManager

/-- `redeemCollateral` up to the payments: the debt of the system at the start, and what the loop
leaves. -/
def drawCollateral (d : Deployment) (env : Env) (LUSDamount : Nat) (hints : RedemptionHints)
    (maxIterations maxFeePercentage : Nat) (s : System) : Tx (Nat × RedemptionState) := do
  requireValidMaxFeePercentage maxFeePercentage
  requireAfterBootstrapPeriod d env.timestamp
  requireTCRoverMCR env.price s
  require (0 < LUSDamount) "TroveManager: Amount must be greater than zero"
  require (LUSDamount ≤ s.lusdToken.balances env.sender)
    "TroveManager: Requested redemption amount must be <= user's LUSD token balance"
  let totalLUSDSupplyAtStart ← s.getEntireSystemDebt
  assertThat (s.lusdToken.balances env.sender ≤ totalLUSDSupplyAtStart)
  let currentBorrower ← firstRedeemable hints.firstRedemptionHint env.price s
  let r ← redemptionLoop d env.price hints (s.sortedTroves.size + 1) currentBorrower
    (iterationLimit maxIterations)
    { remainingLUSD := LUSDamount, totalLUSDToRedeem := 0, totalETHDrawn := 0, system := s }
  return (totalLUSDSupplyAtStart, r)

theorem redeemCollateral_eq (d : Deployment) (env : Env) (LUSDamount : Nat) (hints : RedemptionHints)
    (maxIterations maxFeePercentage : Nat) (s : System) :
    redeemCollateral d env LUSDamount hints maxIterations maxFeePercentage s =
      drawCollateral d env LUSDamount hints maxIterations maxFeePercentage s >>= fun drawn =>
        settleRedemption d env drawn.1 maxFeePercentage drawn.2 := by
  simp only [redeemCollateral, drawCollateral, iterationLimit, bind_assoc, pure_bind]

end TroveManager

/-- A redemption gets past its loop with the lots taken and added up. -/
theorem drawCollateral_ok (hd : d.Wired) (hs : Sound d s .none) {env : Env}
    {amount maxIterations maxFee : Nat} {hints : RedemptionHints} {drawn : Nat × RedemptionState}
    (h : drawCollateral d env amount hints maxIterations maxFee s = .ok drawn) :
    s.getEntireSystemDebt = .ok drawn.1 ∧ amount ≤ drawn.1 ∧
      requireTCRoverMCR env.price s = .ok () ∧
      LotsTaken d (s.redemptionLots env.price amount hints maxIterations) s drawn.2.system ∧
      drawn.2.totalLUSDToRedeem = ((s.redemptionLots env.price amount hints maxIterations).map
        RedemptionLot.LUSD).sum ∧
      drawn.2.totalETHDrawn = ((s.redemptionLots env.price amount hints maxIterations).map
        RedemptionLot.ETH).sum := by
  simp only [drawCollateral, bind_ok, require_ok, assertThat_ok, pure_ok] at h
  obtain ⟨-, -, -, -, _, hTCR, -, -, -, hfunds, supply, hsupply, -, hle, first, hfirst, r, hloop, rfl⟩ := h
  obtain ⟨w, v, hwv, hlast, hfrom⟩ := firstRedeemable_ok hs.list hfirst
  rw [← hlast] at hloop
  have hfollows : Follows d s w ⟨amount, 0, 0, s⟩ := ⟨hs, .refl _, v, hwv⟩
  obtain ⟨lots, hlots, htaken, hredeemed, hdrawn⟩ := redemptionLoop_lots hd hfollows hloop
  rw [Nat.zero_add] at hredeemed hdrawn
  rw [← hfrom] at hlots
  subst hlots
  exact ⟨hsupply, hfunds.trans hle, hTCR, htaken, hredeemed, hdrawn⟩

/-- The payments: the fee to the stakers, the rest of the collateral to the redeemer. -/
theorem settleRedemption_ok (hd : d.Wired) {env : Env} (hsender : d.External env.sender)
    {supply maxFee : Nat} {r : RedemptionState}
    (h : settleRedemption d env supply maxFee r = .ok s') :
    ∃ fee baseRate lastFeeOperationTime lqtyStaking, 0 < r.totalETHDrawn ∧ fee ≤ r.totalETHDrawn ∧
      r.totalETHDrawn ≤ r.system.activePool.ETH ∧
      r.totalLUSDToRedeem ≤ r.system.lusdToken.balances env.sender ∧ s' = { r.system with
        troveManager := { r.system.troveManager with baseRate, lastFeeOperationTime }
        lqtyStaking
        lusdToken := { r.system.lusdToken with
          totalSupply := r.system.lusdToken.totalSupply - r.totalLUSDToRedeem
          balances := Ledger.debit r.system.lusdToken.balances env.sender r.totalLUSDToRedeem }
        activePool := ⟨r.system.activePool.ETH - r.totalETHDrawn,
          r.system.activePool.LUSDDebt - r.totalLUSDToRedeem⟩
        ether := move (move r.system.ether d.activePool d.lqtyStaking fee) d.activePool env.sender
          (r.totalETHDrawn - fee) } := by
  simp only [settleRedemption, bind_ok, require_ok, System.onTroveManager_ok, System.onLQTYStaking_ok,
    System.onLUSDToken_ok, System.onActivePool_ok, sub_ok] at h
  obtain ⟨-, hpos, _, ⟨t, ht, rfl⟩, fee, -, -, -, s₂, h₂, _, ⟨l, -, rfl⟩, rest, ⟨hfee, rfl⟩, _,
    ⟨token, htoken, rfl⟩, _, ⟨p, hp, rfl⟩, h₆⟩ := h
  obtain ⟨baseRate, time, rfl⟩ := updateBaseRateFromRedemption_ok ht
  have hether₂ := ActivePool.sendETH_ether h₂
  obtain ⟨hle₂, -, ether₂, rfl⟩ := ActivePool.sendETH_lqtyStaking hd h₂
  dsimp only at hether₂ hle₂ htoken hp h₆
  subst hether₂
  obtain ⟨hbalance, -, rfl⟩ := LUSDToken.burn_ok htoken
  obtain ⟨-, rfl⟩ := ActivePool.decreaseLUSDDebt_ok hp
  have hether₆ := ActivePool.sendETH_ether h₆
  obtain ⟨hle₆, -, ether₆, rfl⟩ := ActivePool.sendETH_external hsender h₆
  dsimp only at hether₆ hle₆
  subst hether₆
  have hall : r.system.activePool.ETH - fee - (r.totalETHDrawn - fee) =
      r.system.activePool.ETH - r.totalETHDrawn := by omega
  refine ⟨fee, baseRate, time, l, hpos, hfee, by omega, hbalance, ?_⟩
  rw [hall]
  rfl

theorem sum_reserve (lots : List RedemptionLot) :
    (lots.map RedemptionLot.reserve).sum =
      LUSD_GAS_COMPENSATION * lots.countP RedemptionLot.closes := by
  induction lots with
  | nil => rfl
  | cons lot rest ih =>
    rw [List.map_cons, List.sum_cons, List.countP_cons, ih, Nat.mul_add, Nat.add_comm]
    congr 1
    unfold RedemptionLot.reserve
    cases lot.closes <;> rfl

/-- What the lots of a redemption have to do with the state before and after it. -/
structure RedemptionAccounted (d : Deployment) (env : Env) (amount : Nat) (lots : List RedemptionLot)
    (s s' : System) : Prop where
  nodup : (lots.map RedemptionLot.borrower).Nodup
  troves : ∀ lot ∈ lots, (s.troveManager.troves lot.borrower).status = .active ∧
    lot.coll = s.troveManager.settledColl lot.borrower ∧
    lot.debt = s.troveManager.settledDebt lot.borrower ∧
    lot.ETH = lot.LUSD * DECIMAL_PRECISION / env.price
  /-- Only a debt that `hasPendingRewards` does not see is missing from the amounts of a lot. -/
  views : ∀ lot ∈ lots, ∀ entire, s.troveManager.getEntireDebtAndColl lot.borrower = .ok entire →
    lot.coll = entire.coll ∧ (s.troveManager.hasPendingRewards lot.borrower = true ∨
      entire.pendingLUSDDebtReward = 0 → lot.debt = entire.debt)
  burned : s'.lusdToken.balances env.sender + (lots.map RedemptionLot.LUSD).sum =
    s.lusdToken.balances env.sender
  le_amount : (lots.map RedemptionLot.LUSD).sum ≤ amount
  value_le : (lots.map RedemptionLot.ETH).sum * env.price ≤
    (lots.map RedemptionLot.LUSD).sum * DECIMAL_PRECISION
  full : ∀ lot ∈ lots, lot.closes = true → lot.LUSD = lot.debt - LUSD_GAS_COMPENSATION ∧
    (s'.troveManager.troves lot.borrower).status = .closedByRedemption ∧
    s'.troveManager.entireAmounts lot.borrower = .ok (0, 0) ∧
    s'.collSurplusPool.balances lot.borrower = s.collSurplusPool.balances lot.borrower +
      (lot.coll - (lot.debt - LUSD_GAS_COMPENSATION) * DECIMAL_PRECISION / env.price)
  gasPool : s'.lusdToken.balances d.gasPool + LUSD_GAS_COMPENSATION * lots.countP RedemptionLot.closes =
    s.lusdToken.balances d.gasPool
  part : ∀ lot ∈ lots, lot.closes = false → lots.getLast? = some lot ∧
    (lots.map RedemptionLot.LUSD).sum = amount ∧
    (s'.troveManager.troves lot.borrower).status = .active ∧
    (s'.troveManager.troves lot.borrower).coll = lot.coll - lot.ETH ∧
    (s'.troveManager.troves lot.borrower).debt = lot.debt - lot.LUSD ∧
    MIN_NET_DEBT ≤ (s'.troveManager.troves lot.borrower).debt - LUSD_GAS_COMPENSATION
  others : ∀ x, (∀ lot ∈ lots, lot.borrower ≠ x) → Untouched x s s'
  collateral : s'.activePool.ETH + s'.defaultPool.ETH + (lots.map RedemptionLot.ETH).sum +
    (lots.map RedemptionLot.surplus).sum = s.activePool.ETH + s.defaultPool.ETH
  paid : ∃ fee, s'.ether env.sender + fee = s.ether env.sender + (lots.map RedemptionLot.ETH).sum ∧
    s'.ether d.lqtyStaking = s.ether d.lqtyStaking + fee

theorem settledDebt_of_applied {t : TroveManager}
    (h : t.hasPendingRewards x = true ∨ t.pendingLUSDDebt x = 0) :
    t.settledDebt x = (t.troves x).debt + t.pendingLUSDDebt x := by
  unfold settledDebt
  split
  · rfl
  next hnone => rw [h.resolve_left hnone]

theorem settled_accounted (hd : d.Wired) (hs : Sound d s .none) {env : Env}
    (hsender : d.External env.sender) {amount maxIterations maxFee : Nat} {hints : RedemptionHints}
    (h : redeemCollateral d env amount hints maxIterations maxFee s = .ok s') :
    RedemptionAccounted d env amount (s.redemptionLots env.price amount hints maxIterations) s s' := by
  rw [redeemCollateral_eq, bind_ok] at h
  obtain ⟨⟨supply, r⟩, hdraw, hsettle⟩ := h
  obtain ⟨-, -, -, htaken, hredeemed, hdrawn⟩ := drawCollateral_ok hd hs hdraw
  obtain ⟨fee, baseRate, time, staking, -, hfee, hactive, hfunds, rfl⟩ :=
    settleRedemption_ok hd hsender hsettle
  dsimp only at htaken hredeemed hdrawn hfee hactive hfunds
  have hpriced : ∀ lot ∈ s.redemptionLots env.price amount hints maxIterations,
      lot.coll = s.troveManager.settledColl lot.borrower ∧
        lot.debt = s.troveManager.settledDebt lot.borrower ∧
        lot.ETH = lot.LUSD * DECIMAL_PRECISION / env.price := by
    intro lot hlot
    obtain ⟨n, heq⟩ := redemptionLots_mem hlot
    rw [heq]
    exact ⟨rfl, rfl, rfl⟩
  have hprefix : (s.redemptionLots env.price amount hints maxIterations).map RedemptionLot.borrower <+:
      s.redeemedFrom hints.firstRedemptionHint env.price := redemptionLots_borrowers
  have hsum : ((s.redemptionLots env.price amount hints maxIterations).map RedemptionLot.LUSD).sum ≤
      amount := redemptionLots_sum_le
  have hopen : ∀ lot ∈ s.redemptionLots env.price amount hints maxIterations, lot.closes = false →
      ((s.redemptionLots env.price amount hints maxIterations).map RedemptionLot.LUSD).sum = amount :=
    fun lot hlot hopen => redemptionLots_open hlot (htaken.fits hlot).1 hopen
  generalize s.redemptionLots env.price amount hints maxIterations = lots at *
  have hsublist := hprefix.sublist.trans (redeemedFrom_sublist hints.firstRedemptionHint env.price s)
  have hnodup := hsublist.nodup (List.nodup_reverse.mpr hs.list.nodup)
  have haside := htaken.setsAside
  have hgas := haside.gasPool
  have hpools := haside.pools
  rw [sum_reserve] at hgas
  -- the payments touch no trove
  have hviews : ∀ x, TroveManager.entireAmounts x { r.system.troveManager with
      baseRate, lastFeeOperationTime := time } = r.system.troveManager.entireAmounts x := fun x =>
    entireAmounts_congr ⟨rfl, rfl, rfl, rfl⟩ rfl rfl rfl
  have hopened : ∀ lot ∈ lots, (s.troveManager.troves lot.borrower).status = .active := by
    intro lot hlot
    have hmem := hsublist.subset (List.mem_map_of_mem hlot)
    exact (hs.registered.mem_order _).mp (List.mem_reverse.mp hmem)
  constructor
  · exact hnodup
  · exact fun lot hlot => ⟨hopened lot hlot, hpriced lot hlot⟩
  · intro lot hlot entire hentire
    obtain ⟨hcoll, hdebt, -⟩ := hpriced lot hlot
    rw [getEntireDebtAndColl_ok (hopened lot hlot) hentire, hcoll, hdebt]
    exact ⟨settledColl_eq (hopened lot hlot), settledDebt_of_applied⟩
  · dsimp only
    rw [Ledger.debit_self, ← haside.balances _ hsender.ne_gasPool, ← hredeemed]
    exact Nat.sub_add_cancel hfunds
  · exact hsum
  · exact sum_ETH_mul_le fun lot hlot => (hpriced lot hlot).2.2
  · intro lot hlot hcloses
    obtain ⟨hstatus, hentire, hsurplus⟩ := htaken.closed hnodup hlot hcloses
    obtain ⟨hGAS, hle, -⟩ := htaken.fits hlot
    have hreserve : lot.debt - lot.LUSD = LUSD_GAS_COMPENSATION := of_decide_eq_true hcloses
    have hLUSD : lot.LUSD = lot.debt - LUSD_GAS_COMPENSATION := by omega
    refine ⟨hLUSD, hstatus, (hviews _).trans hentire, ?_⟩
    rw [← hLUSD, ← (hpriced lot hlot).2.2, hsurplus, RedemptionLot.surplus, if_pos hcloses]
  · dsimp only
    rw [Ledger.debit_of_ne hsender.ne_gasPool.symm]
    exact hgas
  · intro lot hlot hpartial
    obtain ⟨hlast, hstatus, hcoll, hdebt, hmin⟩ := htaken.kept hlot hpartial
    refine ⟨hlast, hopen lot hlot hpartial, hstatus, hcoll, hdebt, ?_⟩
    dsimp only
    rw [hdebt]
    unfold Ledger.minDebt at hmin
    omega
  · intro x hx
    obtain ⟨hentire, hstatus, hsurplus⟩ := htaken.untouched hx
    exact ⟨(hviews x).trans hentire, hstatus, hsurplus⟩
  · dsimp only at hpools hactive ⊢
    omega
  · have hsenderEther := haside.ether _ hsender.ne_activePool hsender.ne_defaultPool
      hsender.ne_collSurplusPool
    have hstakingEther := haside.ether _ hd.lqtyStaking_ne_activePool hd.lqtyStaking_ne_defaultPool
      hd.lqtyStaking_ne_collSurplusPool
    refine ⟨fee, ?_, ?_⟩
    · dsimp only
      rw [move_target hsender.ne_activePool.symm,
        move_of_ne hsender.ne_activePool hsender.ne_lqtyStaking, hsenderEther]
      omega
    · dsimp only
      rw [move_of_ne hd.lqtyStaking_ne_activePool hsender.ne_lqtyStaking.symm,
        move_target hd.lqtyStaking_ne_activePool.symm, hstakingEther]

/-- A successful redemption is accounted for by its lots. -/
theorem redemption_accounted (hd : d.Wired) (hr : Reachable d s) {env : Env}
    {amount maxIterations maxFee : Nat} {hints : RedemptionHints}
    (hstep : Step d s ⟨env, .redeemCollateral amount hints maxIterations maxFee⟩ s') :
    RedemptionAccounted d env amount (s.redemptionLots env.price amount hints maxIterations) s s' := by
  have hs := hr.sound hd
  obtain ⟨ether, h, hether, -⟩ := hstep.body hd
  obtain rfl := hether rfl
  have hs₀ : Sound d { s with timestamp := env.timestamp } .none := { hs with }
  have hlots : System.redemptionLots env.price amount hints maxIterations
      { s with timestamp := env.timestamp } = s.redemptionLots env.price amount hints maxIterations :=
    redemptionLots_congr rfl rfl
  have haccounted : RedemptionAccounted d env amount (System.redemptionLots env.price amount hints
      maxIterations { s with timestamp := env.timestamp }) { s with timestamp := env.timestamp } s' :=
    settled_accounted hd hs₀ hstep.1.external h
  rw [hlots] at haccounted
  exact { haccounted with
    others := fun x hx => { haccounted.others x hx with } }

/-- A redemption of 1200 closes the second sample trove and takes a part of the first. -/
theorem sampleRedemption_accounted : ∃ s s' lots, Reachable sampleDeployment s ∧
    lots.map (fun lot : RedemptionLot => (lot.borrower, lot.closes)) = [(102, true), (101, false)] ∧
    RedemptionAccounted sampleDeployment ⟨101, 0, 0, 2000 * 10 ^ 18⟩ (1200 * 10 ^ 18) lots s s' := by
  obtain ⟨s, s', hs, hstep, hlots⟩ := exists_step sampleOpenings
    ⟨⟨101, 0, 0, 2000 * 10 ^ 18⟩, .redeemCollateral (1200 * 10 ^ 18) ⟨102, 0, 0, 351090232228328310⟩ 0
      (10 ^ 18)⟩
    (fun s _ => (s.redemptionLots (2000 * 10 ^ 18) (1200 * 10 ^ 18) ⟨102, 0, 0, 351090232228328310⟩
      0).map (fun lot => (lot.borrower, lot.closes)) = [(102, true), (101, false)]) (by decide +kernel)
  exact ⟨s, s', _, hs, hlots, redemption_accounted sampleDeployment_wired hs hstep⟩

end Liquity
