import Liquity.Properties.PendingRewards

/-!
# The lots of a redemption

`LotsTaken` says what taking the lots of a redemption one after the other does to the troves, the gas
reserves, the surpluses and the ether.
-/

open Lib

namespace Liquity

open SafeMath LiquityMath TroveManager

variable {d : Deployment} {s s' s'' : System} {b x : Address} {price : Nat}

namespace TroveManager

theorem settledColl_eq {t : TroveManager} (hactive : (t.troves b).status = .active) :
    t.settledColl b = (t.troves b).coll + t.pendingETH b := by
  unfold settledColl
  split
  · rfl
  next hnone =>
    -- a trove whose snapshot is current has no collateral pending
    have hcurrent : t.L_ETH ≤ (t.rewardSnapshots b).ETH := by
      simpa [hasPendingRewards, hactive] using hnone
    rw [pendingETH, Nat.sub_eq_zero_of_le hcurrent, Nat.mul_zero, Nat.zero_div]

end TroveManager

/-! ## What a lot does -/

/-- The step touches neither the amounts of a trove as the views report them nor its owner's claim. -/
structure Untouched (x : Address) (s s' : System) : Prop where
  entireAmounts : s'.troveManager.entireAmounts x = s.troveManager.entireAmounts x
  status : (s'.troveManager.troves x).status = (s.troveManager.troves x).status
  surplus : s'.collSurplusPool.balances x = s.collSurplusPool.balances x

theorem Untouched.refl (x : Address) (s : System) : Untouched x s s := ⟨rfl, rfl, rfl⟩

theorem Untouched.trans (h : Untouched x s s') (h' : Untouched x s' s'') : Untouched x s s'' :=
  ⟨h'.entireAmounts.trans h.entireAmounts, h'.status.trans h.status, h'.surplus.trans h.surplus⟩

/-- The step sets `surplus` aside and burns `reserve`, and neither LUSD nor ether changes hands
otherwise. -/
structure SetsAside (d : Deployment) (surplus reserve : Nat) (s s' : System) : Prop where
  balances : ∀ a ≠ d.gasPool, s'.lusdToken.balances a = s.lusdToken.balances a
  gasPool : s'.lusdToken.balances d.gasPool + reserve = s.lusdToken.balances d.gasPool
  pools : s'.activePool.ETH + s'.defaultPool.ETH + surplus = s.activePool.ETH + s.defaultPool.ETH
  ether : ∀ a, a ≠ d.activePool → a ≠ d.defaultPool → a ≠ d.collSurplusPool → s'.ether a = s.ether a

theorem SetsAside.refl (d : Deployment) (s : System) : SetsAside d 0 0 s s :=
  ⟨fun _ _ => rfl, rfl, rfl, fun _ _ _ _ => rfl⟩

theorem SetsAside.trans {m n m' n' : Nat} (h : SetsAside d m n s s') (h' : SetsAside d m' n' s' s'') :
    SetsAside d (m + m') (n + n') s s'' where
  balances a ha := (h'.balances a ha).trans (h.balances a ha)
  gasPool := by
    have hgas := h.gasPool
    have hgas' := h'.gasPool
    omega
  pools := by
    have hpools := h.pools
    have hpools' := h'.pools
    omega
  ether a hactive hdefault hsurplus :=
    (h'.ether a hactive hdefault hsurplus).trans (h.ether a hactive hdefault hsurplus)

/-- What one lot does, the rewards of the trove included. -/
structure LotTaken (d : Deployment) (lot : RedemptionLot) (s s' : System) : Prop extends
    SetsAside d lot.surplus lot.reserve s s' where
  untouched : ∀ x ≠ lot.borrower, Untouched x s s'
  fits : lot.Fits
  surplus : s'.collSurplusPool.balances lot.borrower =
    s.collSurplusPool.balances lot.borrower + lot.surplus
  closed : lot.closes = true → (s'.troveManager.troves lot.borrower).status = .closedByRedemption ∧
    s'.troveManager.entireAmounts lot.borrower = .ok (0, 0)
  kept : lot.closes = false → (s'.troveManager.troves lot.borrower).status = .active ∧
    (s'.troveManager.troves lot.borrower).coll = lot.coll - lot.ETH ∧
    (s'.troveManager.troves lot.borrower).debt = lot.debt - lot.LUSD ∧
    Ledger.minDebt ≤ lot.debt - lot.LUSD

/-- Lots taken one after the other.  At the end a part of a trove may be taken, or the rewards of one
more trove are applied and nothing is taken from it. -/
inductive LotsTaken (d : Deployment) : List RedemptionLot → System → System → Prop
  | done {s s' : System} : SetsAside d 0 0 s s' → (∀ x, Untouched x s s') → LotsTaken d [] s s'
  | part {lot : RedemptionLot} {s s' : System} : lot.closes = false → LotTaken d lot s s' →
      LotsTaken d [lot] s s'
  | full {lot : RedemptionLot} {lots : List RedemptionLot} {s s₁ s' : System} :
      lot.closes = true → LotTaken d lot s s₁ → LotsTaken d lots s₁ s' → LotsTaken d (lot :: lots) s s'

/-! ## Rewards -/

/-- Applying rewards moves ether from the Default Pool to the Active Pool and nothing else. -/
theorem applyPendingRewardsInternal_quiet (hd : d.Wired)
    (hactive : (s.troveManager.troves b).status = .active)
    (h : applyPendingRewardsInternal d b s = .ok s') :
    SetsAside d 0 0 s s' ∧ ∀ x, Untouched x s s' := by
  unfold applyPendingRewardsInternal at h
  split at h
  next hpending =>
    obtain ⟨htm, -, hneutral⟩ := applyRewards_ok hd hactive h
    have hstatus : ∀ x, (s'.troveManager.troves x).status = (s.troveManager.troves x).status := by
      intro x
      rw [htm]
      by_cases hx : x = b
      · subst hx
        simp [applied]
      · rw [(applied_of_ne hx).1]
    simp only [applyRewards, movePendingTroveRewardsToActivePool, bind_ok, System.onDefaultPool_ok,
      System.onActivePool_ok] at h
    obtain ⟨-, -, ETH, -, LUSD, -, coll, -, debt, -, _, ⟨p, hp, rfl⟩, _, ⟨q, hq, rfl⟩, h⟩ := h
    obtain ⟨-, rfl⟩ := DefaultPool.decreaseLUSDDebt_ok hp
    obtain rfl := ActivePool.increaseLUSDDebt_ok hq
    have hether := DefaultPool.sendETHToActivePool_ether h
    obtain ⟨hle, -, ether, rfl⟩ := DefaultPool.sendETHToActivePool_ok hd h
    have hether : ether = move s.ether d.defaultPool d.activePool ETH := hether
    subst hether
    refine ⟨⟨fun _ _ => rfl, rfl, ?_, fun a hactive hdefault _ => move_of_ne hdefault hactive⟩,
      fun x => ⟨hneutral.entireAmounts x, hstatus x, rfl⟩⟩
    dsimp only at hle ⊢
    omega
  next =>
    cases h
    exact ⟨.refl d s, fun x => .refl x s⟩

/-! ## One trove -/

/-- A closed trove has nothing, pending rewards included. -/
theorem TroveManager.entireAmounts_unregister (t : TroveManager) (b : Address) {status : Status}
    (hstatus : status ≠ .active) : (t.unregister b status).entireAmounts b = .ok (0, 0) := by
  have htrove : (t.unregister b status).troves b = _ := unregister_troves_self
  have hnone : ∀ accumulator snapshot, snapshot = 0 → pendingReward accumulator snapshot
      ((t.unregister b status).troves b) = .ok 0 := by
    rintro accumulator _ rfl
    simp only [pendingReward, bind_ok, sub_ok]
    refine ⟨accumulator, ⟨Nat.zero_le _, rfl⟩, ?_⟩
    rw [if_pos (.inr (by rw [htrove]; exact hstatus))]
    rfl
  have hsnapshot : (t.unregister b status).rewardSnapshots b = ⟨0, 0⟩ := by simp [unregister]
  have hETH : (t.unregister b status).getPendingETHReward b = .ok 0 :=
    hnone _ _ (by rw [hsnapshot])
  have hLUSDDebt : (t.unregister b status).getPendingLUSDDebtReward b = .ok 0 :=
    hnone _ _ (by rw [hsnapshot])
  rw [(entireAmounts_of_pending hETH hLUSDDebt (by rw [htrove]; exact Nat.two_pow_pos 256)
    (by rw [htrove]; exact Nat.two_pow_pos 256)).1,
    htrove]

/-- A full lot closes the trove. -/
theorem redeemFully_taken (hd : d.Wired) {lot : RedemptionLot} (hcloses : lot.closes = true)
    (hfits : lot.Fits) (h : redeemFully d lot.borrower (lot.coll - lot.ETH) s = .ok s') :
    LotTaken d lot s s' := by
  have hsurplus : lot.surplus = lot.coll - lot.ETH := by rw [RedemptionLot.surplus, if_pos hcloses]
  have hreserve : lot.reserve = LUSD_GAS_COMPENSATION := by rw [RedemptionLot.reserve, if_pos hcloses]
  obtain ⟨-, hgas, hle, -, l, -, rfl⟩ := redeemFully_ok hd h
  constructor
  · constructor
    · exact fun a ha => Ledger.debit_of_ne ha
    · dsimp only
      rw [Ledger.debit_self, hreserve]
      omega
    · dsimp only
      omega
    · exact fun a hactive _ hsurplus => move_of_ne hactive hsurplus
  · intro x hx
    obtain ⟨hsame, hstatus⟩ :
        SameTrove s.troveManager (s.troveManager.unregister lot.borrower .closedByRedemption) x ∧ _ :=
      sameTrove_unregister hx
    exact ⟨entireAmounts_congr hsame hstatus rfl rfl, hstatus, Function.update_of_ne hx _ _⟩
  · exact hfits
  · rw [hsurplus]
    exact Function.update_self ..
  · intro
    dsimp only
    rw [unregister_troves_self]
    exact ⟨rfl, entireAmounts_unregister _ _ (by decide)⟩
  · intro hopen
    rw [hcloses] at hopen
    cases hopen

/-- A partial lot leaves the trove with the rest. -/
theorem redeemPartially_taken {lot : RedemptionLot} {NICR : Nat} {hints : RedemptionHints}
    (hopen : lot.closes = false)
    (hactive : (s.troveManager.troves lot.borrower).status = .active)
    (hfits : lot.Fits) (hmin : Ledger.minDebt ≤ lot.debt - lot.LUSD)
    (h : redeemPartially d lot.borrower (lot.debt - lot.LUSD) (lot.coll - lot.ETH) NICR hints s =
      .ok s') : LotTaken d lot s s' := by
  have hsurplus : lot.surplus = 0 := by rw [RedemptionLot.surplus, hopen]; rfl
  have hreserve : lot.reserve = 0 := by rw [RedemptionLot.reserve, hopen]; rfl
  obtain ⟨stake, l, -, -, rfl⟩ := redeemPartially_ok h
  constructor
  · rw [hsurplus, hreserve]
    exact ⟨fun _ _ => rfl, rfl, rfl, fun _ _ _ _ => rfl⟩
  · intro x hx
    have htrove : (s.troveManager.adjusted lot.borrower (lot.coll - lot.ETH) (lot.debt - lot.LUSD)
        stake).troves x = s.troveManager.troves x := Function.update_of_ne hx _ _
    exact ⟨entireAmounts_congr ⟨by rw [htrove], by rw [htrove], by rw [htrove], rfl⟩ (by rw [htrove])
      rfl rfl, by dsimp only; rw [htrove], rfl⟩
  · exact hfits
  · rw [hsurplus]
    rfl
  · intro hcloses
    rw [hopen] at hcloses
    cases hcloses
  · intro
    have htrove : (s.troveManager.adjusted lot.borrower (lot.coll - lot.ETH) (lot.debt - lot.LUSD)
        stake).troves lot.borrower = { s.troveManager.troves lot.borrower with
          coll := lot.coll - lot.ETH, debt := lot.debt - lot.LUSD, stake } := Function.update_self ..
    dsimp only
    rw [htrove]
    exact ⟨hactive, rfl, rfl, hmin⟩

/-- The rewards that were applied before a lot belong to it. -/
theorem LotTaken.after {lot : RedemptionLot} (h : LotTaken d lot s' s'')
    (haside : SetsAside d 0 0 s s') (hkept : ∀ x, Untouched x s s') : LotTaken d lot s s'' where
  toSetsAside := by
    have hboth := haside.trans h.toSetsAside
    rwa [Nat.zero_add, Nat.zero_add] at hboth
  untouched x hx := (hkept x).trans (h.untouched x hx)
  fits := h.fits
  surplus := by rw [h.surplus, (hkept _).surplus]
  closed := h.closed
  kept := h.kept

/-! ## The loop -/

/-- One round of the loop: the lot is taken, or it is not accepted. -/
theorem Follows.round (hd : d.Wired) {w : List Address} {hints : RedemptionHints}
    {r : RedemptionState} {s₁ : System} {single : SingleRedemptionValues × System}
    {lot : RedemptionLot} (h : Follows d s (w ++ [b]) r)
    (hs₁ : applyPendingRewardsInternal d b r.system = .ok s₁)
    (hsingle : redeemCollateralFromTrove d b r.remainingLUSD price hints s₁ = .ok single)
    (hlot : lot = s.troveManager.redemptionLot price r.remainingLUSD b) :
    LUSD_GAS_COMPENSATION ≤ lot.debt ∧
    ((single.1.cancelledPartial = true ∧ lot.accepted hints.partialRedemptionHintNICR = false ∧
      SetsAside d 0 0 r.system single.2 ∧ ∀ x, Untouched x r.system single.2) ∨
    (single.1.cancelledPartial = false ∧ lot.accepted hints.partialRedemptionHintNICR = true ∧
      single.1.LUSDLot = lot.LUSD ∧ single.1.ETHLot = lot.ETH ∧ LotTaken d lot r.system single.2 ∧
      (lot.closes = true → Follows d s w
        { remainingLUSD := r.remainingLUSD - single.1.LUSDLot
          totalLUSDToRedeem := r.totalLUSDToRedeem + single.1.LUSDLot
          totalETHDrawn := r.totalETHDrawn + single.1.ETHLot
          system := single.2 }))) := by
  obtain ⟨haside, hquiet⟩ := applyPendingRewardsInternal_quiet hd h.active hs₁
  obtain ⟨hactive, -, hcoll, hdebt⟩ := h.applied hd hs₁
  obtain ⟨hLUSD, hETH, hfits, htried⟩ := redeemCollateralFromTrove_lot hlot hcoll hdebt hsingle
  have hb : lot.borrower = b := by rw [hlot]; rfl
  refine ⟨hfits.1, ?_⟩
  cases htried with
  | refused hleaves hcancelled hrejected hsame =>
    refine .inl ⟨hcancelled, hrejected, ?_⟩
    rw [hsame]
    exact ⟨haside, hquiet⟩
  | full hcloses hdone hclosed =>
    have htaken : LotTaken d lot s₁ single.2 := redeemFully_taken hd hcloses hfits hclosed
    refine .inr ⟨hdone, by rw [RedemptionLot.accepted, hcloses]; rfl, hLUSD, hETH,
      htaken.after haside hquiet, fun _ => ?_⟩
    rw [hLUSD, hETH]
    exact h.next hd hs₁ hlot hfits hcloses hclosed
  | part hleaves hdone haccepted hmin hkept =>
    have htaken : LotTaken d lot s₁ single.2 :=
      redeemPartially_taken hleaves (by rw [hb]; exact hactive) hfits hmin hkept
    refine .inr ⟨hdone, haccepted, hLUSD, hETH, htaken.after haside hquiet, fun hcloses => ?_⟩
    rw [hleaves] at hcloses
    cases hcloses

/-- The loop takes the lots and adds them up. -/
theorem redemptionLoop_lots (hd : d.Wired) {w : List Address} {rounds iterations : Nat}
    {hints : RedemptionHints} {r r' : RedemptionState} (hfollows : Follows d s w r)
    (h : redemptionLoop d price hints rounds (w.getLastD 0) iterations r = .ok r') :
    ∃ lots, lots = s.troveManager.redemptionLots price hints.partialRedemptionHintNICR w.reverse
        r.remainingLUSD iterations ∧
      LotsTaken d lots r.system r'.system ∧
      r'.totalLUSDToRedeem = r.totalLUSDToRedeem + (lots.map RedemptionLot.LUSD).sum ∧
      r'.totalETHDrawn = r.totalETHDrawn + (lots.map RedemptionLot.ETH).sum := by
  -- on the rounds; `w` is what the loop has still to come to
  induction rounds generalizing w iterations r with
  | zero => cases h
  | succ rounds ih =>
    refine ⟨_, rfl, ?_⟩
    unfold redemptionLoop at h
    rcases List.eq_nil_or_concat' w with rfl | ⟨w, b, rfl⟩
    · rw [if_neg (by simp)] at h
      cases h
      exact ⟨.done (.refl d _) fun x => .refl x _, rfl, rfl⟩
    have hlast : (w ++ [b]).getLastD 0 = b := by
      rw [getLastD_append]
      rfl
    rw [hlast] at h
    rw [List.reverse_append, List.reverse_singleton, List.singleton_append,
      TroveManager.redemptionLots]
    obtain ⟨v, hv⟩ := hfollows.order
    have hb : b ≠ 0 := hfollows.sound.list.ne_zero (by simp [hv])
    by_cases hcontinue : 0 < r.remainingLUSD ∧ 0 < iterations
    · rw [if_pos ⟨hb, hcontinue⟩] at h
      rw [if_pos hcontinue]
      simp only [bind_ok] at h
      obtain ⟨s₁, hs₁, single, hsingle, h⟩ := h
      obtain ⟨-, ⟨hcancelled, hrefused, haside, hquiet⟩ |
          ⟨hdone, haccepted, hLUSD, hETH, htaken, hnext⟩⟩ := hfollows.round hd hs₁ hsingle rfl
      · rw [if_pos hcancelled] at h
        cases h
        dsimp only
        rw [hrefused]
        exact ⟨.done haside hquiet, rfl, rfl⟩
      · simp only [hdone, Bool.false_eq_true, if_false, bind_ok, add_ok, sub_ok] at h
        obtain ⟨_, ⟨-, rfl⟩, _, ⟨-, rfl⟩, _, ⟨-, rfl⟩, h⟩ := h
        dsimp only
        rw [if_pos haccepted]
        cases hcloses : (s.troveManager.redemptionLot price r.remainingLUSD b).closes with
        | true =>
          have hfollows' := hnext hcloses
          obtain ⟨v', hv'⟩ := hfollows'.order
          rw [getPrev_concat hfollows.sound.list hv] at h
          obtain ⟨lots, rfl, hlots, hredeemed, hdrawn⟩ := ih hfollows' h
          dsimp only at hlots hredeemed hdrawn
          rw [hLUSD] at hlots hredeemed
          rw [hLUSD, hETH] at hdrawn
          rw [List.map_cons, List.map_cons, List.sum_cons, List.sum_cons, ← Nat.add_assoc,
            ← Nat.add_assoc]
          exact ⟨.full hcloses htaken hlots, hredeemed, hdrawn⟩
        | false =>
          have hall := redemptionLot_open htaken.fits.1 hcloses
          obtain rfl := redemptionLoop_of_zero (by simp only [hLUSD, hall, Nat.sub_self]) h
          rw [hall, Nat.sub_self, redemptionLots_zero, List.map_singleton, List.map_singleton,
            List.sum_singleton, List.sum_singleton, ← hLUSD, ← hETH]
          exact ⟨.part hcloses htaken, rfl, rfl⟩
    · rw [if_neg (fun hall => hcontinue hall.2)] at h
      cases h
      rw [if_neg hcontinue]
      exact ⟨.done (.refl d _) fun x => .refl x _, rfl, rfl⟩

end Liquity
