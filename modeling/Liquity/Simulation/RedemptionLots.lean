import Liquity.Simulation.Redemption
import Mathlib.Data.List.TakeWhile

/-!
# Simulation: the lots of a redemption

The loop of a redemption applies the pending rewards of one trove after the other and takes a lot from
each.  The lots are known from the state before: each trove is still as it was when the loop comes to
it, because full redemptions only close the troves below and a partial one ends the loop.
-/

open Lib

namespace Liquity

open SafeMath LiquityMath TroveManager

variable {d : Deployment} {s s' : System} {allow : Ledger → Label → Prop} {b : Address} {price : Nat}

/-! ## The lots -/

namespace TroveManager

/-- What a redemption takes from one trove, whose amounts are those once its rewards are applied. -/
structure RedemptionLot where
  borrower : Address
  coll : Nat
  debt : Nat
  LUSD : Nat
  ETH : Nat

namespace RedemptionLot

/-- Only the gas reserve is left, and the trove is closed. -/
def closes (lot : RedemptionLot) : Bool := decide (lot.debt - lot.LUSD = LUSD_GAS_COMPENSATION)

/-- What the owner of a closed trove can claim. -/
def surplus (lot : RedemptionLot) : Nat := if lot.closes then lot.coll - lot.ETH else 0

/-- The gas reserve of a closed trove. -/
def reserve (lot : RedemptionLot) : Nat := if lot.closes then LUSD_GAS_COMPENSATION else 0

/-- A partial redemption has to leave the ratio of the hint and enough debt. -/
def accepted (partialRedemptionHintNICR : Nat) (lot : RedemptionLot) : Bool :=
  lot.closes || decide
    (computeNominalCR (lot.coll - lot.ETH) (lot.debt - lot.LUSD) = .ok partialRedemptionHintNICR ∧
      Ledger.minDebt ≤ lot.debt - lot.LUSD)

end RedemptionLot

/-- The lot of at most `amount` from one trove. -/
def redemptionLot (price amount : Nat) (b : Address) (t : TroveManager) : RedemptionLot :=
  let LUSD := Min.min amount (t.settledDebt b - LUSD_GAS_COMPENSATION)
  ⟨b, t.settledColl b, t.settledDebt b, LUSD, LUSD * DECIMAL_PRECISION / price⟩

theorem redemptionLot_ETH (price amount : Nat) (b : Address) (t : TroveManager) :
    (t.redemptionLot price amount b).ETH =
      (t.redemptionLot price amount b).LUSD * DECIMAL_PRECISION / price := rfl

/-- The lots of a redemption from the troves of a list, one after the other. -/
def redemptionLots (price partialRedemptionHintNICR : Nat) (t : TroveManager) :
    List Address → (amount iterations : Nat) → List RedemptionLot
  | [], _, _ => []
  | b :: rest, amount, iterations =>
    if 0 < amount ∧ 0 < iterations then
      let lot := t.redemptionLot price amount b
      if lot.accepted partialRedemptionHintNICR then
        lot :: redemptionLots price partialRedemptionHintNICR t rest (amount - lot.LUSD) (iterations - 1)
      else []
    else []

end TroveManager

/-- The caller's limit on the iterations, where zero stands for none. -/
def iterationLimit (maxIterations : Nat) : Nat :=
  if maxIterations = 0 then 2 ^ 256 - 1 else maxIterations

/-- The troves that a redemption can come to: the one it starts from, and those above it. -/
def System.redeemedFrom (firstRedemptionHint : Address) (price : Nat) (s : System) : List Address :=
  match firstRedeemable firstRedemptionHint price s with
  | .ok first => s.sortedTroves.toList.reverse.dropWhile fun b => decide (b ≠ first)
  | .error _ => []

/-- The lots of a redemption, from the state before. -/
def System.redemptionLots (price amount : Nat) (hints : RedemptionHints) (maxIterations : Nat)
    (s : System) : List RedemptionLot :=
  s.troveManager.redemptionLots price hints.partialRedemptionHintNICR
    (s.redeemedFrom hints.firstRedemptionHint price) amount (iterationLimit maxIterations)

/-! ## One lot -/

/-- Taking a lot from its trove, whose rewards are applied: all but the gas reserve is taken and the
trove is closed, the lot is refused, or a part is taken that the hint accepts. -/
inductive LotTried (d : Deployment) (hints : RedemptionHints) (lot : RedemptionLot) (s : System)
    (single : SingleRedemptionValues × System) : Prop
  | full (closes : lot.closes = true) (done : single.1.cancelledPartial = false)
      (closed : redeemFully d lot.borrower (lot.coll - lot.ETH) s = .ok single.2)
  | refused (leaves : lot.closes = false) (cancelled : single.1.cancelledPartial = true)
      (rejected : lot.accepted hints.partialRedemptionHintNICR = false) (same : single.2 = s)
  | part {NICR : Nat} (leaves : lot.closes = false) (done : single.1.cancelledPartial = false)
      (accepted : lot.accepted hints.partialRedemptionHintNICR = true)
      (minDebt : Ledger.minDebt ≤ lot.debt - lot.LUSD)
      (kept : redeemPartially d lot.borrower (lot.debt - lot.LUSD) (lot.coll - lot.ETH) NICR hints s =
        .ok single.2)

/-- What a lot leaves is there. -/
def TroveManager.RedemptionLot.Fits (lot : RedemptionLot) : Prop :=
  LUSD_GAS_COMPENSATION ≤ lot.debt ∧ lot.LUSD ≤ lot.debt - LUSD_GAS_COMPENSATION ∧ lot.ETH ≤ lot.coll

theorem redeemCollateralFromTrove_lot {t : TroveManager} {amount : Nat} {hints : RedemptionHints}
    {single : SingleRedemptionValues × System} {lot : RedemptionLot}
    (hlot : lot = t.redemptionLot price amount b) (hcoll : (s.troveManager.troves b).coll = t.settledColl b)
    (hdebt : (s.troveManager.troves b).debt = t.settledDebt b)
    (h : redeemCollateralFromTrove d b amount price hints s = .ok single) :
    single.1.LUSDLot = lot.LUSD ∧ single.1.ETHLot = lot.ETH ∧ lot.Fits ∧
      LotTried d hints lot s single := by
  obtain ⟨coll, debt, rfl, rfl, hGAS, hLUSD, hETHLot, hETH, hcases⟩ := redeemCollateralFromTrove_ok h
  have hlotLUSD : single.1.LUSDLot = lot.LUSD := by rw [hLUSD, hdebt, hlot]; rfl
  have hlotETH : single.1.ETHLot = lot.ETH := by rw [hETHLot, hlotLUSD, hlot]; rfl
  have hb : lot.borrower = b := by rw [hlot]; rfl
  have hlotColl : lot.coll = (s.troveManager.troves b).coll := by rw [hcoll, hlot]; rfl
  have hlotDebt : lot.debt = (s.troveManager.troves b).debt := by rw [hdebt, hlot]; rfl
  rw [hlotLUSD, hlotETH, ← hlotColl, ← hlotDebt, ← hb] at hcases
  rw [hlotETH, ← hlotColl] at hETH
  rw [← hlotDebt] at hGAS
  rw [hlotLUSD, ← hlotDebt] at hLUSD
  refine ⟨hlotLUSD, hlotETH, ⟨hGAS, hLUSD.trans_le (Nat.min_le_right _ _), hETH⟩, ?_⟩
  rcases hcases with ⟨hfull, hdone, hclosed⟩ | ⟨NICR, hpartial, hNICR, hcases⟩
  · exact .full (decide_eq_true hfull) hdone hclosed
  have hopen : lot.closes = false := decide_eq_false hpartial
  rcases hcases with ⟨hcancelled, hsame, hshort⟩ | ⟨hdone, hhint, hmin, hpartially⟩
  · refine .refused hopen hcancelled ?_ hsame
    rw [RedemptionLot.accepted, hopen, Bool.false_or, decide_eq_false_iff_not]
    rintro ⟨hratio, hmin⟩
    cases hNICR.symm.trans hratio
    have hlt := hshort rfl
    unfold Ledger.minDebt at hmin
    omega
  · refine .part hopen hdone ?_ hmin hpartially
    rw [RedemptionLot.accepted, hopen, Bool.false_or, decide_eq_true_eq, ← hhint]
    exact ⟨hNICR, hmin⟩

/-! ## The loop -/

/-- Between two troves of a redemption: what it has not come to yet is as it was when the hints were
computed, and stands on the list as it did. -/
structure Follows (d : Deployment) (s : System) (w : List Address) (r : RedemptionState) : Prop where
  sound : Sound d r.system r.inFlight
  kept : RewardsKept s.troveManager r.system.troveManager
  order : ∃ v, r.system.sortedTroves.toList = w ++ v

/-- The trove above the last one of a part of the list. -/
theorem getPrev_concat {l : SortedTroves} {w v : List Address}
    (hlist : SortedTroves.IsList l l.toList) (h : l.toList = w ++ [b] ++ v) :
    l.getPrev b = w.getLastD 0 := by
  have hlinked := hlist.linked
  rw [h, List.append_assoc] at hlinked
  exact hlinked.middle.1

section Round

variable (hd : d.Wired) {w : List Address} {hints : RedemptionHints} {r : RedemptionState} {s₁ : System}
  {single : SingleRedemptionValues × System} {lot : RedemptionLot} (h : Follows d s (w ++ [b]) r)

include h

/-- The trove that the loop comes to is open. -/
theorem Follows.active : (r.system.troveManager.troves b).status = .active := by
  obtain ⟨v, hv⟩ := h.order
  exact (h.sound.registered.mem_order b).mp (by simp [hv])

variable (hs₁ : applyPendingRewardsInternal d b r.system = .ok s₁)
  (hlot : lot = s.troveManager.redemptionLot price r.remainingLUSD b)

include hd hs₁

/-- Once its rewards are applied, the trove has what its lot was computed from. -/
theorem Follows.applied : (s₁.troveManager.troves b).status = .active ∧
    RewardsKept s.troveManager s₁.troveManager ∧
    (s₁.troveManager.troves b).coll = s.troveManager.settledColl b ∧
    (s₁.troveManager.troves b).debt = s.troveManager.settledDebt b := by
  obtain ⟨-, happlied⟩ := applyPendingRewardsInternal_evolves hd h.sound PlainOnly.plain hs₁
  have hactive := (happlied.status b).trans h.active
  have hkept := happlied.rewardsKept h.kept
  exact ⟨hactive, hkept, hkept.settled hactive (happlied.settled hactive)⟩

include hlot

/-- Where the trove is closed, the loop goes on with the trove above it. -/
theorem Follows.next (hfits : lot.Fits) (hcloses : lot.closes = true) {s₂ : System}
    (hclosed : redeemFully d lot.borrower (lot.coll - lot.ETH) s₁ = .ok s₂) :
    Follows d s w
      { remainingLUSD := r.remainingLUSD - lot.LUSD
        totalLUSDToRedeem := r.totalLUSDToRedeem + lot.LUSD
        totalETHDrawn := r.totalETHDrawn + lot.ETH
        system := s₂ } := by
  obtain ⟨v, hv⟩ := h.order
  have horder : r.system.sortedTroves.toList = w ++ b :: v := by rw [hv, List.append_assoc]; rfl
  obtain ⟨hactive, hkept, hcoll, hdebt⟩ := h.applied hd hs₁
  obtain ⟨e₁, happlied⟩ := applyPendingRewardsInternal_evolves hd h.sound PlainOnly.plain hs₁
  have hsound := e₁.sound hd h.sound
  have hb : lot.borrower = b := by rw [hlot]; rfl
  have hlotColl : lot.coll = (s₁.troveManager.troves b).coll := by rw [hcoll, hlot]; rfl
  have hlotDebt : lot.debt = (s₁.troveManager.troves b).debt := by rw [hdebt, hlot]; rfl
  obtain ⟨hGAS, hLUSD, hETH⟩ := hfits
  have hreserve : (s₁.troveManager.troves b).debt - LUSD_GAS_COMPENSATION = lot.LUSD := by
    have hleft : lot.debt - lot.LUSD = LUSD_GAS_COMPENSATION := of_decide_eq_true hcloses
    omega
  rw [hb, hlotColl] at hclosed
  rw [hlotColl] at hETH
  obtain ⟨e₂, htm⟩ := redeemFully_evolves hd hsound PlainOnly.plain hactive hETH hclosed
  obtain ⟨-, -, -, -, list, hremove, heq⟩ := redeemFully_ok hd hclosed
  have hlist := congrArg System.sortedTroves heq
  rw [happlied.sortedTroves] at hremove
  rw [hreserve] at e₂
  refine ⟨e₂.sound hd hsound, ?_, v, ?_⟩
  · rw [htm]
    exact hkept.unregister b (by decide)
  · rw [hlist]
    exact SortedTroves.remove_middle h.sound.list horder hremove

end Round

theorem redemptionLoop_of_zero {hints : RedemptionHints} {rounds iterations : Nat} {current : Address}
    {r r' : RedemptionState} (hzero : r.remainingLUSD = 0)
    (h : redemptionLoop d price hints rounds current iterations r = .ok r') : r' = r := by
  cases rounds with
  | zero => cases h
  | succ rounds =>
    rw [redemptionLoop, if_neg (by omega)] at h
    exact (Except.ok.inj h).symm

theorem redemptionLots_zero (t : TroveManager) (ids : List Address) (NICR iterations : Nat) :
    t.redemptionLots price NICR ids 0 iterations = [] := by
  cases ids with
  | nil => rfl
  | cons b rest => rw [TroveManager.redemptionLots, if_neg (by omega)]

/-- A lot that leaves more than the gas reserve takes all that was asked for. -/
theorem redemptionLot_open {t : TroveManager} {amount : Nat}
    (hGAS : LUSD_GAS_COMPENSATION ≤ (t.redemptionLot price amount b).debt)
    (hopen : (t.redemptionLot price amount b).closes = false) :
    (t.redemptionLot price amount b).LUSD = amount := by
  have hne := of_decide_eq_false hopen
  have hLUSD : (t.redemptionLot price amount b).LUSD =
      Min.min amount ((t.redemptionLot price amount b).debt - LUSD_GAS_COMPENSATION) := rfl
  omega

/-- The loop makes plain moves, and a new stake for a lot that leaves its trove open. -/
theorem redemptionLoop_evolves (hd : d.Wired) (hplain : ∀ L, allow L .plain) {w : List Address}
    {rounds iterations : Nat} {hints : RedemptionHints} {r r' : RedemptionState}
    (hrestake : ∀ L, ∀ lot ∈ s.troveManager.redemptionLots price hints.partialRedemptionHintNICR
      w.reverse r.remainingLUSD iterations, lot.closes = false → RewardsKept s.troveManager L.tm →
        (L.tm.troves lot.borrower).status = .active →
          allow L (.restake lot.borrower (lot.coll - lot.ETH)))
    (hfollows : Follows d s w r)
    (h : redemptionLoop d price hints rounds (w.getLastD 0) iterations r = .ok r') :
    Evolves d allow r.system r.inFlight r'.system r'.inFlight := by
  -- on the rounds; `w` is what the loop has still to come to
  induction rounds generalizing w iterations r with
  | zero => cases h
  | succ rounds ih =>
    unfold redemptionLoop at h
    rcases List.eq_nil_or_concat' w with rfl | ⟨w, b, rfl⟩
    · rw [if_neg (by simp)] at h
      cases h
      exact .refl hfollows.sound
    have hlast : (w ++ [b]).getLastD 0 = b := by
      rw [getLastD_append]
      rfl
    rw [hlast] at h
    rw [List.reverse_append, List.reverse_singleton, List.singleton_append,
      TroveManager.redemptionLots] at hrestake
    split at h
    next hcontinue =>
      simp only [bind_ok] at h
      obtain ⟨s₁, hs₁, single, hsingle, h⟩ := h
      obtain ⟨v, hv⟩ := hfollows.order
      obtain ⟨e₁, happlied⟩ := applyPendingRewardsInternal_evolves hd hfollows.sound hplain hs₁
      have hsound := e₁.sound hd hfollows.sound
      obtain ⟨hactive, hkept, hcoll, hdebt⟩ := hfollows.applied hd hs₁
      obtain ⟨lot, hlot⟩ : ∃ lot, lot = s.troveManager.redemptionLot price r.remainingLUSD b := ⟨_, rfl⟩
      obtain ⟨hLUSD, hETH, hfits, htried⟩ := redeemCollateralFromTrove_lot hlot hcoll hdebt hsingle
      rw [if_pos hcontinue.2, ← hlot] at hrestake
      have hlotColl : lot.coll = (s₁.troveManager.troves b).coll := by rw [hcoll, hlot]; rfl
      have hlotDebt : lot.debt = (s₁.troveManager.troves b).debt := by rw [hdebt, hlot]; rfl
      have hb : lot.borrower = b := by rw [hlot]; rfl
      -- a new stake is computed for a lot that is accepted and leaves its trove open
      have hstake : single.1.cancelledPartial = false →
          (s₁.troveManager.troves b).debt - single.1.LUSDLot ≠ LUSD_GAS_COMPENSATION →
            (s₁.troveManager.troves b).status = .active → allow (s₁.ledger r.inFlight)
              (.restake b ((s₁.troveManager.troves b).coll - single.1.ETHLot)) := by
        intro hdone hopen _
        rw [← hlotDebt, hLUSD] at hopen
        rw [← hlotColl, hETH, ← hb]
        rw [← hb] at hactive
        cases htried with
        | full hcloses => exact absurd (of_decide_eq_true hcloses) hopen
        | refused _ hcancelled =>
          rw [hcancelled] at hdone
          cases hdone
        | part hleaves _ haccepted =>
          dsimp only at hrestake
          rw [if_pos haccepted] at hrestake
          exact hrestake _ lot List.mem_cons_self hleaves hkept.books hactive
      rcases redeemCollateralFromTrove_evolves hd hsound hplain hkept happlied.settled hstake hsingle with
        ⟨hcancelled, hsame⟩ | ⟨hdone, e₂, -, -⟩
      · rw [if_pos hcancelled] at h
        cases h
        rw [hsame]
        exact e₁
      simp only [hdone, Bool.false_eq_true, if_false, bind_ok, add_ok, sub_ok] at h
      obtain ⟨_, ⟨-, rfl⟩, _, ⟨-, rfl⟩, _, ⟨-, rfl⟩, h⟩ := h
      refine e₁.trans (e₂.trans ?_)
      cases htried with
      | refused _ hcancelled =>
        rw [hcancelled] at hdone
        cases hdone
      | full hcloses _ hclosed =>
        -- the loop goes on above a closed trove, where nothing has changed
        have haccepted : lot.accepted hints.partialRedemptionHintNICR = true := by
          rw [RedemptionLot.accepted, hcloses]
          rfl
        have hnext := hfollows.next hd hs₁ hlot hfits hcloses hclosed
        dsimp only at hrestake
        rw [if_pos haccepted] at hrestake
        rw [getPrev_concat hfollows.sound.list hv] at h
        rw [hLUSD, hETH] at h ⊢
        exact ih (fun L lot hmem => hrestake L lot (List.mem_cons_of_mem _ hmem)) hnext h
      | part hleaves =>
        -- nothing is left to redeem
        have hall : lot.LUSD = r.remainingLUSD := by
          rw [hlot] at hfits hleaves ⊢
          exact redemptionLot_open hfits.1 hleaves
        obtain rfl := redemptionLoop_of_zero (by simp only [hLUSD, hall, Nat.sub_self]) h
        exact .refl (e₂.sound hd hsound)
    next =>
      cases h
      exact .refl hfollows.sound

/-! ## Where it starts -/

/-- The search for the first redeemable trove passes the troves below the minimum ratio. -/
theorem findFirstRedeemable_ok {u v : List Address} {rounds : Nat} {first : Address}
    (hlist : SortedTroves.IsList s.sortedTroves s.sortedTroves.toList)
    (huv : s.sortedTroves.toList = u ++ v)
    (hbelow : ∀ y ∈ v, ∃ ICR, s.troveManager.getCurrentICR y price = .ok ICR ∧ ICR < MCR)
    (h : findFirstRedeemable price s rounds (u.getLastD 0) = .ok first) (hfirst : first ≠ 0) :
    ∃ u v ICR, s.sortedTroves.toList = u ++ first :: v ∧
      s.troveManager.getCurrentICR first price = .ok ICR ∧ MCR ≤ ICR ∧
      ∀ y ∈ v, ∃ ICR, s.troveManager.getCurrentICR y price = .ok ICR ∧ ICR < MCR := by
  induction rounds generalizing u v with
  | zero => cases h
  | succ rounds ih =>
    unfold findFirstRedeemable at h
    rcases List.eq_nil_or_concat' u with rfl | ⟨u, cur, rfl⟩
    · exact absurd (Except.ok.inj h).symm hfirst
    have hcur : (u ++ [cur]).getLastD 0 = cur := by
      rw [getLastD_append]
      rfl
    have hmiddle : s.sortedTroves.toList = u ++ cur :: v := by rw [huv, List.append_assoc]; rfl
    have hne : cur ≠ 0 := hlist.ne_zero (by simp [hmiddle])
    rw [hcur, if_pos hne] at h
    obtain ⟨ICR, hICR, h⟩ := bind_ok.mp h
    split at h
    next hlt =>
      have hprev : s.sortedTroves.getPrev cur = u.getLastD 0 := by
        have hlinked := hlist.linked
        rw [hmiddle] at hlinked
        exact hlinked.middle.1
      rw [hprev] at h
      refine ih hmiddle (fun y hy => ?_) h
      rcases List.mem_cons.mp hy with rfl | hy
      · exact ⟨ICR, hICR, hlt⟩
      · exact hbelow y hy
    next hge =>
      obtain rfl := pure_ok.mp h
      exact ⟨u, v, ICR, hmiddle, hICR, Nat.not_lt.mp hge, hbelow⟩

/-- A redemption starts at a trove of the list, or at its end. -/
theorem firstRedeemable_ok {hint first : Address}
    (hlist : SortedTroves.IsList s.sortedTroves s.sortedTroves.toList)
    (h : firstRedeemable hint price s = .ok first) :
    ∃ w v, s.sortedTroves.toList = w ++ v ∧ w.getLastD 0 = first ∧
      s.redeemedFrom hint price = w.reverse := by
  have hfrom : s.redeemedFrom hint price =
      s.sortedTroves.toList.reverse.dropWhile fun b => decide (b ≠ first) := by
    rw [System.redeemedFrom, h]
  by_cases hzero : first = 0
  · subst hzero
    refine ⟨[], _, rfl, rfl, ?_⟩
    rw [hfrom, List.reverse_nil, List.dropWhile_eq_nil_iff]
    exact fun y hy => decide_eq_true (hlist.ne_zero (List.mem_reverse.mp hy))
  have hmem : first ∈ s.sortedTroves.toList := by
    obtain ⟨valid, hvalid, h⟩ := bind_ok.mp h
    split at h
    next htrue =>
      obtain rfl := pure_ok.mp h
      rw [htrue] at hvalid
      unfold isValidFirstRedemptionHint at hvalid
      split at hvalid
      next => cases hvalid
      next hpresent =>
        by_contra hmem
        exact hpresent (.inr (Bool.eq_false_iff.mpr (mt (hlist.contains_iff hint).mp hmem)))
    next =>
      rw [SortedTroves.getLast, hlist.tail_eq] at h
      obtain ⟨u, v, -, huv, -⟩ := findFirstRedeemable_ok hlist (List.append_nil _).symm (by simp) h hzero
      simp [huv]
  obtain ⟨u, v, huv⟩ := List.append_of_mem hmem
  refine ⟨u ++ [first], v, by rw [huv, List.append_assoc]; rfl, by rw [getLastD_append]; rfl, ?_⟩
  have hnotMem : first ∉ v := by
    have hnodup := hlist.nodup
    rw [huv] at hnodup
    exact (List.nodup_cons.mp (List.nodup_append.mp hnodup).2.1).1
  rw [hfrom, huv, List.reverse_append, List.reverse_cons, List.append_assoc,
    List.dropWhile_append_of_pos]
  · rw [List.singleton_append, List.dropWhile_cons_of_neg (by simp), List.reverse_append]
    rfl
  · rintro y hy
    refine decide_eq_true ?_
    rintro rfl
    exact hnotMem (List.mem_reverse.mp hy)

theorem redeemedFrom_sublist (hint : Address) (price : Nat) (s : System) :
    (s.redeemedFrom hint price).Sublist s.sortedTroves.toList.reverse := by
  unfold System.redeemedFrom
  split
  · exact List.dropWhile_sublist _
  · exact List.nil_sublist _

/-- The lots only depend on the troves and the list. -/
theorem redemptionLots_congr {amount maxIterations : Nat} {hints : RedemptionHints}
    (htm : s'.troveManager = s.troveManager) (hlist : s'.sortedTroves = s.sortedTroves) :
    s'.redemptionLots price amount hints maxIterations =
      s.redemptionLots price amount hints maxIterations := by
  have hfind : ∀ rounds current, findFirstRedeemable price s' rounds current =
      findFirstRedeemable price s rounds current := by
    intro rounds
    induction rounds with
    | zero => exact fun _ => rfl
    | succ rounds ih =>
      intro current
      rw [findFirstRedeemable, findFirstRedeemable, htm, hlist]
      simp only [ih]
  have hvalid : ∀ hint, isValidFirstRedemptionHint hint price s' =
      isValidFirstRedemptionHint hint price s := by
    intro hint
    rw [isValidFirstRedemptionHint, isValidFirstRedemptionHint, htm, hlist]
  have hfirst : ∀ hint, firstRedeemable hint price s' = firstRedeemable hint price s := by
    intro hint
    rw [firstRedeemable, firstRedeemable, hvalid, hfind, hlist]
  rw [System.redemptionLots, System.redemptionLots, System.redeemedFrom, System.redeemedFrom, hfirst,
    htm, hlist]

theorem redeemCollateral_evolves (hd : d.Wired) (hs : Sound d s .none)
    (hplain : ∀ L, allow L .plain) {env : Env} (hsender : d.External env.sender)
    {amount maxIterations maxFee : Nat} {hints : RedemptionHints}
    (hrestake : ∀ L, ∀ lot ∈ s.redemptionLots env.price amount hints maxIterations,
      lot.closes = false → RewardsKept s.troveManager L.tm →
        (L.tm.troves lot.borrower).status = .active →
          allow L (.restake lot.borrower (lot.coll - lot.ETH)))
    (h : redeemCollateral d env amount hints maxIterations maxFee s = .ok s') :
    Evolves d allow s .none s' .none := by
  simp only [redeemCollateral, bind_ok] at h
  obtain ⟨-, -, -, -, -, -, -, -, -, -, supply, -, -, -, first, hfirst, r, hr, h⟩ := h
  obtain ⟨w, v, hwv, rfl, hfrom⟩ := firstRedeemable_ok hs.list hfirst
  rw [System.redemptionLots, hfrom] at hrestake
  have e : Evolves d allow s .none r.system r.inFlight :=
    redemptionLoop_evolves hd hplain hrestake ⟨hs, .refl _, v, hwv⟩ hr
  exact e.trans (settleRedemption_evolves hd hplain hsender (e.sound hd hs) h)

end Liquity
