import Liquity.HintHelpers
import Liquity.Properties.RedemptionLots

/-!
# Redemption hints

`getRedemptionHints` simulates a redemption in another contract.  The simulation adds a trove's pending
debt whenever there is any, the redemption only where `hasPendingRewards` sees it, which looks at the
collateral accumulator alone.  Where the two agree on the troves that the redemption comes to, the
redemption does what the hints say.
-/

open Lib

namespace Liquity

open SafeMath LiquityMath TroveManager HintHelpers

variable {d : Deployment} {s s' : System} {b : Address} {price : Nat}

/-! ## The troves that a redemption comes to -/

namespace TroveManager

/-- A trove's debt with its pending rewards and without the gas reserve. -/
def netDebt (t : TroveManager) (b : Address) : Nat :=
  (t.troves b).debt + t.pendingLUSDDebt b - LUSD_GAS_COMPENSATION

/-- Applying the pending rewards of the trove leaves no debt pending. -/
def DebtVisible (t : TroveManager) (b : Address) : Prop :=
  t.hasPendingRewards b = false → t.pendingLUSDDebt b = 0

instance (t : TroveManager) (b : Address) : Decidable (t.DebtVisible b) :=
  inferInstanceAs (Decidable (_ → _))

theorem settledDebt_eq {t : TroveManager} (h : t.DebtVisible b) :
    t.settledDebt b = (t.troves b).debt + t.pendingLUSDDebt b := by
  unfold settledDebt
  split
  · rfl
  next hnone => rw [h (by simpa using hnone)]

end TroveManager

/-- The troves of `ids` that a redemption of `amount` comes to, in this order and within a number of
iterations: those before which the net debts have not added up to the amount. -/
def reached (net : Address → Nat) : (ids : List Address) → (amount iterations : Nat) → List Address
  | [], _, _ => []
  | b :: rest, amount, iterations =>
    if 0 < amount ∧ 0 < iterations then b :: reached net rest (amount - net b) (iterations - 1)
    else []

/-- The troves from the first one that can be redeemed upwards. -/
def System.redeemable (price : Nat) (s : System) : List Address :=
  s.sortedTroves.toList.reverse.dropWhile fun b =>
    decide (okOr (s.troveManager.getCurrentICR b price) maxRatio < MCR)

/-- Every trove that a redemption comes to has all its pending debt applied first. -/
def HintsReliable (amount price maxIterations : Nat) (s : System) : Prop :=
  ∀ b ∈ reached s.troveManager.netDebt (s.redeemable price) amount (iterationLimit maxIterations),
    s.troveManager.DebtVisible b

instance (amount price maxIterations : Nat) (s : System) :
    Decidable (HintsReliable amount price maxIterations s) :=
  List.decidableBAll _ _

/-! ## The first hint -/

/-- The trove that the helper finds is the one that a redemption starts from. -/
theorem isValidFirstRedemptionHint_of_found {u v : List Address} {first : Address} {ICR : Nat}
    (hlist : SortedTroves.IsList s.sortedTroves s.sortedTroves.toList)
    (huv : s.sortedTroves.toList = u ++ first :: v)
    (hICR : s.troveManager.getCurrentICR first price = .ok ICR) (hge : MCR ≤ ICR)
    (hbelow : ∀ y ∈ v, ∃ ICR, s.troveManager.getCurrentICR y price = .ok ICR ∧ ICR < MCR) :
    isValidFirstRedemptionHint first price s = .ok true := by
  have hmem : first ∈ s.sortedTroves.toList := by simp [huv]
  have hne : first ≠ 0 := hlist.ne_zero hmem
  have hcontains := hlist.present first hmem
  have hnext : s.sortedTroves.getNext first = v.headD 0 := by
    have hlinked := hlist.linked
    rw [huv] at hlinked
    exact hlinked.middle.2
  unfold isValidFirstRedemptionHint
  rw [if_neg (by simp [hne, hcontains]), bind_ok]
  refine ⟨ICR, hICR, ?_⟩
  rw [if_neg (Nat.not_lt.mpr hge), hnext]
  cases v with
  | nil => rfl
  | cons y v =>
    have hy : y ≠ 0 := hlist.ne_zero (by simp [huv])
    obtain ⟨r, hr, hlt⟩ := hbelow y (by simp)
    simp only [List.headD_cons, if_neg hy, hr]
    exact congrArg Except.ok (decide_eq_true hlt)

/-- What is redeemable begins with the trove that the helper finds. -/
theorem redeemable_eq {u v : List Address} {first : Address} {ICR : Nat}
    (huv : s.sortedTroves.toList = u ++ first :: v)
    (hICR : s.troveManager.getCurrentICR first price = .ok ICR) (hge : MCR ≤ ICR)
    (hbelow : ∀ y ∈ v, ∃ ICR, s.troveManager.getCurrentICR y price = .ok ICR ∧ ICR < MCR) :
    s.redeemable price = (u ++ [first]).reverse := by
  unfold System.redeemable
  rw [huv, List.reverse_append, List.reverse_cons, List.append_assoc, List.dropWhile_append_of_pos]
  · rw [List.singleton_append, List.dropWhile_cons_of_neg, List.reverse_append]
    · rfl
    · rw [hICR, okOr_ok, decide_eq_true_eq]
      exact Nat.not_lt.mpr hge
  · intro y hy
    obtain ⟨r, hr, hlt⟩ := hbelow y (List.mem_reverse.mp hy)
    rw [hr]
    exact decide_eq_true hlt

/-! ## The loops -/

/-- The trove that the simulation takes a part of. -/
theorem partialRedemption_ok {t : TroveManager} {net R : Nat} {simulated : Nat × Nat}
    (hactive : (t.troves b).status = .active)
    (h : partialRedemption b price net R t = .ok simulated) :
    simulated.2 = R ∨ (simulated.2 ≤ R ∧ R - simulated.2 + MIN_NET_DEBT ≤ net ∧
      computeNominalCR
        ((t.troves b).coll + t.pendingETH b - (R - simulated.2) * DECIMAL_PRECISION / price)
        (net - (R - simulated.2) + LUSD_GAS_COMPENSATION) = .ok simulated.1) := by
  unfold partialRedemption at h
  split at h
  next hlt =>
    right
    simp only [LiquityBase.getCompositeDebt, bind_ok, pure_ok, sub_ok, add_ok, mul_ok, div_ok,
      min_eq] at h
    obtain ⟨_, ⟨-, rfl⟩, pe, hpe, _, ⟨-, rfl⟩, _, ⟨-, rfl⟩, _, ⟨-, rfl⟩, _, ⟨-, rfl⟩, _, ⟨-, rfl⟩, _,
      ⟨-, rfl⟩, NICR, hNICR, _, ⟨-, rfl⟩, rfl⟩ := h
    obtain ⟨-, rfl⟩ := getPendingETHReward_ok hactive hpe
    have hlot : R - (R - Min.min R (net - MIN_NET_DEBT)) = Min.min R (net - MIN_NET_DEBT) := by omega
    dsimp only
    rw [hlot]
    exact ⟨Nat.sub_le _ _, by omega, hNICR⟩
  · cases h
    exact .inl rfl

/-- A trove whose net debt is covered is closed, and the redemption goes on above it. -/
theorem Follows.full (hd : d.Wired) {w : List Address} {hints : RedemptionHints}
    {r : RedemptionState} {s₁ : System} {single : SingleRedemptionValues × System}
    (h : Follows d s (w ++ [b]) r) (hvisible : s.troveManager.DebtVisible b)
    (hle : s.troveManager.netDebt b ≤ r.remainingLUSD)
    (hs₁ : applyPendingRewardsInternal d b r.system = .ok s₁)
    (hsingle : redeemCollateralFromTrove d b r.remainingLUSD price hints s₁ = .ok single) :
    single.1.cancelledPartial = false ∧ single.1.LUSDLot = s.troveManager.netDebt b ∧
      Follows d s w { remainingLUSD := r.remainingLUSD - single.1.LUSDLot
                      totalLUSDToRedeem := r.totalLUSDToRedeem + single.1.LUSDLot
                      totalETHDrawn := r.totalETHDrawn + single.1.ETHLot
                      system := single.2 } ∧
      ∀ x ≠ d.gasPool, single.2.lusdToken.balances x = r.system.lusdToken.balances x := by
  have hdebt := settledDebt_eq hvisible
  obtain ⟨hGAS, hcases⟩ := h.round hd hs₁ hsingle rfl
  unfold netDebt at hle ⊢
  rw [← hdebt] at hle ⊢
  -- the lot is the whole net debt, so only the gas reserve is left
  have hlot : (s.troveManager.redemptionLot price r.remainingLUSD b).LUSD =
      s.troveManager.settledDebt b - LUSD_GAS_COMPENSATION := Nat.min_eq_right hle
  have hcloses : (s.troveManager.redemptionLot price r.remainingLUSD b).closes = true := by
    refine decide_eq_true ?_
    change s.troveManager.settledDebt b - _ = _
    rw [hlot]
    exact Nat.sub_sub_self hGAS
  rcases hcases with ⟨-, hrefused, -⟩ | ⟨hdone, -, hLUSD, -, htaken, hnext⟩
  · rw [RedemptionLot.accepted, hcloses] at hrefused
    cases hrefused
  · exact ⟨hdone, hLUSD.trans hlot, hnext hcloses, htaken.balances⟩

/-- A part of the last trove is taken, because the ratio that it leaves was predicted. -/
theorem Follows.part (hd : d.Wired) {w : List Address} {hints : RedemptionHints}
    {r : RedemptionState} {s₁ : System} {single : SingleRedemptionValues × System}
    (h : Follows d s (w ++ [b]) r) (hvisible : s.troveManager.DebtVisible b)
    (hle : r.remainingLUSD + MIN_NET_DEBT ≤ s.troveManager.netDebt b)
    (hNICR : computeNominalCR ((s.troveManager.troves b).coll + s.troveManager.pendingETH b -
        r.remainingLUSD * DECIMAL_PRECISION / price)
      (s.troveManager.netDebt b - r.remainingLUSD + LUSD_GAS_COMPENSATION) =
        .ok hints.partialRedemptionHintNICR)
    (hs₁ : applyPendingRewardsInternal d b r.system = .ok s₁)
    (hsingle : redeemCollateralFromTrove d b r.remainingLUSD price hints s₁ = .ok single) :
    single.1.cancelledPartial = false ∧ single.1.LUSDLot = r.remainingLUSD ∧
      ∀ x ≠ d.gasPool, single.2.lusdToken.balances x = r.system.lusdToken.balances x := by
  obtain ⟨v, hv⟩ := h.order
  have hactive := (h.sound.registered.mem_order b).mp (by simp [hv])
  have hcoll := settledColl_eq (h.kept.trove b hactive).1
  have hdebt := settledDebt_eq hvisible
  obtain ⟨hGAS, hcases⟩ := h.round hd hs₁ hsingle rfl
  unfold netDebt at hle hNICR
  rw [← hdebt] at hle hNICR
  rw [← hcoll] at hNICR
  have hmin : 0 < MIN_NET_DEBT := by decide
  have hlot : (s.troveManager.redemptionLot price r.remainingLUSD b).LUSD = r.remainingLUSD :=
    Nat.min_eq_left (by omega)
  have hleft : s.troveManager.settledDebt b - LUSD_GAS_COMPENSATION - r.remainingLUSD +
      LUSD_GAS_COMPENSATION = s.troveManager.settledDebt b - r.remainingLUSD := by omega
  rw [hleft] at hNICR
  -- the ratio left is the hint, and the debt left is large enough
  have haccepted : (s.troveManager.redemptionLot price r.remainingLUSD b).accepted
      hints.partialRedemptionHintNICR = true := by
    rw [RedemptionLot.accepted, Bool.or_eq_true, decide_eq_true_eq, redemptionLot_ETH, hlot]
    right
    refine ⟨hNICR, ?_⟩
    change Ledger.minDebt ≤ s.troveManager.settledDebt b - r.remainingLUSD
    unfold Ledger.minDebt
    omega
  rcases hcases with ⟨-, hrefused, -⟩ | ⟨hdone, -, hLUSD, -, htaken, -⟩
  · rw [haccepted] at hrefused
    cases hrefused
  · exact ⟨hdone, hLUSD.trans hlot, htaken.balances⟩

theorem redemptionHintsLoop_le {rounds : Nat} {current : Address} {iterations R : Nat}
    {simulated : Nat × Nat}
    (h : redemptionHintsLoop price s rounds current iterations R = .ok simulated) :
    simulated.2 ≤ R := by
  induction rounds generalizing current iterations R with
  | zero => cases h
  | succ rounds ih =>
    unfold redemptionHintsLoop at h
    split at h
    · simp only [bind_ok] at h
      obtain ⟨_, -, _, -, net, -, h⟩ := h
      split at h
      · unfold partialRedemption at h
        split at h
        · simp only [bind_ok, pure_ok, sub_ok] at h
          obtain ⟨_, -, _, -, _, -, _, -, _, -, _, -, _, -, _, -, _, -, _, ⟨-, rfl⟩, rfl⟩ := h
          exact Nat.sub_le _ _
        · cases h
          exact Nat.le_refl _
      · obtain ⟨_, hsub, h⟩ := bind_ok.mp h
        obtain ⟨-, rfl⟩ := sub_ok.mp hsub
        exact (ih h).trans (Nat.sub_le _ _)
    · cases h
      exact Nat.le_refl _

/-- All that was left in `r` is redeemed in `r'`, and only the gas reserves are burned so far. -/
structure Redeemed (d : Deployment) (r r' : RedemptionState) : Prop where
  remaining : r'.remainingLUSD = 0
  total : r'.totalLUSDToRedeem = r.totalLUSDToRedeem + r.remainingLUSD
  balances : ∀ x ≠ d.gasPool, r'.system.lusdToken.balances x = r.system.lusdToken.balances x

theorem redemptionLoop_done {hints : RedemptionHints} {rounds iterations : Nat} {current : Address}
    {r r' : RedemptionState} (hzero : r.remainingLUSD = 0)
    (h : redemptionLoop d price hints rounds current iterations r = .ok r') : Redeemed d r r' := by
  obtain rfl := redemptionLoop_of_zero hzero h
  exact ⟨hzero, by omega, fun _ _ => rfl⟩

/-- The redemption takes from each trove what the simulation takes, and ends with nothing left: no
partial redemption is cancelled. -/
theorem redemptionLoop_follows (hd : d.Wired) (hs : Sound d s .none) {w v : List Address}
    (hwv : s.sortedTroves.toList = w ++ v) {rounds rounds' iterations R : Nat}
    {simulated : Nat × Nat} {hints : RedemptionHints} {r r' : RedemptionState}
    (hsim : redemptionHintsLoop price s rounds (w.getLastD 0) iterations R = .ok simulated)
    (hvisible : ∀ b ∈ reached s.troveManager.netDebt w.reverse R iterations,
      s.troveManager.DebtVisible b)
    (hfollows : Follows d s w r) (hremaining : r.remainingLUSD + simulated.2 = R)
    (hhint : hints.partialRedemptionHintNICR = simulated.1)
    (h : redemptionLoop d price hints rounds' (w.getLastD 0) iterations r = .ok r') :
    Redeemed d r r' := by
  -- on the rounds of the simulation; `w` is what both have still to come to
  induction rounds generalizing w v rounds' iterations R r with
  | zero => cases hsim
  | succ rounds ih =>
    unfold redemptionHintsLoop at hsim
    -- both go on as long as there is a trove, an amount and an iteration left
    split at hsim
    next hcontinue =>
      rcases List.eq_nil_or_concat' w with rfl | ⟨w, b, rfl⟩
      · exact absurd rfl hcontinue.1
      have hlast : (w ++ [b]).getLastD 0 = b := by
        rw [getLastD_append]
        rfl
      rw [hlast] at hcontinue hsim h
      have hactive : (s.troveManager.troves b).status = .active :=
        (hs.registered.mem_order b).mp (by simp [hwv])
      -- the simulation reads the net debt with all that is pending
      simp only [LiquityBase.getNetDebt, bind_ok, sub_ok, add_ok] at hsim
      obtain ⟨_, ⟨hGAS, rfl⟩, pending, hpending, net, ⟨-, hnet⟩, hsim⟩ := hsim
      obtain ⟨-, rfl⟩ := getPendingLUSDDebtReward_ok hactive hpending
      have hnetDebt : net = s.troveManager.netDebt b := by
        unfold netDebt
        omega
      rw [hnetDebt] at hsim
      rw [List.reverse_append, List.reverse_singleton, List.singleton_append, reached,
        if_pos hcontinue.2] at hvisible
      obtain ⟨hb, hvisible⟩ := List.forall_mem_cons.mp hvisible
      by_cases hzero : r.remainingLUSD = 0
      · exact redemptionLoop_done hzero h
      cases rounds' with
      | zero => cases h
      | succ rounds' =>
        rw [redemptionLoop, if_pos ⟨hcontinue.1, Nat.pos_of_ne_zero hzero, hcontinue.2.2⟩] at h
        simp only [bind_ok] at h
        obtain ⟨s₁, hs₁, single, hsingle, h⟩ := h
        split at hsim
        next hpartial =>
          rcases partialRedemption_ok hactive hsim with hnone | ⟨hle, hmin, hNICR⟩
          · omega
          · have hlot : R - simulated.2 = r.remainingLUSD := by omega
            rw [hlot] at hmin hNICR
            rw [← hhint] at hNICR
            obtain ⟨hkept, hlotEq, hbalances⟩ := hfollows.part hd hb hmin hNICR hs₁ hsingle
            simp only [hkept, Bool.false_eq_true, if_false, bind_ok, add_ok, sub_ok] at h
            obtain ⟨_, ⟨-, rfl⟩, _, ⟨-, rfl⟩, _, ⟨-, rfl⟩, h⟩ := h
            have hnext := redemptionLoop_done (by simp only [hlotEq, Nat.sub_self]) h
            have htotal := hnext.total
            simp only [hlotEq, Nat.sub_self, Nat.add_zero] at htotal
            exact ⟨hnext.remaining, htotal, fun x hx => (hnext.balances x hx).trans (hbalances x hx)⟩
        next hfull =>
          obtain ⟨_, hsub, hsim⟩ := bind_ok.mp hsim
          obtain ⟨hle, rfl⟩ := sub_ok.mp hsub
          have hleft := redemptionHintsLoop_le hsim
          have hcovered : s.troveManager.netDebt b ≤ r.remainingLUSD := by omega
          obtain ⟨hkept, hlotEq, hfollows₁, hbalances⟩ := hfollows.full hd hb hcovered hs₁ hsingle
          simp only [hkept, Bool.false_eq_true, if_false, bind_ok, add_ok, sub_ok] at h
          obtain ⟨_, ⟨-, rfl⟩, _, ⟨-, rfl⟩, _, ⟨-, rfl⟩, h⟩ := h
          rw [getPrev_concat hs.list hwv] at hsim
          obtain ⟨v', hv'⟩ := hfollows.order
          rw [getPrev_concat hfollows.sound.list hv'] at h
          rw [List.append_assoc] at hwv
          have hnext := ih hwv hsim hvisible hfollows₁ (by dsimp only; omega) h
          have htotal := hnext.total
          dsimp only at htotal
          refine ⟨hnext.remaining, by omega, fun x hx => ?_⟩
          exact (hnext.balances x hx).trans (hbalances x hx)
    next =>
      cases hsim
      exact redemptionLoop_done (by omega) h

/-! ## The call -/

/-- The redeemer pays what the loop tallied. -/
theorem settleRedemption_balance (hd : d.Wired) {env : Env} (hsender : d.External env.sender)
    {supply maxFee : Nat} {r : RedemptionState}
    (h : settleRedemption d env supply maxFee r = .ok s') :
    s'.lusdToken.balances env.sender + r.totalLUSDToRedeem =
      r.system.lusdToken.balances env.sender := by
  simp only [settleRedemption, bind_ok, System.onTroveManager_ok, System.onLQTYStaking_ok,
    System.onLUSDToken_ok, System.onActivePool_ok] at h
  obtain ⟨-, -, _, ⟨t, -, rfl⟩, fee, -, -, -, s₂, h₂, _, ⟨l, -, rfl⟩, rest, -, _, ⟨token, htoken, rfl⟩, _,
    ⟨p, -, rfl⟩, h₆⟩ := h
  -- the payments of ether do not touch the token
  obtain ⟨-, -, ether, rfl⟩ := ActivePool.sendETH_lqtyStaking hd h₂
  dsimp only at htoken h₆
  obtain ⟨hbalance, -, rfl⟩ := LUSDToken.burn_ok htoken
  obtain ⟨-, -, ether', rfl⟩ := ActivePool.sendETH_external hsender h₆
  simp only [Function.update_self]
  omega

/-- The arguments of a redemption that takes its hints from the helper. -/
def HintHelpers.RedemptionSimulation.toHints (hints : RedemptionSimulation) (upper lower : Address) :
    RedemptionHints :=
  ⟨hints.firstRedemptionHint, upper, lower, hints.partialRedemptionHintNICR⟩

/-- The redemption accepts the first hint, takes the truncated amount from the redeemer, and its loop
ends with nothing left to redeem; a cancelled partial redemption would leave something. -/
structure HintsFollowed (d : Deployment) (env : Env) (hints : RedemptionSimulation)
    (upper lower : Address) (maxIterations : Nat) (s s' : System) : Prop where
  accepted : isValidFirstRedemptionHint hints.firstRedemptionHint env.price s = .ok true
  redeemed : s'.lusdToken.balances env.sender + hints.truncatedLUSDamount =
    s.lusdToken.balances env.sender
  completed : ∃ r, redemptionLoop d env.price (hints.toHints upper lower) (s.sortedTroves.size + 1)
      hints.firstRedemptionHint (iterationLimit maxIterations)
      ⟨hints.truncatedLUSDamount, 0, 0, { s with timestamp := env.timestamp }⟩ = .ok r ∧
    r.remainingLUSD = 0 ∧ r.totalLUSDToRedeem = hints.truncatedLUSDamount

/-- A redemption with fresh hints does what they say, if every trove that it comes to has all its
pending debt applied first. -/
theorem redemption_follows_hints (hd : d.Wired) (hr : Reachable d s) {env : Env}
    {amount maxIterations maxFee : Nat} {upper lower : Address} {hints : RedemptionSimulation}
    (hhints : getRedemptionHints amount env.price maxIterations s = .ok hints)
    (hreliable : HintsReliable amount env.price maxIterations s)
    (hstep : Step d s ⟨env, .redeemCollateral hints.truncatedLUSDamount (hints.toHints upper lower)
      maxIterations maxFee⟩ s') :
    HintsFollowed d env hints upper lower maxIterations s s' := by
  have hs := hr.sound hd
  have hexternal := hstep.1.external
  obtain ⟨ether, h, hether, -⟩ := hstep.body hd
  obtain rfl := hether rfl
  simp only [getRedemptionHints, bind_ok, pure_ok, sub_ok] at hhints
  obtain ⟨first, hfirst, simulated, hsim, _, ⟨hle, rfl⟩, rfl⟩ := hhints
  simp only [Call.body, redeemCollateral, bind_ok, require_ok] at h
  obtain ⟨-, -, -, -, -, -, -, hpos, -, -, supply, -, -, -, current, hcurrent, r, hloop, hsettle⟩ := h
  -- some trove was found, because the simulation redeems something
  have hne : first ≠ 0 := by
    rintro rfl
    rw [redemptionHintsLoop, if_neg (by simp)] at hsim
    cases hsim
    simp at hpos
  have hend : s.sortedTroves.getLast = s.sortedTroves.toList.getLastD 0 := hs.list.tail_eq
  rw [hend] at hfirst
  obtain ⟨u, v, ICR, huv, hICR, hge, hbelow⟩ :=
    findFirstRedeemable_ok hs.list (List.append_nil _).symm (by simp) hfirst hne
  have haccepted := isValidFirstRedemptionHint_of_found hs.list huv hICR hge hbelow
  have hlast : (u ++ [first]).getLastD 0 = first := by
    rw [getLastD_append]
    rfl
  have hstart : current = first := by
    obtain ⟨valid, hvalid, hcurrent⟩ := bind_ok.mp hcurrent
    cases (haccepted.symm.trans hvalid : Except.ok true = Except.ok valid)
    exact (Except.ok.inj hcurrent).symm
  subst hstart
  have hs₀ : Sound d { s with timestamp := env.timestamp } .none := { hs with }
  have huv' : s.sortedTroves.toList = (u ++ [current]) ++ v := by rw [huv, List.append_assoc]; rfl
  have hfollows : Follows d s (u ++ [current])
      ⟨amount - simulated.2, 0, 0, { s with timestamp := env.timestamp }⟩ :=
    ⟨hs₀, .refl _, v, huv'⟩
  unfold HintsReliable at hreliable
  rw [redeemable_eq huv hICR hge hbelow] at hreliable
  rw [← hlast] at hsim
  have hloop' := hloop
  rw [← hlast] at hloop
  have hdone := redemptionLoop_follows hd hs huv' hsim hreliable hfollows
    (Nat.sub_add_cancel hle) rfl hloop
  have htotal := hdone.total
  rw [Nat.zero_add] at htotal
  refine ⟨haccepted, ?_, r, hloop', hdone.remaining, htotal⟩
  have hpaid := settleRedemption_balance hd hexternal hsettle
  rw [htotal, hdone.balances env.sender hexternal.ne_gasPool] at hpaid
  exact hpaid

/-- The hints for redeeming 1200 LUSD from the sample troves. -/
def sampleHints : RedemptionSimulation := ⟨102, 351090232228328310, 1200 * 10 ^ 18⟩

/-- A redemption that closes the last trove of the list and takes a part of the one above it. -/
theorem sampleHints_followed : ∃ s s', Reachable sampleDeployment s ∧
    getRedemptionHints (1200 * 10 ^ 18) (2000 * 10 ^ 18) 0 s = .ok sampleHints ∧
    HintsFollowed sampleDeployment ⟨101, 0, 0, 2000 * 10 ^ 18⟩ sampleHints 0 0 0 s s' := by
  obtain ⟨s, s', hs, hstep, hhints, hreliable⟩ := exists_step sampleOpenings
    ⟨⟨101, 0, 0, 2000 * 10 ^ 18⟩, .redeemCollateral sampleHints.truncatedLUSDamount
      (sampleHints.toHints 0 0) 0 (10 ^ 18)⟩
    (fun s _ => (getRedemptionHints (1200 * 10 ^ 18) (2000 * 10 ^ 18) 0 s).toOption.any
        (fun hints => decide (hints = sampleHints)) = true ∧
      HintsReliable (1200 * 10 ^ 18) (2000 * 10 ^ 18) 0 s) (by decide +kernel)
  obtain ⟨_, hhints, rfl⟩ := exists_ok hhints
  exact ⟨s, s', hs, hhints,
    redemption_follows_hints sampleDeployment_wired hs hhints hreliable hstep⟩

/-- The hints for redeeming 1600 LUSD from two troves that owe a debt which applying their rewards
does not reach. -/
def staleHints : RedemptionSimulation := ⟨103, 340356178963773899, 1600 * 10 ^ 18⟩

/-- After a liquidation that left 10000 of a debt, and too little collateral to move its accumulator,
the first trove is closed without its share of that debt.  The rest of the amount is then larger than
predicted, and its partial redemption is cancelled. -/
theorem hints_not_followed :
    ¬ ∀ (d : Deployment) (s s' : System) (env : Env) (amount maxIterations maxFee : Nat)
      (upper lower : Address) (hints : RedemptionSimulation), d.Wired → Reachable d s →
      getRedemptionHints amount env.price maxIterations s = .ok hints →
      Step d s ⟨env, .redeemCollateral hints.truncatedLUSDamount (hints.toHints upper lower)
        maxIterations maxFee⟩ s' →
      HintsFollowed d env hints upper lower maxIterations s s' := by
  intro hall
  obtain ⟨s, s', hs, hstep, hhints, hpaid⟩ := exists_step
    (sampleOpenings ++ [⟨⟨103, 2 * 10 ^ 18, 0, 2000 * 10 ^ 18⟩, .openTrove (10 ^ 18) (1500 * 10 ^ 18) 0 0⟩,
      ⟨⟨101, 0, 0, 2000 * 10 ^ 18⟩, .provideToSP (10055 * 10 ^ 17 - 10000) 0⟩,
      ⟨⟨104, 0, 0, 1800 * 10 ^ 18⟩, .liquidate 102⟩])
    ⟨⟨101, 0, 0, 1800 * 10 ^ 18⟩, .redeemCollateral staleHints.truncatedLUSDamount
      (staleHints.toHints 0 0) 0 (10 ^ 18)⟩
    (fun s s' => (getRedemptionHints (1600 * 10 ^ 18) (1800 * 10 ^ 18) 0 s).toOption.any
        (fun hints => decide (hints = staleHints)) = true ∧
      s'.lusdToken.balances 101 + 15075 * 10 ^ 17 = s.lusdToken.balances 101) (by decide +kernel)
  obtain ⟨_, hhints, rfl⟩ := exists_ok hhints
  have hredeemed := (hall sampleDeployment s s' ⟨101, 0, 0, 1800 * 10 ^ 18⟩ (1600 * 10 ^ 18) 0 (10 ^ 18)
    0 0 staleHints sampleDeployment_wired hs hhints hstep).redeemed
  have htruncated : staleHints.truncatedLUSDamount = 1600 * 10 ^ 18 := rfl
  dsimp only at hredeemed
  omega

end Liquity
