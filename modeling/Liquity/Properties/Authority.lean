import Liquity.Influence.Steps
import Liquity.Reserves.Steps

/-!
# What the transactions of others can do to an account

Deposits, front ends, stakes, surpluses and ether are out of reach of everyone but their owner, tokens
up to the allowances that the owner gave, and the trove up to liquidations and redemptions.  The ether
and the LQTY of the system only move around, and the four pools hold the ether that they record.
-/

open Lib

namespace Liquity

variable {d : Deployment} {sender b : Address} {writable : Address → Prop} {s s' s'' : System}

/-! ## Tokens -/

/-- The tokens that leave `b` are charged to allowances of `b`, which do not grow. -/
structure WithinAllowances (b : Address) (balances balances' : Address → Nat)
    (allowances allowances' : Address → Address → Nat) : Prop where
  allowance_le : ∀ x, allowances' b x ≤ allowances b x
  spent : balances b + ∑ x, allowances' b x ≤ balances' b + ∑ x, allowances b x

namespace WithinAllowances

variable {f f' f'' : Address → Nat} {allow allow' allow'' : Address → Address → Nat}

theorem of_le (h : f b ≤ f' b) : WithinAllowances b f f' allow allow :=
  ⟨fun _ => Nat.le_refl _, Nat.add_le_add_right h _⟩

theorem trans (h : WithinAllowances b f f' allow allow')
    (h' : WithinAllowances b f' f'' allow' allow'') : WithinAllowances b f f'' allow allow'' := by
  refine ⟨fun x => (h'.allowance_le x).trans (h.allowance_le x), ?_⟩
  have hfirst := h.spent
  have hsecond := h'.spent
  omega

/-- Approvals of others are no concern of `b`. -/
theorem approve (hb : sender ≠ b) (allowed : Address → Nat) :
    WithinAllowances b f f allow (Function.update allow sender allowed) := by
  have hsame : Function.update allow sender allowed b = allow b := Function.update_of_ne hb.symm ..
  refine ⟨fun x => ?_, ?_⟩
  · rw [hsame]
  · rw [hsame]

/-- A payment of someone else, or one that an allowance of `b` covers. -/
theorem spend {owner recipient spender : Address} {amount : Nat}
    (hle : amount ≤ allow owner spender) :
    WithinAllowances b f (move f owner recipient amount) allow (Function.update allow owner
      (Function.update (allow owner) spender (allow owner spender - amount))) := by
  by_cases howner : b = owner
  · subst howner
    have hsum := sum_update_add (fun n => n) (allow b) spender (allow b spender - amount)
    have hleft : f b ≤ move f b recipient amount b + amount := le_move_add
    refine ⟨fun x => ?_, ?_⟩
    · rw [Function.update_self]
      by_cases hx : x = spender
      · subst hx
        rw [Function.update_self]
        omega
      · rw [Function.update_of_ne hx]
    · rw [Function.update_self]
      omega
  · have hsame : Function.update allow owner
        (Function.update (allow owner) spender (allow owner spender - amount)) b = allow b :=
      Function.update_of_ne howner ..
    have hleft : f b ≤ move f owner recipient amount b := le_move howner
    refine ⟨fun x => ?_, ?_⟩
    · rw [hsame]
    · rw [hsame]
      omega

end WithinAllowances

/-! ## Holdings -/

/-- What `b` has besides a trove is still there. -/
structure HoldingsLeft (b : Address) (s s' : System) : Prop where
  deposit : s'.stabilityPool.deposits b = s.stabilityPool.deposits b
  depositSnapshots : s'.stabilityPool.depositSnapshots b = s.stabilityPool.depositSnapshots b
  frontEnd : s'.stabilityPool.frontEnds b = s.stabilityPool.frontEnds b
  stake : s'.lqtyStaking.stakes b = s.lqtyStaking.stakes b
  stakeSnapshots : s'.lqtyStaking.snapshots b = s.lqtyStaking.snapshots b
  surplus : s.collSurplusPool.balances b ≤ s'.collSurplusPool.balances b
  ether : s.ether b ≤ s'.ether b
  LUSD : WithinAllowances b s.lusdToken.balances s'.lusdToken.balances s.lusdToken.allowances
    s'.lusdToken.allowances
  LQTY : WithinAllowances b s.lqtyToken.balances s'.lqtyToken.balances s.lqtyToken.allowances
    s'.lqtyToken.allowances

namespace HoldingsLeft

theorem refl (s : System) : HoldingsLeft b s s :=
  ⟨rfl, rfl, rfl, rfl, rfl, Nat.le_refl _, Nat.le_refl _, .of_le (Nat.le_refl _),
    .of_le (Nat.le_refl _)⟩

theorem trans (h : HoldingsLeft b s s') (h' : HoldingsLeft b s' s'') : HoldingsLeft b s s'' where
  deposit := h'.deposit.trans h.deposit
  depositSnapshots := h'.depositSnapshots.trans h.depositSnapshots
  frontEnd := h'.frontEnd.trans h.frontEnd
  stake := h'.stake.trans h.stake
  stakeSnapshots := h'.stakeSnapshots.trans h.stakeSnapshots
  surplus := h.surplus.trans h'.surplus
  ether := h.ether.trans h'.ether
  LUSD := h.LUSD.trans h'.LUSD
  LQTY := h.LQTY.trans h'.LQTY

end HoldingsLeft

/-- The payer of an effect is not an account outside the protocol that did not send the transaction. -/
theorem Deployment.External.ne_payer (hb : d.External b) (hsender : sender ≠ b) {a : Address}
    (hpayer : a = sender ∨ a ∈ d.contracts) : b ≠ a := by
  rintro rfl
  rcases hpayer with heq | hcontract
  · exact hsender heq.symm
  · exact hb.2 hcontract

theorem Effect.holdingsLeft (hb : d.External b) (hsender : sender ≠ b)
    (h : Effect d sender writable s s') : HoldingsLeft b s s' := by
  cases h with
  | troves => exact { HoldingsLeft.refl s with }
  | stabilityPool _ left =>
    obtain ⟨deposit, depositSnapshots, frontEnd⟩ := left b hsender.symm
    exact { HoldingsLeft.refl s with deposit, depositSnapshots, frontEnd }
  | staking left =>
    exact { HoldingsLeft.refl s with
      stake := (left b hsender.symm).1
      stakeSnapshots := (left b hsender.symm).2 }
  | surplus le => exact { HoldingsLeft.refl s with surplus := le b hsender.symm }
  | @mint account amount =>
    refine { HoldingsLeft.refl s with LUSD := .of_le ?_ }
    show s.lusdToken.balances b ≤ Function.update s.lusdToken.balances account _ b
    by_cases haccount : b = account
    · subst haccount
      rw [Function.update_self]
      omega
    · rw [Function.update_of_ne haccount]
  | @burn account amount payer =>
    refine { HoldingsLeft.refl s with LUSD := .of_le ?_ }
    show s.lusdToken.balances b ≤ Function.update s.lusdToken.balances account _ b
    rw [Function.update_of_ne (hb.ne_payer hsender payer)]
  | moveLUSD payer =>
    exact { HoldingsLeft.refl s with LUSD := .of_le (le_move (hb.ne_payer hsender payer)) }
  | approveLUSD => exact { HoldingsLeft.refl s with LUSD := .approve hsender _ }
  | spendLUSD le => exact { HoldingsLeft.refl s with LUSD := .spend le }
  | moveLQTY payer =>
    exact { HoldingsLeft.refl s with LQTY := .of_le (le_move (hb.ne_payer hsender payer)) }
  | approveLQTY => exact { HoldingsLeft.refl s with LQTY := .approve hsender _ }
  | spendLQTY le => exact { HoldingsLeft.refl s with LQTY := .spend le }
  | pay _ _ _ _ payer =>
    exact { HoldingsLeft.refl s with ether := le_move (hb.ne_payer hsender payer) }

theorem Effects.holdingsLeft (hb : d.External b) (hsender : sender ≠ b)
    (h : Effects d sender writable s s') : HoldingsLeft b s s' := by
  induction h with
  | refl => exact .refl s
  | tail _ hlast ih => exact ih.trans (hlast.holdingsLeft hb hsender)

/-! ## Runs -/

/-- A run of transactions that meet a condition, from one state to another. -/
def RunFrom (d : Deployment) (cond : System → Transaction → Prop) (s : System) : System → Prop :=
  Lib.Reachable (fun s₀ => s₀ = s) (Step d) cond

/-- A transaction that is not sent by `b`. -/
def SentByOther (b : Address) (_ : System) (t : Transaction) : Prop := t.env.sender ≠ b

instance (b : Address) (s : System) (t : Transaction) : Decidable (SentByOther b s t) :=
  inferInstanceAs (Decidable (_ ≠ _))

/-- A run that goes on from a state of concrete transactions, tested by evaluation. -/
theorem exists_runFrom (cond : System → Transaction → Prop) [∀ s t, Decidable (cond s t)]
    (before after : List Transaction) (p : System → System → Prop) [∀ s s', Decidable (p s s')]
    (h : (run sampleDeployment (fun _ _ => True) before sampleInitial).any (fun s =>
      (run sampleDeployment cond after s).any (fun s' => decide (p s s'))) = true) :
    ∃ s s', RunFrom sampleDeployment cond s s' ∧ p s s' := by
  obtain ⟨s, -, hafter⟩ := (Option.any_eq_true _ _).mp h
  obtain ⟨s', hs', hp⟩ := (Option.any_eq_true _ _).mp hafter
  exact ⟨s, s', reachable_of_run (.init rfl) hs', of_decide_eq_true hp⟩

/-- Whatever others do, and in whatever order, an account keeps its deposit, its front end, its stake,
its surplus and its ether, and loses no more LUSD and LQTY than it allowed others to spend. -/
theorem others_leave_holdings (hd : d.Wired) (hb : d.External b) (h : RunFrom d (SentByOther b) s s') :
    HoldingsLeft b s s' := by
  induction h with
  | init heq =>
    rw [heq]
    exact .refl s
  | step _ hsender hstep ih =>
    have hlast := (hstep.effects hd).holdingsLeft hb hsender
    exact ih.trans { hlast with }

/-- Two transfers, a deposit and a liquidation by other accounts.  The second transfer spends 50 of the
60 LUSD that 102 has allowed 103 to spend, and the liquidation closes the trove of 102. -/
theorem others_leave_holdings_sample : ∃ s s', RunFrom sampleDeployment (SentByOther 102) s s' ∧
    (s'.stabilityPool.deposits 102).initialValue = 100 * 10 ^ 18 ∧
    s.lusdToken.balances 102 = 900 * 10 ^ 18 ∧ s'.lusdToken.balances 102 = 850 * 10 ^ 18 ∧
    HoldingsLeft 102 s s' := by
  obtain ⟨s, s', hrun, hdeposit, hbefore, hafter⟩ := exists_runFrom (SentByOther 102)
    (sampleOpenings ++ [⟨⟨102, 0, 0, 2000 * 10 ^ 18⟩, .provideToSP (100 * 10 ^ 18) 0⟩,
      ⟨⟨102, 0, 0, 2000 * 10 ^ 18⟩, .approveLUSD 103 (60 * 10 ^ 18)⟩])
    [⟨⟨101, 0, 0, 2000 * 10 ^ 18⟩, .transferLUSD 103 (200 * 10 ^ 18)⟩,
      ⟨⟨103, 0, 0, 2000 * 10 ^ 18⟩, .transferLUSDFrom 102 103 (50 * 10 ^ 18)⟩,
      ⟨⟨101, 0, 0, 2000 * 10 ^ 18⟩, .provideToSP (500 * 10 ^ 18) 0⟩,
      ⟨⟨103, 0, 0, 1800 * 10 ^ 18⟩, .liquidate 102⟩]
    (fun s s' => (s'.stabilityPool.deposits 102).initialValue = 100 * 10 ^ 18 ∧
      s.lusdToken.balances 102 = 900 * 10 ^ 18 ∧ s'.lusdToken.balances 102 = 850 * 10 ^ 18)
    (by decide +kernel)
  exact ⟨s, s', hrun, hdeposit, hbefore, hafter,
    others_leave_holdings sampleDeployment_wired (by decide) hrun⟩

/-! ## Troves -/

/-- A transaction that neither `b` sent nor a redeemer. -/
def NeitherOwnNorRedemption (b : Address) (s : System) (t : Transaction) : Prop :=
  SentByOther b s t ∧ ∀ LUSDamount hints maxIterations maxFeePercentage,
    t.call ≠ .redeemCollateral LUSDamount hints maxIterations maxFeePercentage

/-- Such a transaction writes the trove of `b` only to liquidate it. -/
theorem NeitherOwnNorRedemption.liquidated {t : Transaction} (h : NeitherOwnNorRedemption b s t)
    (hwrites : t.Writes s' b) : TroveManager.Liquidated s' b := by
  obtain ⟨hsender, hcall⟩ := h
  unfold Transaction.Writes at hwrites
  split at hwrites
  · exact hwrites
  · exact hwrites
  · exact hwrites
  next heq => exact absurd heq (hcall _ _ _ _)
  · exact absurd hwrites.symm hsender

/-- The trove of `b` is as it was, and the accumulators have not fallen. -/
structure TroveLeft (b : Address) (t t' : TroveManager) : Prop where
  same : SameTrove t t' b
  status : (t'.troves b).status = (t.troves b).status
  L_ETH : t.L_ETH ≤ t'.L_ETH
  L_LUSDDebt : t.L_LUSDDebt ≤ t'.L_LUSDDebt

theorem TroveLeft.trans {t t' t'' : TroveManager} (h : TroveLeft b t t') (h' : TroveLeft b t' t'') :
    TroveLeft b t t'' :=
  ⟨h.same.trans h'.same, h'.status.trans h.status, h.L_ETH.trans h'.L_ETH,
    h.L_LUSDDebt.trans h'.L_LUSDDebt⟩

/-- A step that leaves the trove open has not written it. -/
theorem Step.troveLeft (hd : d.Wired) {t : Transaction} (hother : NeitherOwnNorRedemption b s t)
    (hactive : (s'.troveManager.troves b).status = .active) (h : Step d s t s') :
    TroveLeft b s.troveManager s'.troveManager := by
  have hleft := (h.effects hd).trovesLeft
  have hno : ¬ t.Writes s' b := by
    intro hwrites
    have hliquidated := hother.liquidated hwrites
    rw [TroveManager.Liquidated, hactive] at hliquidated
    cases hliquidated
  exact ⟨(hleft.trove b hno).1, (hleft.trove b hno).2, hleft.L_ETH, hleft.L_LUSDDebt⟩

/-- What the views report of a trove that is left alone does not fall. -/
theorem TroveLeft.views {t t' : TroveManager} (h : TroveLeft b t t')
    (hactive : (t.troves b).status = .active) {entire entire' : TroveManager.EntireDebtAndColl}
    (he : t.getEntireDebtAndColl b = .ok entire) (he' : t'.getEntireDebtAndColl b = .ok entire') :
    entire.coll ≤ entire'.coll ∧ entire.debt ≤ entire'.debt := by
  have hmono : ∀ {snapshot L L' : Nat}, L ≤ L' →
      (t.troves b).stake * (L - snapshot) / DECIMAL_PRECISION ≤
        (t.troves b).stake * (L' - snapshot) / DECIMAL_PRECISION :=
    fun hL => Nat.div_le_div_right (Nat.mul_le_mul_left _ (Nat.sub_le_sub_right hL _))
  obtain rfl := TroveManager.getEntireDebtAndColl_ok hactive he
  obtain rfl := TroveManager.getEntireDebtAndColl_ok (h.status.trans hactive) he'
  dsimp only [TroveManager.pendingETH, TroveManager.pendingLUSDDebt]
  rw [h.same.coll, h.same.debt, h.same.stake, h.same.snapshot]
  exact ⟨Nat.add_le_add_left (hmono h.L_ETH) _, Nat.add_le_add_left (hmono h.L_LUSDDebt) _⟩

/-- A trove that is still open after any run without redemptions in which its owner sent nothing is the
same trove, and was open all the time. -/
theorem RunFrom.troveLeft (hd : d.Wired) (h : RunFrom d (NeitherOwnNorRedemption b) s s')
    (hactive : (s'.troveManager.troves b).status = .active) :
    TroveLeft b s.troveManager s'.troveManager := by
  induction h with
  | init heq =>
    rw [heq]
    exact ⟨.refl _ b, rfl, Nat.le_refl _, Nat.le_refl _⟩
  | step _ hother hstep ih =>
    have hlast := hstep.troveLeft hd hother hactive
    exact (ih (hlast.status.symm.trans hactive)).trans hlast

/-- Only its owner, liquidators and redeemers change a trove. -/
theorem others_leave_trove (hd : d.Wired) (h : RunFrom d (NeitherOwnNorRedemption b) s s')
    (hactive : (s'.troveManager.troves b).status = .active) :
    (s.troveManager.troves b).status = .active ∧ SameTrove s.troveManager s'.troveManager b ∧
      ∀ entire entire', s.troveManager.getEntireDebtAndColl b = .ok entire →
        s'.troveManager.getEntireDebtAndColl b = .ok entire' →
        entire.coll ≤ entire'.coll ∧ entire.debt ≤ entire'.debt := by
  have hleft := h.troveLeft hd hactive
  have hbefore := hleft.status.symm.trans hactive
  exact ⟨hbefore, hleft.same, fun _ _ he he' => hleft.views hbefore he he'⟩

/-- A third account liquidates the trove of 102. -/
theorem others_leave_trove_sample : ∃ s s', RunFrom sampleDeployment (NeitherOwnNorRedemption 101) s s' ∧
    s.troveManager.L_ETH < s'.troveManager.L_ETH ∧
    SameTrove s.troveManager s'.troveManager 101 := by
  obtain ⟨s, s', -, hstep, hactive, hL⟩ := exists_step sampleOpenings
    ⟨⟨103, 0, 0, 1800 * 10 ^ 18⟩, .liquidate 102⟩
    (fun s s' => (s'.troveManager.troves 101).status = .active ∧
      s.troveManager.L_ETH < s'.troveManager.L_ETH) (by decide +kernel)
  have hother : NeitherOwnNorRedemption 101 s ⟨⟨103, 0, 0, 1800 * 10 ^ 18⟩, .liquidate 102⟩ :=
    ⟨show (103 : Address) ≠ 101 by decide, fun _ _ _ _ hcall => by cases hcall⟩
  have hrun : RunFrom sampleDeployment (NeitherOwnNorRedemption 101) s s' :=
    .step (.init rfl) hother hstep
  exact ⟨s, s', hrun, hL, (others_leave_trove sampleDeployment_wired hrun hactive).2.1⟩

/-! ## Ether and LQTY -/

/-- The four pools hold the ether that they record. -/
structure PoolsBacked (d : Deployment) (s : System) : Prop where
  active : s.activePool.ETH ≤ s.ether d.activePool
  default : s.defaultPool.ETH ≤ s.ether d.defaultPool
  stability : s.stabilityPool.ETH ≤ s.ether d.stabilityPool
  surplus : s.collSurplusPool.ETH ≤ s.ether d.collSurplusPool

/-- Ether and LQTY are neither made nor lost, and the pools stay backed. -/
structure Conserved (d : Deployment) (s s' : System) : Prop where
  ether : ∑ a, s'.ether a = ∑ a, s.ether a
  LQTY : ∑ a, s'.lqtyToken.balances a = ∑ a, s.lqtyToken.balances a
  pools : PoolsBacked d s → PoolsBacked d s'

theorem Conserved.trans (h : Conserved d s s') (h' : Conserved d s' s'') : Conserved d s s'' :=
  ⟨h'.ether.trans h.ether, h'.LQTY.trans h.LQTY, fun hs => h'.pools (h.pools hs)⟩

theorem Effect.conserved (h : Effect d sender writable s s') : Conserved d s s' := by
  cases h with
  | moveLQTY _ le => exact ⟨rfl, sum_move le, fun hs => ⟨hs.1, hs.2, hs.3, hs.4⟩⟩
  | spendLQTY _ balance => exact ⟨rfl, sum_move balance, fun hs => ⟨hs.1, hs.2, hs.3, hs.4⟩⟩
  | pay active default stability surplus _ le active_eq default_eq stability_eq surplus_eq =>
    refine ⟨sum_move le, rfl, fun hs => ?_⟩
    have hactive := hs.active
    have hdefault := hs.default
    have hstability := hs.stability
    have hsurplus := hs.surplus
    constructor
    all_goals
      dsimp only
      omega
  | stabilityPool _ _ ETH_eq =>
    refine ⟨rfl, rfl, fun hs => ⟨hs.1, hs.2, ?_, hs.4⟩⟩
    rw [ETH_eq]
    exact hs.3
  | _ => exact ⟨rfl, rfl, fun hs => ⟨hs.1, hs.2, hs.3, hs.4⟩⟩

theorem Effects.conserved (h : Effects d sender writable s s') : Conserved d s s' := by
  induction h with
  | refl => exact ⟨rfl, rfl, id⟩
  | tail _ hlast ih => exact ih.trans hlast.conserved

theorem Step.conserved (hd : d.Wired) {t : Transaction} (h : Step d s t s') : Conserved d s s' := by
  have hkept := (h.effects hd).conserved
  exact ⟨hkept.ether, hkept.LQTY, fun hs => hkept.pools { hs with }⟩

theorem reachable_poolsBacked (hd : d.Wired) (h : Reachable d s) : PoolsBacked d s := by
  refine Lib.Reachable.invariant (PoolsBacked d) ?_ ?_ h
  · rintro _ ⟨ether, timestamp, -, rfl⟩
    exact ⟨Nat.zero_le _, Nat.zero_le _, Nat.zero_le _, Nat.zero_le _⟩
  · intro s t s' _ hs _ hstep
    exact (hstep.conserved hd).pools hs

theorem LQTYToken.sum_initial (d : Deployment) :
    ∑ a, (LQTYToken.initial d).balances a = 100 * 10 ^ 24 := by
  obtain ⟨bounty, issuance, lpRewards, multisig, hbalances, hsum⟩ := LQTYToken.initial_balances d
  rw [hbalances, Ledger.sum_credit, Ledger.sum_credit, Ledger.sum_credit, Ledger.sum_credit,
    Finset.sum_const_zero]
  omega

theorem reachable_sum_LQTY (hd : d.Wired) (h : Reachable d s) :
    ∑ a, s.lqtyToken.balances a = ∑ a, (LQTYToken.initial d).balances a := by
  induction h with
  | init h =>
    obtain ⟨ether, timestamp, -, rfl⟩ := h
    rfl
  | step _ _ hstep ih => exact (hstep.conserved hd).LQTY.trans ih

theorem RunFrom.sum_ether (hd : d.Wired) {cond : System → Transaction → Prop} (h : RunFrom d cond s s') :
    ∑ a, s'.ether a = ∑ a, s.ether a := by
  induction h with
  | init heq => rw [heq]
  | step _ _ hstep ih => exact (hstep.conserved hd).ether.trans ih

/-- In every reachable state the four pools hold the ether that they record and all LQTY of the
allocation is somewhere, and no run from there makes or loses ether. -/
theorem reachable_conserved (hd : d.Wired) (h : Reachable d s) :
    PoolsBacked d s ∧ ∑ a, s.lqtyToken.balances a = 100 * 10 ^ 24 ∧
      ∀ s', RunFrom d (fun _ _ => True) s s' → ∑ a, s'.ether a = ∑ a, s.ether a :=
  ⟨reachable_poolsBacked hd h, (reachable_sum_LQTY hd h).trans (LQTYToken.sum_initial d),
    fun _ hrun => hrun.sum_ether hd⟩

/-- After two troves were opened the Active Pool records ether. -/
theorem reachable_conserved_sample : ∃ s, Reachable sampleDeployment s ∧ 0 < s.activePool.ETH ∧
    PoolsBacked sampleDeployment s := by
  obtain ⟨s, hs, hETH⟩ := exists_reachable (fun _ _ => True) sampleOpenings
    (fun s => 0 < s.activePool.ETH) (by decide +kernel)
  exact ⟨s, hs, hETH, (reachable_conserved sampleDeployment_wired hs).1⟩

end Liquity
