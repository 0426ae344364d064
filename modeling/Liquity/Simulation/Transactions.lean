import Liquity.Simulation.Liquidation
import Liquity.Simulation.RedemptionLots
import Liquity.Simulation.Deposits

/-!
# Simulation: whole transactions

Every successful transaction is a run of moves.  `Permitted` records what each transaction can tell
about its moves: which debts a liquidation offsets and redistributes, and whose stakes change.
-/

open Lib

namespace Liquity

open SafeMath LiquityMath TroveManager

variable {d : Deployment} {s s' : System} {ι : InFlight} {allow : Ledger → Label → Prop}
  {b : Address}

/-! ## Tokens and staking -/

/-- An entry of the allowances after another one, or a zero, was written. -/
theorem update_allowance_eq_zero {f : Address → Address → Nat} {owner spender a c : Address}
    {amount : Nat} (h : f a c = 0) (hamount : a = owner → c = spender → amount = 0) :
    Function.update f owner (Function.update (f owner) spender amount) a c = 0 := by
  by_cases ha : a = owner
  · subst ha
    by_cases hc : c = spender
    · subst hc
      simpa using hamount rfl rfl
    · simpa [Function.update_of_ne hc] using h
  · simpa [Function.update_of_ne ha] using h

section Tokens

variable (hs : Sound d s ι) (hplain : ∀ L, allow L .plain)

include hs hplain

theorem transferLUSD_evolves {recipient : Address} {amount : Nat}
    (hgas : b ≠ d.gasPool) (hpool : b ≠ d.stabilityPool)
    (h : s.onLUSDToken (LUSDToken.transfer d b recipient amount) = .ok s') :
    Evolves d allow s ι s' ι := by
  obtain ⟨t, ht, rfl⟩ := System.onLUSDToken_ok.mp h
  obtain ⟨hle, rfl⟩ := LUSDToken.transfer_ok ht
  exact .move (.transfer (L := s.ledger ι) hgas hpool hle) (hplain _) hs.list (.of_eq rfl rfl)

theorem approveLUSD_evolves {spender : Address} {amount : Nat} (hb : d.External b)
    (h : s.onLUSDToken (LUSDToken.approve b spender amount) = .ok s') : Evolves d allow s ι s' ι := by
  obtain ⟨t, ht, rfl⟩ := System.onLUSDToken_ok.mp h
  obtain rfl := LUSDToken.approve_ok ht
  refine .move (.approve (L := s.ledger ι) ?_) (hplain _) hs.list (.of_eq rfl rfl)
  exact fun a ha c hzero =>
    update_allowance_eq_zero hzero fun hab _ => absurd (hab ▸ ha) hb.2

/-- A contract of the protocol approves nobody, so nothing but zero is transferred from it. -/
theorem transferLUSDFrom_evolves {caller recipient : Address} {amount : Nat}
    (h : s.onLUSDToken (LUSDToken.transferFrom d caller b recipient amount) = .ok s') :
    Evolves d allow s ι s' ι := by
  obtain ⟨t, ht, rfl⟩ := System.onLUSDToken_ok.mp h
  obtain ⟨hle, hallowance, rfl⟩ := LUSDToken.transferFrom_ok ht
  have hmoved : Evolves d allow s ι
      { s with lusdToken := { s.lusdToken with
        balances := move s.lusdToken.balances b recipient amount } } ι := by
    by_cases hb : b ∈ d.contracts
    · have hzero : amount = 0 :=
        Nat.le_zero.mp (hallowance.trans (Nat.le_of_eq (hs.books.allowances b hb caller)))
      rw [hzero, move_zero]
      exact .refl hs
    · have hgas : b ≠ d.gasPool := fun heq => hb (by simp [heq, Deployment.contracts])
      have hpool : b ≠ d.stabilityPool := fun heq => hb (by simp [heq, Deployment.contracts])
      exact .move (.transfer (L := s.ledger ι) hgas hpool hle) (hplain _) hs.list (.of_eq rfl rfl)
  refine hmoved.trans (.move (.approve (L := System.ledger _ ι) ?_) (hplain _) hmoved.list
    (.of_eq rfl rfl))
  refine fun a ha c hzero => update_allowance_eq_zero hzero fun hab hc => ?_
  have hzero : s.lusdToken.allowances b caller = 0 := hab ▸ hc ▸ hzero
  omega

theorem sendGains_evolves (hd : d.Wired) (hb : d.External b) {ETH LUSD : Nat}
    (h : LQTYStaking.sendGains d b ETH LUSD s = .ok s') : Evolves d allow s ι s' ι := by
  obtain ⟨s₁, h₁, h⟩ := bind_ok.mp h
  have e₁ := transferLUSD_evolves hs hplain hd.lqtyStaking_ne_gasPool
    hd.lqtyStaking_ne_stabilityPool h₁
  obtain ⟨ether, rfl, hkept⟩ :=
    System.callValue_external hd.lqtyStaking_ne_activePool hb (orRevert_ok.mp h)
  exact e₁.trans (.silent (e₁.sound hd hs) rfl rfl hkept)

theorem stake_evolves (hd : d.Wired) {env : Env} (hb : d.External env.sender) {amount : Nat}
    (h : LQTYStaking.stake d env amount s = .ok s') : Evolves d allow s ι s' ι := by
  simp only [LQTYStaking.stake, bind_ok] at h
  obtain ⟨-, -, gains, -, _, -, _, -, s₁, h₁, h⟩ := h
  have e₁ : Evolves d allow s ι s₁ ι := by
    obtain ⟨t, -, rfl⟩ := System.onLQTYToken_ok.mp h₁
    exact .silent hs rfl rfl (.of_eq rfl rfl)
  split at h
  · exact e₁.trans (sendGains_evolves (e₁.sound hd hs) hplain hd hb h)
  · cases h
    exact e₁

theorem unstake_evolves (hd : d.Wired) {env : Env} (hb : d.External env.sender) {amount : Nat}
    (h : LQTYStaking.unstake d env amount s = .ok s') : Evolves d allow s ι s' ι := by
  simp only [LQTYStaking.unstake, bind_ok] at h
  obtain ⟨-, -, ETH, -, LUSD, -, s₁, h₁, h⟩ := h
  have e₁ : Evolves d allow s ι s₁ ι := by
    unfold LQTYStaking.withdrawStake at h₁
    split at h₁
    · simp only [bind_ok, System.onLQTYToken_ok] at h₁
      obtain ⟨_, -, _, -, t, -, rfl⟩ := h₁
      exact .silent hs rfl rfl (.of_eq rfl rfl)
    · cases h₁
      exact .silent hs rfl rfl (.of_eq rfl rfl)
  exact e₁.trans (sendGains_evolves (e₁.sound hd hs) hplain hd hb h)

end Tokens

/-! ## What a transaction can do -/

/-- The collateral that the adjusting calls ask to withdraw. -/
def Call.collWithdrawal : Call → Option Nat
  | .addColl .. | .withdrawLUSD .. | .repayLUSD .. => some 0
  | .withdrawColl collWithdrawal .. | .adjustTrove _ collWithdrawal .. => some collWithdrawal
  | _ => none

open BorrowerOperations in
/-- The collateral of `b` with its pending rewards, after `value` was added or `withdrawal` taken. -/
def System.HasAdjustedColl (s : System) (b : Address) (value withdrawal coll : Nat) : Prop :=
  applyChange (getCollChange value withdrawal).2 (s.troveManager.settledColl b)
    (getCollChange value withdrawal).1 = .ok coll

/-- The open trove that a transaction gives a new stake, and the collateral it is computed from: the
trove that is adjusted, or the one that a redemption takes only a part of. -/
def Transaction.Restakes (t : Transaction) (s : System) (b : Address) (coll : Nat) : Prop :=
  match t.call with
  | .redeemCollateral amount hints maxIterations _ =>
      ∃ lot ∈ s.redemptionLots t.env.price amount hints maxIterations, lot.closes = false ∧
        b = lot.borrower ∧ coll = lot.coll - lot.ETH
  | .withdrawETHGainToTrove .. => b = t.env.sender ∧
      ∃ gain, s.stabilityPool.getDepositorETHGain b = .ok gain ∧ s.HasAdjustedColl b gain 0 coll
  | call => b = t.env.sender ∧
      ∃ withdrawal, call.collWithdrawal = some withdrawal ∧
        s.HasAdjustedColl b t.env.value withdrawal coll

/-- The deposit that a transaction rewrites, and the front end it is tagged with. -/
def Transaction.Redeposits (t : Transaction) (s : System) (i f : Address) : Prop :=
  match t.call with
  | .provideToSP _ tag => i = t.env.sender ∧
      f = ((s.stabilityPool.tagNewDeposit i tag).deposits i).frontEndTag
  | .withdrawFromSP .. | .withdrawETHGainToTrove .. => i = t.env.sender ∧
      f = (s.stabilityPool.deposits i).frontEndTag
  | _ => False

/-- The tally of the troves that a call liquidates, before anything is settled. -/
def Call.tally (d : Deployment) (env : Env) : Call → System → Option (Tx LoopState)
  | .liquidate b, s => some (batchLiquidateTrovesTotals d env.price [b] s)
  | .liquidateTroves n, s => some (liquidateTrovesTotals d env.price n s)
  | .batchLiquidateTroves troveArray, s => some (batchLiquidateTrovesTotals d env.price troveArray s)
  | _, _ => none

/-- The totals of a liquidating transaction. -/
def Transaction.Tallies (d : Deployment) (t : Transaction) (s : System)
    (totals : LiquidationTotals) : Prop :=
  ∃ l, t.call.tally d t.env { s with timestamp := t.env.timestamp } = some (.ok l) ∧ l.totals = totals

instance (d : Deployment) (t : Transaction) (s : System) (p : LiquidationTotals → Prop)
    [DecidablePred p] : Decidable (∀ totals, t.Tallies d s totals → p totals) :=
  match h : t.call.tally d t.env { s with timestamp := t.env.timestamp } with
  | some (.ok l) =>
    decidable_of_iff (p l.totals)
      ⟨fun hl totals ⟨l', hl', htotals⟩ => by
        rw [h] at hl'
        cases hl'
        exact htotals ▸ hl,
      fun hall => hall _ ⟨l, h, rfl⟩⟩
  | some (.error _) => .isTrue fun totals ⟨l', hl', _⟩ => by rw [h] at hl'; cases hl'
  | none => .isTrue fun totals ⟨l', hl', _⟩ => by rw [h] at hl'; cases hl'

/-- The moves that a transaction from `s` may make. -/
def Permitted (d : Deployment) (s : System) (t : Transaction) (L : Ledger) : Label → Prop
  | .plain => True
  | .offset debt => s.stabilityPool.Issued L.sp ∧
      ∃ totals, t.Tallies d s totals ∧ debt = totals.totalDebtToOffset
  | .redistribute debt => ∃ totals, t.Tallies d s totals ∧ debt = totals.totalDebtToRedistribute
  | .register b coll => b = t.env.sender ∧ coll = t.env.value ∧
      (∃ maxFee amount upper lower, t.call = .openTrove maxFee amount upper lower) ∧
      L.tm = s.troveManager.books
  | .restake b coll => t.Restakes s b coll ∧ (s.troveManager.troves b).status = .active ∧
      RewardsKept s.troveManager L.tm
  | .redeposit i f => t.Redeposits s i f ∧ s.stabilityPool.Issued L.sp

/-- Ether that comes with a call changes nothing but ether. -/
theorem Call.receiveValue_ok (hd : d.Wired) {env : Env} (hb : d.External env.sender) {call : Call}
    (h : call.receiveValue d env s = .ok s') :
    ∃ ether, s' = { s with ether } ∧ (call.isPayable = false → ether = s.ether) ∧
      EtherKept d s s' := by
  unfold Call.receiveValue at h
  split at h
  · cases h
    exact ⟨s.ether, rfl, fun _ => rfl, .refl s⟩
  · simp only [bind_ok, require_ok, pure_ok] at h
    obtain ⟨-, hpayable, -, hle, rfl⟩ := h
    refine ⟨_, rfl, fun hno => ?_,
      .moveEther hb.ne_activePool hd.borrowerOperations_ne_activePool hle⟩
    rw [hpayable] at hno
    cases hno

theorem receiveValue_evolves (hd : d.Wired) (hs : Sound d s ι) {env : Env}
    (hb : d.External env.sender) {call : Call} (h : call.receiveValue d env s = .ok s') :
    Evolves d allow s ι s' ι ∧ s'.troveManager = s.troveManager ∧
      s'.stabilityPool = s.stabilityPool ∧ s'.sortedTroves = s.sortedTroves := by
  obtain ⟨ether, rfl, -, hkept⟩ := call.receiveValue_ok hd hb h
  exact ⟨.silent hs rfl rfl hkept, rfl, rfl, rfl⟩

/-- The loops of the liquidating calls, step by step. -/
theorem Call.tally_steps {env : Env} (call : Call) {l : LoopState}
    (h : call.tally d env s = some (.ok l)) :
    ∃ recovery l₀, LoopStart env.price s recovery l₀ ∧
      Relation.ReflTransGen (LoopStep d env.price recovery) l₀ l := by
  cases call with
  | liquidate => exact batchLiquidateTrovesTotals_steps (Option.some.inj h)
  | liquidateTroves => exact liquidateTrovesTotals_steps (Option.some.inj h)
  | batchLiquidateTroves => exact batchLiquidateTrovesTotals_steps (Option.some.inj h)
  | _ => cases h

/-- The loops of the liquidating calls only make plain moves. -/
theorem Call.tally_ok (hd : d.Wired) (hs : Sound d s .none) (hplain : ∀ L, allow L .plain)
    {env : Env} {call : Call} {l : LoopState} (h : call.tally d env s = some (.ok l)) :
    Tally d allow s s.stabilityPool.totalLUSDDeposits l := by
  obtain ⟨recovery, l₀, hstart, hsteps⟩ := call.tally_steps h
  exact (hstart.tally hs).loop hd hs hplain hsteps

/-- The state that the body of an entry point runs in: ether that came with the call has arrived. -/
theorem Step.body (hd : d.Wired) {t : Transaction} (h : Step d s t s') :
    ∃ ether, t.call.body d t.env { s with timestamp := t.env.timestamp, ether } = .ok s' ∧
      (t.call.isPayable = false → ether = s.ether) ∧
      EtherKept d s { s with timestamp := t.env.timestamp, ether } := by
  obtain ⟨s₁, h₁, hbody⟩ := bind_ok.mp h.2
  obtain ⟨ether, rfl, hsame, hkept⟩ := t.call.receiveValue_ok hd h.1.external h₁
  exact ⟨ether, hbody, hsame, hkept.congr rfl rfl rfl rfl⟩

/-- A liquidating transaction tallies and then settles. -/
theorem Step.tallied (hd : d.Wired) {t : Transaction} {x : Tx LoopState} (h : Step d s t s')
    (htally : t.call.tally d t.env { s with timestamp := t.env.timestamp } = some x) :
    ∃ l, x = .ok l ∧ settleLiquidation d t.env l.totals l.system = .ok s' := by
  obtain ⟨ether, h, hsame, -⟩ := h.body hd
  obtain ⟨env, call⟩ := t
  cases call with
  | liquidate b =>
    obtain rfl := hsame rfl
    simp only [Call.body, liquidate, batchLiquidateTroves, bind_ok] at h
    obtain ⟨-, -, -, -, l, hl, h⟩ := h
    exact ⟨l, (Option.some.inj htally).symm.trans hl, h⟩
  | liquidateTroves n =>
    obtain rfl := hsame rfl
    simp only [Call.body, liquidateTroves, bind_ok] at h
    obtain ⟨l, hl, h⟩ := h
    exact ⟨l, (Option.some.inj htally).symm.trans hl, h⟩
  | batchLiquidateTroves troveArray =>
    obtain rfl := hsame rfl
    simp only [Call.body, batchLiquidateTroves, bind_ok] at h
    obtain ⟨-, -, l, hl, h⟩ := h
    exact ⟨l, (Option.some.inj htally).symm.trans hl, h⟩
  | _ => cases htally

theorem liquidation_evolves (hd : d.Wired) (hs : Sound d s .none) {t : Transaction}
    {x : Tx LoopState} (hstep : Step d s t s')
    (htally : t.call.tally d t.env { s with timestamp := t.env.timestamp } = some x) :
    Evolves d (Permitted d s t) s .none s' .none := by
  have hb := hstep.1.external
  obtain ⟨l, rfl, h⟩ := hstep.tallied hd htally
  have hs₀ : Sound d { s with timestamp := t.env.timestamp } .none := { hs with }
  have hl : Tally d (Permitted d s t) _ _ l := Call.tally_ok hd hs₀ (fun _ => trivial) htally
  have htallies : t.Tallies d s l.totals := ⟨l, htally, rfl⟩
  -- the loops make plain moves; offset and redistribution are those of the totals
  have e := Tally.settle hd hs₀ (fun _ => trivial) hb hl
    (fun L hL => ⟨hL, l.totals, htallies, rfl⟩) (fun _ => ⟨l.totals, htallies, rfl⟩) h
  exact ⟨e.run, e.list, e.ether.congr rfl rfl rfl rfl⟩

/-- Every successful transaction is a run of permitted moves. -/
theorem step_evolves (hd : d.Wired) (hs : Sound d s .none) {t : Transaction} (h : Step d s t s') :
    Evolves d (Permitted d s t) s .none s' .none := by
  have hstep := h
  obtain ⟨hvalid, h⟩ := h
  obtain ⟨env, call⟩ := t
  have hb := hvalid.external
  have hs₀ : Sound d { s with timestamp := env.timestamp } .none := { hs with }
  have e₀ : Evolves d (Permitted d s ⟨env, call⟩) s .none { s with timestamp := env.timestamp } .none :=
    .silent hs rfl rfl (.of_eq rfl rfl)
  obtain ⟨s₁, h₁, h⟩ := bind_ok.mp h
  have hreceived : Evolves d (Permitted d s ⟨env, call⟩) _ .none s₁ .none ∧ _ ∧ _ ∧ _ :=
    receiveValue_evolves hd hs₀ hb h₁
  obtain ⟨e₁, htm, hsp, hlist⟩ := hreceived
  have hs₁ := e₁.sound hd hs₀
  have hplain : ∀ L, Permitted d s ⟨env, call⟩ L .plain := fun _ => trivial
  -- stakes are given to troves as they were when the transaction started
  have hrestake : ∀ L b coll, RewardsKept s₁.troveManager L.tm → (L.tm.troves b).status = .active →
      Transaction.Restakes ⟨env, call⟩ s b coll → Permitted d s ⟨env, call⟩ L (.restake b coll) := by
    intro L b coll hkept hactive hrestakes
    rw [htm] at hkept
    exact ⟨hrestakes, (hkept.trove b hactive).1, hkept⟩
  have e := e₀.trans e₁
  cases call with
  | openTrove =>
    refine e.trans (BorrowerOperations.openTrove_evolves hd hs₁ (fun L hL => ?_) h)
    rw [htm] at hL
    exact ⟨rfl, rfl, ⟨_, _, _, _, rfl⟩, hL⟩
  | addColl | withdrawColl | withdrawLUSD | repayLUSD | adjustTrove =>
    refine e.trans (BorrowerOperations.adjustTroveInternal_evolves hd hs₁ hplain ?_ ?_ h)
    · exact hb
    · intro L coll hkept hactive hsettled hcoll
      have hsettledColl := (hkept.settled hactive hsettled).1
      rw [hsettledColl, htm] at hcoll
      exact hrestake L _ coll hkept hactive ⟨rfl, _, rfl, hcoll⟩
  | closeTrove => exact e.trans (BorrowerOperations.closeTrove_evolves hd hs₁ hplain hb h)
  | claimCollateral => exact e.trans (BorrowerOperations.claimCollateral_evolves hs₁ hd hb h)
  | liquidate | liquidateTroves | batchLiquidateTroves => exact liquidation_evolves hd hs hstep rfl
  | redeemCollateral =>
    refine e.trans (redeemCollateral_evolves hd hs₁ hplain hb ?_ h)
    intro L lot hlot hopen hkept hactive
    -- the lots are those of the state before, where the condition is stated
    rw [redemptionLots_congr (s := s) htm hlist] at hlot
    exact hrestake L _ _ hkept hactive ⟨lot, hlot, hopen, rfl, rfl⟩
  | provideToSP amount tag =>
    refine e.trans (StabilityPool.provideToSP_evolves hd hs₁ hplain hb (fun L hL => ?_) h)
    rw [hsp] at hL
    refine ⟨⟨rfl, ?_⟩, hL⟩
    obtain ⟨error, G, hL⟩ := hL
    rw [hL]
    unfold StabilityPool.tagNewDeposit
    split <;> rfl
  | withdrawFromSP =>
    refine e.trans (StabilityPool.withdrawFromSP_evolves hd hs₁ hplain hb (fun L hL => ?_) h)
    rw [hsp] at hL
    refine ⟨⟨rfl, ?_⟩, hL⟩
    obtain ⟨error, G, hL⟩ := hL
    rw [hL]
  | withdrawETHGainToTrove =>
    refine e.trans (StabilityPool.withdrawETHGainToTrove_evolves hd hs₁ hplain hb (fun L hL => ?_)
      (fun L coll gain hgain hkept hactive hsettled hcoll => ?_) h)
    · rw [hsp] at hL
      refine ⟨⟨rfl, ?_⟩, hL⟩
      obtain ⟨error, G, hL⟩ := hL
      rw [hL]
    · rw [hsp] at hgain
      rw [(hkept.settled hactive hsettled).1, htm] at hcoll
      exact hrestake L _ coll hkept hactive ⟨rfl, gain, hgain, hcoll⟩
  | registerFrontEnd => exact e.trans (StabilityPool.registerFrontEnd_evolves hs₁ hplain h)
  | stake => exact e.trans (stake_evolves hs₁ hplain hd hb h)
  | unstake => exact e.trans (unstake_evolves hs₁ hplain hd hb h)
  | transferLUSD =>
    exact e.trans (transferLUSD_evolves hs₁ hplain hb.ne_gasPool hb.ne_stabilityPool h)
  | approveLUSD => exact e.trans (approveLUSD_evolves hs₁ hplain hb h)
  | transferLUSDFrom => exact e.trans (transferLUSDFrom_evolves hs₁ hplain h)
  | transferLQTY | approveLQTY | transferLQTYFrom =>
    obtain ⟨t, -, rfl⟩ := System.onLQTYToken_ok.mp h
    exact e.trans (.silent hs₁ rfl rfl (.of_eq rfl rfl))

end Liquity
