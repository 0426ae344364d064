import Liquity.Subgraph.Redemptions

/-!
# The log of a transaction

The log of every transaction is a log of emissions that lead from the contracts as they were to the
contracts as they are.
-/

open Lib

namespace Liquity

open SafeMath TroveManager

namespace StabilityPool

variable {p q : StabilityPool} {b x : Address} {n : Nat}

/-! ## Deposits -/

/-- The deposits without their tags, which the events do not tell. -/
def initialValues (p : StabilityPool) (x : Address) : Nat := (p.deposits x).initialValue

theorem initialValues_updateDeposit (h : p.initialValues = q.initialValues) (b : Address)
    (value : Nat) :
    (p.updateDepositAndSnapshots b value).initialValues = Function.update q.initialValues b value := by
  rw [← h]
  funext x
  unfold initialValues updateDepositAndSnapshots
  by_cases hx : x = b
  · subst hx
    split
    next hzero => simp [hzero]
    next => simp
  · split <;> simp [Function.update_of_ne hx]

theorem updateDeposit_total (p : StabilityPool) (b : Address) (value : Nat) :
    (p.updateDepositAndSnapshots b value).totalLUSDDeposits = p.totalLUSDDeposits := by
  unfold updateDepositAndSnapshots
  split <;> rfl

theorem updateFrontEndStake_initialValues (p : StabilityPool) (f : Address) (stake : Nat) :
    (p.updateFrontEndStakeAndSnapshots f stake).initialValues = p.initialValues ∧
      (p.updateFrontEndStakeAndSnapshots f stake).totalLUSDDeposits = p.totalLUSDDeposits := by
  unfold updateFrontEndStakeAndSnapshots
  split <;> exact ⟨rfl, rfl⟩

theorem setFrontEndTag_initialValues (p : StabilityPool) (b tag : Address) :
    (p.setFrontEndTag b tag).initialValues = p.initialValues := by
  funext x
  unfold initialValues setFrontEndTag
  by_cases hx : x = b
  · subst hx
    simp
  · simp [Function.update_of_ne hx]

theorem tagNewDeposit_initialValues (p : StabilityPool) (b tag : Address) :
    (p.tagNewDeposit b tag).initialValues = p.initialValues ∧
      (p.tagNewDeposit b tag).totalLUSDDeposits = p.totalLUSDDeposits := by
  unfold tagNewDeposit
  split
  · exact ⟨setFrontEndTag_initialValues p b tag, rfl⟩
  · exact ⟨rfl, rfl⟩

/-- What is read of a deposit depends neither on the tags nor on the LQTY that is issued. -/
theorem readDeposit_tagNewDeposit (p : StabilityPool) (b tag : Address) (n : Nat) :
    (p.tagNewDeposit b tag).readDeposit b n = p.readDeposit b n := by
  have hinitial : ((p.setFrontEndTag b tag).deposits b).initialValue = (p.deposits b).initialValue := by
    simp [setFrontEndTag]
  unfold tagNewDeposit
  split
  · unfold readDeposit getDepositorETHGain getCompoundedLUSDDeposit
    rw [hinitial]
    rfl
  · rfl

theorem readDeposit_issued (h : p.Issued q) (b : Address) (n : Nat) :
    q.readDeposit b n = p.readDeposit b n ∧ q.initialValues = p.initialValues ∧
      q.totalLUSDDeposits = p.totalLUSDDeposits := by
  obtain ⟨error, G, rfl⟩ := h
  exact ⟨rfl, rfl, rfl⟩

theorem readDeposit_loss {reading : DepositReading} (h : p.readDeposit b n = .ok reading) :
    n = reading.compoundedLUSDDeposit + reading.LUSDLoss := by
  simp only [readDeposit, bind_ok, pure_ok, sub_ok] at h
  obtain ⟨gain, -, compounded, -, _, ⟨hle, rfl⟩, rfl⟩ := h
  exact (Nat.add_sub_cancel' hle).symm

end StabilityPool

namespace Subgraph

variable {d : Deployment} {s s' : System} {exact : Prop} {b : Address} {price : Nat}
  {reading : StabilityPool.DepositReading}

/-- What a depositor operation leaves, as far as the subgraph can see. -/
structure Redeposited (b : Address) (compounded newDeposit : Nat) (s s' : System) : Prop where
  troveManager : s'.troveManager = s.troveManager
  activePool : s'.activePool = s.activePool
  defaultPool : s'.defaultPool = s.defaultPool
  deposits : s'.stabilityPool.initialValues =
    Function.update s.stabilityPool.initialValues b newDeposit
  total : s'.stabilityPool.totalLUSDDeposits + compounded =
    s.stabilityPool.totalLUSDDeposits + newDeposit

theorem Redeposited.view_eq {compounded newDeposit : Nat}
    (h : Redeposited b compounded newDeposit s s') (p : Option Nat) :
    view exact p s' = { view exact p s with
      deposits := Function.update (view exact p s).deposits b newDeposit
      tokens := (view exact p s).tokens + (newDeposit - compounded) } := by
  have hdeposits := h.deposits
  have htotal := h.total
  simp only [view, h.troveManager, h.activePool, h.defaultPool, View.mk.injEq, true_and]
  refine ⟨hdeposits, ?_⟩
  omega

/-- What a depositor operation does before it writes the deposit. -/
structure DepositsKept (s s' : System) : Prop where
  troveManager : s'.troveManager = s.troveManager
  activePool : s'.activePool = s.activePool
  defaultPool : s'.defaultPool = s.defaultPool
  deposits : s'.stabilityPool.initialValues = s.stabilityPool.initialValues

theorem DepositsKept.trans {s₁ : System} (h : DepositsKept s s₁) (h' : DepositsKept s₁ s') :
    DepositsKept s s' :=
  ⟨h'.troveManager.trans h.troveManager, h'.activePool.trans h.activePool,
    h'.defaultPool.trans h.defaultPool, h'.deposits.trans h.deposits⟩

theorem DepositsKept.onPool {q : StabilityPool} (h : q.initialValues = s.stabilityPool.initialValues) :
    DepositsKept s { s with stabilityPool := q } := ⟨rfl, rfl, rfl, h⟩

theorem triggerLQTYIssuance_kept {timestamp : Nat}
    (h : StabilityPool.triggerLQTYIssuance d timestamp s = .ok s') (b : Address) (n : Nat) :
    DepositsKept s s' ∧ s'.stabilityPool.readDeposit b n = s.stabilityPool.readDeposit b n ∧
      s'.stabilityPool.totalLUSDDeposits = s.stabilityPool.totalLUSDDeposits := by
  obtain ⟨issuance, communityIssuance, sp, hsp, rfl⟩ := StabilityPool.triggerLQTYIssuance_ok h
  obtain ⟨hread, hissued, htotal⟩ :=
    StabilityPool.readDeposit_issued (StabilityPool.updateG_ok hsp).1 b n
  exact ⟨⟨rfl, rfl, rfl, hissued⟩, hread, htotal⟩

theorem payOutLQTYGains_kept {timestamp : Nat} {frontEnd : Address}
    (h : StabilityPool.payOutLQTYGains d timestamp b frontEnd s = .ok s') :
    DepositsKept s s' ∧ s'.stabilityPool = s.stabilityPool := by
  obtain ⟨token, rfl⟩ := StabilityPool.payOutLQTYGains_ok h
  exact ⟨⟨rfl, rfl, rfl, rfl⟩, rfl⟩

theorem sendLUSDtoStabilityPool_kept {amount : Nat}
    (h : StabilityPool.sendLUSDtoStabilityPool d b amount s = .ok s') : DepositsKept s s' ∧
      s'.stabilityPool.totalLUSDDeposits = s.stabilityPool.totalLUSDDeposits + amount := by
  obtain ⟨-, rfl⟩ := StabilityPool.sendLUSDtoStabilityPool_ok h
  exact ⟨⟨rfl, rfl, rfl, rfl⟩, rfl⟩

theorem sendLUSDToDepositor_kept {amount : Nat}
    (h : StabilityPool.sendLUSDToDepositor d b amount s = .ok s') : DepositsKept s s' ∧
      s'.stabilityPool.totalLUSDDeposits + amount = s.stabilityPool.totalLUSDDeposits := by
  obtain ⟨-, hle, rfl⟩ := StabilityPool.sendLUSDToDepositor_ok h
  exact ⟨⟨rfl, rfl, rfl, rfl⟩, Nat.sub_add_cancel hle⟩

/-- The deposit is written last, and its gain is paid out. -/
theorem DepositsKept.redeposited {s₁ : System} {compounded value gain : Nat} (h : DepositsKept s s₁)
    (htotal : s₁.stabilityPool.totalLUSDDeposits + compounded =
      s.stabilityPool.totalLUSDDeposits + value) (hd : d.Wired) (hb : d.External b)
    (hsend : StabilityPool.sendETHGainToDepositor d b gain { s₁ with
      stabilityPool := s₁.stabilityPool.updateDepositAndSnapshots b value } = .ok s') :
    Redeposited b compounded value s s' := by
  obtain ⟨-, -, ether, rfl⟩ := StabilityPool.sendETHGainToDepositor_ok hd hb hsend
  refine ⟨h.troveManager, h.activePool, h.defaultPool,
    StabilityPool.initialValues_updateDeposit h.deposits b value, ?_⟩
  rw [← htotal]
  exact congrArg (· + compounded) (StabilityPool.updateDeposit_total ..)

theorem depositLog_emits (newDeposit : Nat → Nat) (hreading : s.stabilityPool.depositReading b = .ok reading)
    (h : Redeposited b reading.compoundedLUSDDeposit (newDeposit reading.compoundedLUSDDeposit) s s')
    (p : Option Nat) :
    Emits exact (view exact p s) (StabilityPool.depositLog b newDeposit s.stabilityPool)
      (view exact p s') := by
  rw [StabilityPool.depositLog, eventsAfter_ok _ hreading, h.view_eq]
  exact .single (.deposit (StabilityPool.readDeposit_loss hreading))

theorem gainToTroveLog_emits (hreading : s.stabilityPool.depositReading b = .ok reading)
    (h : Redeposited b reading.compoundedLUSDDeposit reading.compoundedLUSDDeposit s s')
    (p : Option Nat) :
    Emits exact (view exact p s) (StabilityPool.gainToTroveLog b s.stabilityPool)
      (view exact p s') := by
  rw [StabilityPool.gainToTroveLog, eventsAfter_ok _ hreading, h.view_eq]
  exact .single (.gainToTrove (StabilityPool.readDeposit_loss hreading))

section Depositors

variable (hd : d.Wired) {env : Env} (hb : d.External env.sender) {amount : Nat}

include hd hb

theorem provideToSP_redeposited {tag : Address}
    (h : StabilityPool.provideToSP d env amount tag s = .ok s') :
    ∃ reading, s.stabilityPool.depositReading env.sender = .ok reading ∧
      Redeposited env.sender reading.compoundedLUSDDeposit (reading.compoundedLUSDDeposit + amount)
        s s' := by
  simp only [StabilityPool.provideToSP, bind_ok, add_ok] at h
  obtain ⟨-, -, -, -, -, -, s₁, h₁, reading, hreading, s₂, h₂, stake, hstake, _, ⟨-, rfl⟩, s₃, h₃, _,
    ⟨-, rfl⟩, h₄⟩ := h
  obtain ⟨hissued, hread, htotal₁⟩ := triggerLQTYIssuance_kept h₁ env.sender
    (s.stabilityPool.deposits env.sender).initialValue
  obtain ⟨htagged, htotal₂⟩ := s₁.stabilityPool.tagNewDeposit_initialValues env.sender tag
  obtain ⟨hpaid, hpool⟩ := payOutLQTYGains_kept h₂
  obtain ⟨hstaked, htotal₃⟩ := s₂.stabilityPool.updateFrontEndStake_initialValues
    ((s₁.stabilityPool.tagNewDeposit env.sender tag).deposits env.sender).frontEndTag (stake + amount)
  obtain ⟨hsent, htotal⟩ := sendLUSDtoStabilityPool_kept h₃
  have hkept := (((hissued.trans (.onPool htagged)).trans hpaid).trans (.onPool hstaked)).trans hsent
  have hdeposits := htotal₃.trans ((congrArg StabilityPool.totalLUSDDeposits hpool).trans
    (htotal₂.trans htotal₁))
  dsimp only at hreading htotal
  rw [StabilityPool.readDeposit_tagNewDeposit, hread] at hreading
  refine ⟨reading, hreading, hkept.redeposited ?_ hd hb h₄⟩
  rw [htotal, hdeposits]
  omega

theorem withdrawFromSP_redeposited (h : StabilityPool.withdrawFromSP d env amount s = .ok s') :
    ∃ reading, s.stabilityPool.depositReading env.sender = .ok reading ∧
      Redeposited env.sender reading.compoundedLUSDDeposit
        (reading.compoundedLUSDDeposit - LiquityMath.min amount reading.compoundedLUSDDeposit) s s' := by
  simp only [StabilityPool.withdrawFromSP, bind_ok, sub_ok] at h
  obtain ⟨-, -, -, -, s₁, h₁, reading, hreading, s₂, h₂, stake, hstake, _, ⟨hle', rfl⟩, s₃, h₃, _,
    ⟨hle, rfl⟩, h₄⟩ := h
  obtain ⟨hissued, hread, htotal₁⟩ := triggerLQTYIssuance_kept h₁ env.sender
    (s.stabilityPool.deposits env.sender).initialValue
  obtain ⟨hpaid, hpool⟩ := payOutLQTYGains_kept h₂
  obtain ⟨hstaked, htotal₃⟩ := s₂.stabilityPool.updateFrontEndStake_initialValues
    (s₁.stabilityPool.deposits env.sender).frontEndTag
    (stake - LiquityMath.min amount reading.compoundedLUSDDeposit)
  obtain ⟨hsent, htotal⟩ := sendLUSDToDepositor_kept h₃
  have hkept := ((hissued.trans hpaid).trans (.onPool hstaked)).trans hsent
  have hdeposits := htotal₃.trans ((congrArg StabilityPool.totalLUSDDeposits hpool).trans htotal₁)
  dsimp only at htotal
  rw [hread] at hreading
  rw [hdeposits] at htotal
  refine ⟨reading, hreading, hkept.redeposited ?_ hd hb h₄⟩
  omega

end Depositors

theorem withdrawETHGainToTrove_redeposited {p : StabilityPool} {stake ETH : Nat}
    (hissued : s.stabilityPool.Issued p) (htm : s'.troveManager = s.troveManager)
    (hactive : s'.activePool = s.activePool) (hdefault : s'.defaultPool = s.defaultPool)
    (hpool : s'.stabilityPool = p.redeposited b (p.deposits b).frontEndTag
      reading.compoundedLUSDDeposit stake p.totalLUSDDeposits ETH) :
    Redeposited b reading.compoundedLUSDDeposit reading.compoundedLUSDDeposit s s' := by
  obtain ⟨-, hinitial, htotal⟩ := StabilityPool.readDeposit_issued hissued b 0
  have hq := StabilityPool.updateFrontEndStake_initialValues
    (p.setFrontEndTag b (p.deposits b).frontEndTag) (p.deposits b).frontEndTag stake
  refine ⟨htm, hactive, hdefault, ?_, ?_⟩
  · rw [hpool]
    exact StabilityPool.initialValues_updateDeposit
      (hq.1.trans ((StabilityPool.setFrontEndTag_initialValues ..).trans hinitial)) _ _
  · rw [hpool, ← htotal]
    rfl

/-! ## Calls without events -/

section Silent

variable (hd : d.Wired) (hb : d.External b) (p : Option Nat)

include hd hb

theorem sendGains_view {ETH LUSD : Nat} (h : LQTYStaking.sendGains d b ETH LUSD s = .ok s') :
    view exact p s' = view exact p s := by
  obtain ⟨s₁, h₁, h⟩ := bind_ok.mp h
  obtain ⟨token, -, rfl⟩ := System.onLUSDToken_ok.mp h₁
  obtain ⟨ether, rfl, -⟩ :=
    System.callValue_external hd.lqtyStaking_ne_activePool hb (orRevert_ok.mp h)
  rfl

theorem stake_view {env : Env} {amount : Nat} (hsender : env.sender = b)
    (h : LQTYStaking.stake d env amount s = .ok s') : view exact p s' = view exact p s := by
  subst hsender
  simp only [LQTYStaking.stake, bind_ok] at h
  obtain ⟨-, -, gains, -, _, -, _, -, s₁, h₁, h⟩ := h
  obtain ⟨token, -, rfl⟩ := System.onLQTYToken_ok.mp h₁
  split at h
  · exact (sendGains_view hd hb p h).trans rfl
  · cases h
    rfl

theorem unstake_view {env : Env} {amount : Nat} (hsender : env.sender = b)
    (h : LQTYStaking.unstake d env amount s = .ok s') : view exact p s' = view exact p s := by
  subst hsender
  simp only [LQTYStaking.unstake, bind_ok] at h
  obtain ⟨-, -, ETH, -, LUSD, -, s₁, h₁, h⟩ := h
  refine (sendGains_view hd hb p h).trans ?_
  unfold LQTYStaking.withdrawStake at h₁
  split at h₁
  · simp only [bind_ok, System.onLQTYToken_ok] at h₁
    obtain ⟨_, -, _, -, token, -, rfl⟩ := h₁
    rfl
  · cases h₁
    rfl

theorem claimCollateral_view {env : Env} (hsender : env.sender = b)
    (h : BorrowerOperations.claimCollateral d env s = .ok s') : view exact p s' = view exact p s := by
  subst hsender
  simp only [BorrowerOperations.claimCollateral, CollSurplusPool.claimColl, bind_ok, orRevert_ok] at h
  obtain ⟨-, -, -, -, ETH, -, h⟩ := h
  obtain ⟨ether, rfl, -⟩ := System.callValue_external hd.collSurplusPool_ne_activePool hb h
  rfl

end Silent

theorem registerFrontEnd_view {env : Env} {kickbackRate : Nat} (p : Option Nat)
    (h : StabilityPool.registerFrontEnd env kickbackRate s = .ok s') :
    view exact p s' = view exact p s := by
  simp only [StabilityPool.registerFrontEnd, bind_ok, pure_ok] at h
  obtain ⟨-, -, -, -, -, -, rfl⟩ := h
  rfl

/-- A call that emits nothing changes nothing that the subgraph sees. -/
theorem Emits.of_view {p : Option Nat} {v : View} (h : view exact p s' = v) :
    Emits exact v [] (view exact p s') := (Emits.nil _).congr h

/-! ## Whole transactions -/

/-- The price comes first. -/
theorem Emits.priced {log : List Event} {v : View} (p : Option Nat)
    (h : Emits exact (view exact (some price) s) log v) :
    Emits exact (view exact p s) (.lastGoodPriceUpdated price :: log) v :=
  .cons (.lastGoodPriceUpdated price) h

section Steps

variable (hd : d.Wired) (hr : Reachable d s) {env : Env} (p : Option Nat)

include hd hr

/-- A transaction that liquidates tallies its totals in some loop, and settles them. -/
theorem liquidation_emits {call : Call} {l : LoopState} {log : List Event}
    (hstep : Step d s ⟨env, call⟩ s')
    (htally : call.tally d env { s with timestamp := env.timestamp } = some (.ok l))
    (hloop : Emits exact (view exact (some env.price) s) log (loopView exact env.price l)) :
    Emits exact (view exact p s) (.lastGoodPriceUpdated env.price :: (log ++
      redistributeDebtAndCollLog l.totals.totalDebtToRedistribute s'.troveManager))
      (view exact (some env.price) s') := by
  have hs : Sound d { s with timestamp := env.timestamp } .none := { hr.sound hd with }
  have hl : Tally d PlainOnly _ _ l := Call.tally_ok hd hs PlainOnly.plain htally
  obtain ⟨l', hl', hsettle⟩ := hstep.tallied hd htally
  cases hl'
  exact (hloop.append (settleLiquidation_emits hd hstep.1.external hl hsettle)).priced p

theorem batchLiquidation_emits {call : Call} {troveArray : List Address}
    (hstep : Step d s ⟨env, call⟩ s')
    (htally : call.tally d env { s with timestamp := env.timestamp } =
      some (batchLiquidateTrovesTotals d env.price troveArray { s with timestamp := env.timestamp })) :
    Emits exact (view exact p s) (.lastGoodPriceUpdated env.price ::
      eventsAfter (batchLiquidateTrovesTotals d env.price troveArray
          { s with timestamp := env.timestamp }) fun l =>
        batchLiquidateTrovesTotalsLog d env.price troveArray { s with timestamp := env.timestamp } ++
          redistributeDebtAndCollLog l.totals.totalDebtToRedistribute s'.troveManager)
      (view exact (some env.price) s') := by
  have hs : Sound d { s with timestamp := env.timestamp } .none := { hr.sound hd with }
  have hpast := reachable_snapshotsPast hd hr
  obtain ⟨l, hl, -⟩ := hstep.tallied hd htally
  rw [eventsAfter_ok _ hl]
  rw [hl] at htally
  exact liquidation_emits hd hr p hstep htally
    (batchLiquidateTrovesTotals_emits hd hs hpast hl)

theorem sequenceLiquidation_emits {n : Nat} (hstep : Step d s ⟨env, .liquidateTroves n⟩ s') :
    Emits exact (view exact p s) (.lastGoodPriceUpdated env.price ::
      eventsAfter (liquidateTrovesTotals d env.price n { s with timestamp := env.timestamp }) fun l =>
        liquidateTrovesTotalsLog d env.price n { s with timestamp := env.timestamp } ++
          redistributeDebtAndCollLog l.totals.totalDebtToRedistribute s'.troveManager)
      (view exact (some env.price) s') := by
  have hs : Sound d { s with timestamp := env.timestamp } .none := { hr.sound hd with }
  have hpast := reachable_snapshotsPast hd hr
  obtain ⟨l, hl, -⟩ := hstep.tallied hd rfl
  rw [eventsAfter_ok _ hl]
  exact liquidation_emits hd hr p hstep (congrArg some hl)
    (liquidateTrovesTotals_emits hd hs hpast hl)

/-- What `_adjustTrove` reports follows the snapshots if the last event says so. -/
theorem adjusting_emits {a : BorrowerOperations.Adjustment} {ι : InFlight} {s₁ : System}
    (log : List Event) (hs₁ : Sound d s₁ ι) (htm : s₁.troveManager = s.troveManager) (hb : d.External a.borrower)
    (h : BorrowerOperations.adjustTroveInternal d env a s₁ = .ok s')
    (hfollow : exact → SnapshotsFollow s.troveManager
      (log ++ BorrowerOperations.troveLog .adjustTrove price a.borrower s.troveManager s'.troveManager)) :
    Emits exact (view exact p s₁)
      (BorrowerOperations.troveLog .adjustTrove price a.borrower s.troveManager s'.troveManager)
      (view exact (some price) s') := by
  have hpast : (s₁.ledger ι).SnapshotsPast := by
    have hpast := reachable_snapshotsPast hd hr
    rw [← htm] at hpast
    exact hpast
  rw [← htm]
  refine .priced p (adjustTroveInternal_emits hd hs₁ hpast hb h fun hexact hstake => ?_)
  rw [htm]
  refine (hfollow hexact).current
    (BorrowerOperations.updated .adjustTrove a.borrower s'.troveManager) ?_ a.borrower ?_
  · simp [BorrowerOperations.troveLog]
  · rw [BorrowerOperations.updated, Event.reported, if_pos hstake]
    rfl

end Steps

/-- The log of a transaction is a log of emissions. -/
theorem step_emits (hd : d.Wired) (hr : Reachable d s) {t : Transaction} (h : Step d s t s')
    (hfollow : exact → SnapshotsFollow s.troveManager (t.log d s s')) (p : Option Nat) :
    ∃ p', Emits exact (view exact p s) (t.log d s s') (view exact p' s') := by
  obtain ⟨env, call⟩ := t
  have hb := h.1.external
  have hs := hr.sound hd
  have hpast := reachable_snapshotsPast hd hr
  obtain ⟨ether, hbody, hsame, hkept⟩ := h.body hd
  have e₀ : Evolves d AnyMove s .none { s with timestamp := env.timestamp, ether } .none :=
    .silent hs rfl rfl hkept
  have hs₀ := e₀.sound hd hs
  dsimp only at hbody hsame hb
  cases call with
  | openTrove => exact ⟨_, .priced p (openTrove_emits hd hs₀ hbody)⟩
  | addColl | withdrawColl | withdrawLUSD | repayLUSD | adjustTrove =>
    exact ⟨_, adjusting_emits hd hr p [] hs₀ rfl hb hbody hfollow⟩
  | closeTrove => exact ⟨_, .priced p (closeTrove_emits hd hs₀ hb hbody)⟩
  | claimCollateral =>
    have hview : view exact p s' = _ := claimCollateral_view hd hb p rfl hbody
    exact ⟨p, .of_view hview⟩
  | liquidate | batchLiquidateTroves => exact ⟨_, batchLiquidation_emits hd hr p h rfl⟩
  | liquidateTroves => exact ⟨_, sequenceLiquidation_emits hd hr p h⟩
  | redeemCollateral =>
    obtain rfl := hsame rfl
    refine ⟨_, .priced p (redeemCollateral_emits hd hs₀ hpast hb hbody fun hexact => ?_)⟩
    exact (hfollow hexact).of_append [_]
  | provideToSP amount =>
    obtain ⟨reading, hreading, hredeposited⟩ := provideToSP_redeposited hd hb hbody
    have hlog : Emits exact _ _ _ := depositLog_emits (· + amount) hreading hredeposited p
    exact ⟨p, hlog⟩
  | withdrawFromSP amount =>
    obtain ⟨reading, hreading, hredeposited⟩ := withdrawFromSP_redeposited hd hb hbody
    have hlog (p : Option Nat) : Emits exact _ _ _ := depositLog_emits
      (fun compounded => compounded - LiquityMath.min amount compounded) hreading hredeposited p
    change ∃ p', Emits exact _
      ((if amount = 0 then [] else [Event.lastGoodPriceUpdated env.price]) ++ _) _
    split
    · exact ⟨p, hlog p⟩
    · exact ⟨_, .priced p (hlog _)⟩
  | withdrawETHGainToTrove =>
    obtain ⟨s₁, gain, hevolves, htm, hactive, hdefault, -, ⟨q, reading, stake, hissued, hread, hpool⟩,
      hadjust⟩ := StabilityPool.withdrawETHGainToTrove_ok hd hs₀
        (fun L => AnyMove.all L _) (fun L _ => AnyMove.all L _) hbody
    rw [(StabilityPool.readDeposit_issued hissued _ _).1] at hread
    have hredeposited :=
      withdrawETHGainToTrove_redeposited hissued htm hactive hdefault hpool
    exact ⟨_, (gainToTroveLog_emits hread hredeposited p).append
      (adjusting_emits hd hr p _ (hevolves.sound hd hs₀) htm hb hadjust hfollow)⟩
  | registerFrontEnd =>
    have hview : view exact p s' = _ := registerFrontEnd_view p hbody
    exact ⟨p, .of_view hview⟩
  | stake =>
    have hview : view exact p s' = _ := stake_view hd hb p rfl hbody
    exact ⟨p, .of_view hview⟩
  | unstake =>
    have hview : view exact p s' = _ := unstake_view hd hb p rfl hbody
    exact ⟨p, .of_view hview⟩
  | transferLUSD | approveLUSD | transferLUSDFrom =>
    obtain ⟨token, -, rfl⟩ := System.onLUSDToken_ok.mp hbody
    exact ⟨p, .nil _⟩
  | transferLQTY | approveLQTY | transferLQTYFrom =>
    obtain ⟨token, -, rfl⟩ := System.onLQTYToken_ok.mp hbody
    exact ⟨p, .nil _⟩

end Subgraph

end Liquity
