import Liquity.Soundness

/-!
# Liquidations

What a liquidating call does to the troves, over all three entry points, both modes and any length
of the loop.  Ratios do not move while a loop runs, because a liquidation touches neither the other
troves nor the reward accumulators, so every decision of the loop is one about the state the call
started in.
-/

open Lib

namespace Liquity

open SafeMath LiquityMath TroveManager

variable {d : Deployment} {s s' : System} {b : Address} {price : Nat}

/-! ## Troves that a loop has not reached -/

theorem SameTrove.getCurrentTroveAmounts {t₀ t : TroveManager} (h : SameTrove t₀ t b)
    (hstatus : (t.troves b).status = (t₀.troves b).status) (hE : t.L_ETH = t₀.L_ETH)
    (hD : t.L_LUSDDebt = t₀.L_LUSDDebt) :
    t.getCurrentTroveAmounts b = t₀.getCurrentTroveAmounts b := by
  simp only [TroveManager.getCurrentTroveAmounts, getPendingETHReward, getPendingLUSDDebtReward,
    pendingReward, h.coll, h.debt, h.stake, hstatus, h.snapshot, hE, hD]

theorem SameTrove.getCurrentICR {t₀ t : TroveManager} (h : SameTrove t₀ t b)
    (hstatus : (t.troves b).status = (t₀.troves b).status) (hE : t.L_ETH = t₀.L_ETH)
    (hD : t.L_LUSDDebt = t₀.L_LUSDDebt) (price : Nat) :
    t.getCurrentICR b price = t₀.getCurrentICR b price := by
  rw [TroveManager.getCurrentICR, TroveManager.getCurrentICR,
    h.getCurrentTroveAmounts hstatus hE hD]

theorem SameTrove.getEntireDebtAndColl {t₀ t : TroveManager} (h : SameTrove t₀ t b)
    (hstatus : (t.troves b).status = (t₀.troves b).status) (hE : t.L_ETH = t₀.L_ETH)
    (hD : t.L_LUSDDebt = t₀.L_LUSDDebt) :
    t.getEntireDebtAndColl b = t₀.getEntireDebtAndColl b := by
  simp only [TroveManager.getEntireDebtAndColl, getPendingETHReward, getPendingLUSDDebtReward,
    pendingReward, h.coll, h.debt, h.stake, hstatus, h.snapshot, hE, hD]

/-! ## Closing one trove -/

/-- One trove is closed by liquidation, with the values `v`. -/
structure Closes (b : Address) (v : LiquidationValues) (s s' : System) : Prop where
  active : (s.troveManager.troves b).status = .active
  entire : ∃ entire, s.troveManager.getEntireDebtAndColl b = .ok entire ∧
    v.entireTroveDebt = entire.debt ∧ v.entireTroveColl = entire.coll
  troveManager : s'.troveManager = s.troveManager.unregister b .closedByLiquidation
  surplus : s'.collSurplusPool.balances =
    Function.update s.collSurplusPool.balances b (s.collSurplusPool.balances b + v.collSurplus)
  coll : s'.activePool.ETH + s'.defaultPool.ETH = s.activePool.ETH + s.defaultPool.ETH
  debt : s'.activePool.LUSDDebt + s'.defaultPool.LUSDDebt =
    s.activePool.LUSDDebt + s.defaultPool.LUSDDebt

theorem Closes.full (hd : d.Wired) {entire : EntireDebtAndColl} (vals : OffsetAndRedistribution)
    (hactive : (s.troveManager.troves b).status = .active)
    (hentire : s.troveManager.getEntireDebtAndColl b = .ok entire)
    (h : closeLiquidatedTrove d b entire s = .ok s') :
    Closes b (fullLiquidationValues entire vals) s s' := by
  obtain ⟨hLUSD, hETH, -, -, l, ether, -, rfl⟩ := closeLiquidatedTrove_ok hd h
  refine ⟨hactive, ⟨entire, hentire, rfl, rfl⟩, rfl, ?_, ?_, ?_⟩
  · exact (Function.update_eq_self b _).symm
  · dsimp only
    omega
  · dsimp only
    omega

theorem liquidateNormalMode_closes (hd : d.Wired) {LUSDInStabPool : Nat}
    {r : LiquidationValues × System} (hactive : (s.troveManager.troves b).status = .active)
    (h : liquidateNormalMode d b LUSDInStabPool s = .ok r) :
    Closes b r.1 s r.2 ∧ r.1.collSurplus = 0 ∧ r.1.LUSDGasCompensation = LUSD_GAS_COMPENSATION := by
  simp only [liquidateNormalMode, bind_ok, pure_ok] at h
  obtain ⟨entire, hentire, _, -, vals, -, s₁, hclose, rfl⟩ := h
  exact ⟨Closes.full hd _ hactive hentire hclose, rfl, rfl⟩

/-- The values of a trove that is offset at the minimum ratio. -/
structure LiquidationValues.Capped (v : LiquidationValues) (price : Nat) : Prop where
  offset : v.debtToOffset = v.entireTroveDebt
  redistribute : v.debtToRedistribute = 0
  surplus : v.collSurplus + v.entireTroveDebt * MCR / price = v.entireTroveColl

theorem accountSurplus_ok {surplus : Nat} (h : accountSurplus d b surplus s = .ok s') :
    ∃ p : CollSurplusPool, s' = { s with collSurplusPool := p } ∧
      p.balances =
        Function.update s.collSurplusPool.balances b (s.collSurplusPool.balances b + surplus) := by
  unfold accountSurplus at h
  split at h
  · simp only [System.onCollSurplusPool_ok, CollSurplusPool.accountSurplus, bind_ok, pure_ok,
      add_ok] at h
    obtain ⟨_, ⟨-, -, _, ⟨-, rfl⟩, rfl⟩, rfl⟩ := h
    exact ⟨_, rfl, rfl⟩
  next hzero =>
    cases h
    obtain rfl : surplus = 0 := Nat.eq_zero_of_not_pos hzero
    exact ⟨s.collSurplusPool, rfl, (Function.update_eq_self b _).symm⟩

/-- In Recovery Mode a trove is passed over, closed below the minimum ratio, or offset as a whole
below the ratio of the system. -/
theorem liquidateRecoveryMode_closes (hd : d.Wired) {ICR LUSDInStabPool TCR : Nat}
    {r : LiquidationValues × System} {order : List Address}
    (ht : s.troveManager.Registered order)
    (hICR : s.troveManager.getCurrentICR b price = .ok ICR) (hTCR : TCR ≤ maxRatio)
    (h : liquidateRecoveryMode d b ICR LUSDInStabPool TCR price s = .ok r) :
    r = (.zero, s) ∨
      (Closes b r.1 s r.2 ∧ r.1.LUSDGasCompensation = LUSD_GAS_COMPENSATION ∧
        ((ICR < MCR ∧ r.1.collSurplus = 0) ∨ (MCR ≤ ICR ∧ ICR < TCR ∧ r.1.Capped price))) := by
  have hactive : ICR < maxRatio → (s.troveManager.troves b).status = .active :=
    active_of_getCurrentICR ht hICR
  unfold liquidateRecoveryMode at h
  -- the branches of the source in their order
  split at h
  · cases h
    exact .inl rfl
  simp only [bind_ok] at h
  obtain ⟨entire, hentire, _, -, h⟩ := h
  split at h
  next hlow =>
    have hlt : ICR < MCR := hlow.trans_lt (by decide)
    simp only [bind_ok, pure_ok] at h
    obtain ⟨s₁, hclose, rfl⟩ := h
    exact .inr ⟨Closes.full hd _ (hactive (hlt.trans (by decide))) hentire hclose, rfl,
      .inl ⟨hlt, rfl⟩⟩
  split at h
  next hmid =>
    simp only [bind_ok, pure_ok] at h
    obtain ⟨vals, -, s₁, hclose, rfl⟩ := h
    exact .inr ⟨Closes.full hd _ (hactive (hmid.2.trans (by decide))) hentire hclose, rfl,
      .inl ⟨hmid.2, rfl⟩⟩
  split at h
  next hhigh =>
    have hact := hactive (hhigh.2.1.trans_le hTCR)
    simp only [bind_ok, pure_ok, getCappedOffsetVals, mul_ok, div_ok, sub_ok] at h
    obtain ⟨-, -, _, ⟨_, ⟨-, rfl⟩, _, ⟨-, rfl⟩, _, ⟨-, rfl⟩, _, ⟨hcapped, rfl⟩, rfl⟩, s₁, hclose, s₂,
      hsurplus, rfl⟩ := h
    obtain ⟨p, rfl, hp⟩ := accountSurplus_ok hsurplus
    -- closing the trove as such books no surplus
    have hclosed := Closes.full hd ⟨0, 0, 0, 0⟩ hact hentire hclose
    refine .inr ⟨⟨hact, ⟨entire, hentire, rfl, rfl⟩, hclosed.troveManager, ?_, hclosed.coll,
      hclosed.debt⟩, rfl, .inr ⟨hhigh.1, hhigh.2.1, rfl, rfl, Nat.sub_add_cancel hcapped⟩⟩
    have hnone := hclosed.surplus
    simp only [fullLiquidationValues, Nat.add_zero, Function.update_eq_self] at hnone
    rw [← hnone]
    exact hp
  next =>
    cases h
    exact .inl rfl

/-! ## What a loop has closed -/

/-- The totals with one more liquidation. -/
def LiquidationTotals.plus (t : LiquidationTotals) (v : LiquidationValues) : LiquidationTotals :=
  ⟨t.totalCollInSequence + v.entireTroveColl, t.totalDebtInSequence + v.entireTroveDebt,
    t.totalCollGasCompensation + v.collGasCompensation,
    t.totalLUSDGasCompensation + v.LUSDGasCompensation, t.totalDebtToOffset + v.debtToOffset,
    t.totalCollToSendToSP + v.collToSendToSP, t.totalDebtToRedistribute + v.debtToRedistribute,
    t.totalCollToRedistribute + v.collToRedistribute, t.totalCollSurplus + v.collSurplus⟩

/-- The values of all liquidations of a call, added up. -/
def totalsOf (closed : List (Address × LiquidationValues)) : LiquidationTotals :=
  closed.foldl (fun t c => t.plus c.2) .zero

/-- Why a trove of `s` may be liquidated at `price` with the values `v`. -/
structure Liquidatable (price : Nat) (s : System) (b : Address) (v : LiquidationValues) : Prop where
  active : (s.troveManager.troves b).status = .active
  entire : ∃ entire, s.troveManager.getEntireDebtAndColl b = .ok entire ∧
    v.entireTroveDebt = entire.debt ∧ v.entireTroveColl = entire.coll
  ratio : ∃ ICR, s.troveManager.getCurrentICR b price = .ok ICR ∧
    (ICR < MCR ∨
      (s.checkRecoveryMode price = .ok true ∧ MCR ≤ ICR ∧ ICR < CCR ∧ v.Capped price))

/-- The invariant of the loops: the troves closed since the call started in `s`, and the rest. -/
structure Trace (price : Nat) (s : System) (recovery : Bool) (l : LoopState)
    (closed : List (Address × LiquidationValues)) : Prop where
  L_ETH : l.system.troveManager.L_ETH = s.troveManager.L_ETH
  L_LUSDDebt : l.system.troveManager.L_LUSDDebt = s.troveManager.L_LUSDDebt
  nodup : (closed.map Prod.fst).Nodup
  totals : l.totals = totalsOf closed
  kept : ∀ x, x ∉ closed.map Prod.fst →
    SameTrove s.troveManager l.system.troveManager x ∧
      (l.system.troveManager.troves x).status = (s.troveManager.troves x).status ∧
      l.system.collSurplusPool.balances x = s.collSurplusPool.balances x
  liquidated : ∀ c ∈ closed, Liquidatable price s c.1 c.2 ∧
    (l.system.troveManager.troves c.1).status = .closedByLiquidation ∧
    l.system.collSurplusPool.balances c.1 = s.collSurplusPool.balances c.1 + c.2.collSurplus
  mode : recovery = true → s.checkRecoveryMode price = .ok true ∧
    (l.vars.backToNormalMode = false → ∀ TCR,
      computeCR l.vars.entireSystemColl l.vars.entireSystemDebt price = .ok TCR → TCR < CCR)

section Trace

variable {recovery : Bool} {l l' : LoopState} {closed : List (Address × LiquidationValues)}

theorem LoopStart.trace (h : LoopStart price s recovery l) : Trace price s recovery l [] := by
  obtain ⟨hmode, h⟩ := h
  cases recovery with
  | true =>
    simp only [if_true, startRecoveryMode, bind_ok, pure_ok] at h
    obtain ⟨debt, hdebt, coll, hcoll, rfl⟩ := h
    refine ⟨rfl, rfl, List.nodup_nil, rfl, fun x _ => ⟨.refl _ x, rfl, rfl⟩,
      fun _ hmem => absurd hmem List.not_mem_nil, fun _ => ⟨hmode, ?_⟩⟩
    intro _ TCR hTCR
    simp only [System.checkRecoveryMode, System.getTCR, bind_ok, pure_ok, decide_eq_true_eq] at hmode
    obtain ⟨TCR', ⟨coll', hcoll', debt', hdebt', hTCR'⟩, hlt⟩ := hmode
    -- the totals of the loop are those that the mode was read from
    cases hcoll.symm.trans hcoll'
    cases hdebt.symm.trans hdebt'
    cases hTCR.symm.trans hTCR'
    exact hlt
  | false =>
    obtain rfl : l = _ := h
    exact ⟨rfl, rfl, List.nodup_nil, rfl, fun x _ => ⟨.refl _ x, rfl, rfl⟩,
      fun _ hmem => absurd hmem List.not_mem_nil, fun hrecovery => absurd hrecovery (by decide)⟩

/-- One more trove is closed. -/
theorem Trace.close {v : LiquidationValues} {s₁ : System} {vars : LiquidationSequence}
    {totals : LiquidationTotals} (h : Trace price s recovery l closed)
    (hclose : Closes b v l.system s₁)
    (hratio : ∃ ICR, l.system.troveManager.getCurrentICR b price = .ok ICR ∧
      (ICR < MCR ∨ (s.checkRecoveryMode price = .ok true ∧ MCR ≤ ICR ∧ ICR < CCR ∧ v.Capped price)))
    (htotals : addLiquidationValuesToTotals l.totals v = .ok totals)
    (hmode : recovery = true → vars.backToNormalMode = false → ∀ TCR,
      computeCR vars.entireSystemColl vars.entireSystemDebt price = .ok TCR → TCR < CCR) :
    Trace price s recovery ⟨vars, totals, s₁⟩ (closed ++ [(b, v)]) := by
  -- the trove is still open, so the loop has not closed it before
  have hb : b ∉ closed.map Prod.fst := by
    intro hmem
    obtain ⟨c, hc, rfl⟩ := List.mem_map.mp hmem
    have hstatus := (h.liquidated c hc).2.1
    rw [hclose.active] at hstatus
    cases hstatus
  -- so it reads as it did when the call started
  obtain ⟨hsame, hstatus, hbalance⟩ := h.kept b hb
  have hliquidatable : Liquidatable price s b v := by
    refine ⟨hstatus.symm.trans hclose.active, ?_, ?_⟩
    · rw [← hsame.getEntireDebtAndColl hstatus h.L_ETH h.L_LUSDDebt]
      exact hclose.entire
    · rw [← hsame.getCurrentICR hstatus h.L_ETH h.L_LUSDDebt]
      exact hratio
  have hother : ∀ x, x ≠ b → SameTrove l.system.troveManager s₁.troveManager x ∧
      (s₁.troveManager.troves x).status = (l.system.troveManager.troves x).status ∧
      s₁.collSurplusPool.balances x = l.system.collSurplusPool.balances x := by
    intro x hx
    rw [hclose.troveManager, hclose.surplus, Function.update_of_ne hx]
    obtain ⟨hx, hstatus⟩ := sameTrove_unregister (t := l.system.troveManager) hx
    exact ⟨hx, hstatus, rfl⟩
  refine ⟨?_, ?_, ?_, ?_, fun x hx => ?_, fun c hc => ?_, fun hrec => ⟨(h.mode hrec).1, hmode hrec⟩⟩
  · rw [hclose.troveManager]
    exact h.L_ETH
  · rw [hclose.troveManager]
    exact h.L_LUSDDebt
  · rw [List.map_append, List.nodup_append]
    refine ⟨h.nodup, List.nodup_singleton _, fun x hx y hy => ?_⟩
    obtain rfl : y = b := by simpa using hy
    exact fun heq => hb (heq ▸ hx)
  · rw [addLiquidationValuesToTotals_ok htotals, h.totals, totalsOf, totalsOf, List.foldl_append]
    rfl
  · rw [List.map_append, List.mem_append, not_or] at hx
    obtain ⟨hx, hxb⟩ := hx
    obtain ⟨hsame', hstatus', hbalance'⟩ := hother x (by simpa using hxb)
    obtain ⟨hsame, hstatus, hbalance⟩ := h.kept x hx
    exact ⟨hsame.trans hsame', hstatus'.trans hstatus, hbalance'.trans hbalance⟩
  · rcases List.mem_append.mp hc with hc | hc
    · have hcb : c.1 ≠ b := fun heq => hb (heq ▸ List.mem_map_of_mem hc)
      obtain ⟨hliq, hclosed, hbal⟩ := h.liquidated c hc
      obtain ⟨-, hstatus', hbalance'⟩ := hother c.1 hcb
      exact ⟨hliq, hstatus'.trans hclosed, hbalance'.trans hbal⟩
    · obtain rfl : c = (b, v) := by simpa using hc
      refine ⟨hliquidatable, ?_, ?_⟩
      · rw [hclose.troveManager, unregister_troves_self]
      · rw [hclose.surplus, Function.update_self, hbalance]

theorem Trace.loopStep (hd : d.Wired) {allow : Ledger → Label → Prop} {LUSDInStabPool : Nat}
    {s₀ : System} (hs : Sound d s₀ .none) (htally : Tally d allow s₀ LUSDInStabPool l)
    (h : Trace price s recovery l closed) (hstep : LoopStep d price recovery l l') :
    ∃ closed', Trace price s recovery l' closed' ∧
      ∀ c ∈ closed', c ∈ closed ∨ c.2.LUSDGasCompensation = LUSD_GAS_COMPENSATION := by
  -- a step appends at most one trove to those that are closed
  have happended : ∀ {b : Address} {v : LiquidationValues},
      v.LUSDGasCompensation = LUSD_GAS_COMPENSATION → ∀ c ∈ closed ++ [(b, v)],
        c ∈ closed ∨ c.2.LUSDGasCompensation = LUSD_GAS_COMPENSATION := by
    intro b v hgas c hc
    rcases List.mem_append.mp hc with hc | hc
    · exact .inl hc
    · obtain rfl : c = (b, v) := by simpa using hc
      exact .inr hgas
  have hsl := htally.evolves.sound hd hs
  cases hstep with
  -- in a loop of Recovery Mode this body only runs once the mode was left
  | @normal user ICR hmode hICR hlt hbody =>
    have hactive := active_of_getCurrentICR hsl.registered hICR (hlt.trans (by decide))
    simp only [liquidateInNormalMode, bind_ok, pure_ok] at hbody
    obtain ⟨r, hr, _, -, totals, htotals, rfl⟩ := hbody
    obtain ⟨hclose, -, hgas⟩ := liquidateNormalMode_closes hd hactive hr
    refine ⟨_, h.close hclose ⟨ICR, hICR, .inl hlt⟩ htotals ?_, happended hgas⟩
    intro hrec hback
    rw [hmode hrec] at hback
    cases hback
  | @recovery user ICR hrec hback hICR _ hbody =>
    simp only [liquidateInRecoveryMode, bind_ok, pure_ok] at hbody
    obtain ⟨TCR, hTCR, r, hr, remaining, -, debt, -, _, -, _, -, coll, -, totals, htotals, inRecovery,
      hcheck, rfl⟩ := hbody
    -- the flag was set from the ratio of the new totals
    have hmode : (!inRecovery) = false → ∀ TCR, computeCR coll debt price = .ok TCR → TCR < CCR := by
      intro hin TCR hTCR
      simp only [checkPotentialRecoveryMode, bind_ok, pure_ok] at hcheck
      obtain ⟨TCR', hTCR', rfl⟩ := hcheck
      cases hTCR.symm.trans hTCR'
      simpa using hin
    obtain ⟨hrecovery, hTCRlt⟩ := h.mode hrec
    rcases liquidateRecoveryMode_closes hd hsl.registered hICR (computeCR_le hTCR) hr with
      rfl | ⟨hclose, hgas, hcases⟩
    · -- the trove is passed over: nothing changes but the running totals
      refine ⟨closed, ⟨h.L_ETH, h.L_LUSDDebt, h.nodup, ?_, h.kept, h.liquidated,
        fun _ => ⟨hrecovery, hmode⟩⟩, fun _ hc => .inl hc⟩
      rw [addLiquidationValuesToTotals_ok htotals]
      exact h.totals
    · refine ⟨_, h.close hclose ⟨ICR, hICR, ?_⟩ htotals fun _ => hmode, happended hgas⟩
      rcases hcases with ⟨hlt, -⟩ | ⟨hge, hlt, hcapped⟩
      · exact .inl hlt
      · exact .inr ⟨hrecovery, hge, hlt.trans (hTCRlt hback TCR hTCR), hcapped⟩

/-- Every liquidating call that tallies has a trace, with one gas compensation for each trove. -/
theorem Call.tally_trace (hd : d.Wired) (hs : Sound d s .none) {env : Env} {call : Call}
    (h : call.tally d env s = some (.ok l)) :
    ∃ recovery closed, Trace env.price s recovery l closed ∧
      ∀ c ∈ closed, c.2.LUSDGasCompensation = LUSD_GAS_COMPENSATION := by
  obtain ⟨recovery, l₀, hstart, hsteps⟩ := call.tally_steps h
  have hboth : Tally d PlainOnly s s.stabilityPool.totalLUSDDeposits l ∧
      ∃ closed, Trace env.price s recovery l closed ∧
        ∀ c ∈ closed, c.2.LUSDGasCompensation = LUSD_GAS_COMPENSATION := by
    clear h
    -- on the rounds of the loop, together with the soundness of its state
    induction hsteps with
    | refl => exact ⟨hstart.tally hs, [], hstart.trace, fun _ hc => absurd hc List.not_mem_nil⟩
    | tail _ hstep ih =>
      obtain ⟨htally, closed, htrace, hgas⟩ := ih
      obtain ⟨closed', htrace', hgas'⟩ := htrace.loopStep hd hs htally hstep
      exact ⟨htally.loopStep hd hs PlainOnly.plain hstep, closed', htrace',
        fun c hc => (hgas' c hc).elim (hgas c) id⟩
  exact ⟨recovery, hboth.2⟩

end Trace

/-! ## Only liquidatable troves are liquidated -/

/-- The three entry points. -/
def Call.isLiquidation : Call → Bool
  | .liquidate .. | .liquidateTroves .. | .batchLiquidateTroves .. => true
  | _ => false

theorem Call.isLiquidation.tally {call : Call} (h : call.isLiquidation = true) (d : Deployment)
    (env : Env) (s : System) : ∃ x, call.tally d env s = some x := by
  cases call <;> simp_all [Call.isLiquidation, Call.tally]

/-- A liquidating call closes troves one by one: each was below the minimum ratio when the call
started, or the system was in Recovery Mode, the trove below the critical ratio, all its debt is part
of what the Stability Pool absorbs and its owner can claim what the capped offset leaves over.  All
other troves keep their status, collateral, debt and surplus, so a trove at or above the critical
ratio is never closed. -/
theorem liquidation_closes_liquidatable (hd : d.Wired) (hr : Reachable d s) {t : Transaction}
    (hcall : t.call.isLiquidation = true) (hstep : Step d s t s') :
    ∃ closed : List (Address × LiquidationValues),
      (closed.map Prod.fst).Nodup ∧
      StabilityPool.Offsets (totalsOf closed).totalDebtToOffset (totalsOf closed).totalCollToSendToSP
        s.stabilityPool s'.stabilityPool ∧
      (∀ c ∈ closed, Liquidatable t.env.price s c.1 c.2 ∧
        (s'.troveManager.troves c.1).status = .closedByLiquidation ∧
        s'.collSurplusPool.balances c.1 = s.collSurplusPool.balances c.1 + c.2.collSurplus) ∧
      (∀ x, x ∉ closed.map Prod.fst →
        (s'.troveManager.troves x).status = (s.troveManager.troves x).status ∧
        (s'.troveManager.troves x).coll = (s.troveManager.troves x).coll ∧
        (s'.troveManager.troves x).debt = (s.troveManager.troves x).debt ∧
        s'.collSurplusPool.balances x = s.collSurplusPool.balances x) ∧
      ∀ x ICR, s.troveManager.getCurrentICR x t.env.price = .ok ICR → CCR ≤ ICR →
        (s'.troveManager.troves x).status = (s.troveManager.troves x).status := by
  have hs₀ : Sound d { s with timestamp := t.env.timestamp } .none := { hr.sound hd with }
  obtain ⟨x, hx⟩ := Call.isLiquidation.tally hcall d t.env { s with timestamp := t.env.timestamp }
  obtain ⟨l, rfl, -⟩ := hstep.tallied hd hx
  obtain ⟨-, hsettles, hoffsets⟩ := Step.settled hd hr hstep hx
  obtain ⟨recovery, closed, htrace, -⟩ := Call.tally_trace hd hs₀ hx
  rw [htrace.totals] at hoffsets
  have hliquidated : ∀ c ∈ closed, Liquidatable t.env.price s c.1 c.2 :=
    fun c hc => ⟨(htrace.liquidated c hc).1.active, (htrace.liquidated c hc).1.entire,
      (htrace.liquidated c hc).1.ratio⟩
  have hkept : ∀ x, x ∉ closed.map Prod.fst →
      (s'.troveManager.troves x).status = (s.troveManager.troves x).status ∧
      (s'.troveManager.troves x).coll = (s.troveManager.troves x).coll ∧
      (s'.troveManager.troves x).debt = (s.troveManager.troves x).debt ∧
      s'.collSurplusPool.balances x = s.collSurplusPool.balances x := by
    intro x hx
    rw [hsettles.troves, hsettles.surplus]
    obtain ⟨hsame, hstatus, hbalance⟩ := htrace.kept x hx
    exact ⟨hstatus, hsame.coll, hsame.debt, hbalance⟩
  refine ⟨closed, htrace.nodup, hoffsets, fun c hc => ⟨hliquidated c hc, ?_⟩, hkept, ?_⟩
  · rw [hsettles.troves, hsettles.surplus]
    exact (htrace.liquidated c hc).2
  · intro x ICR hICR hge
    refine (hkept x fun hmem => ?_).1
    obtain ⟨c, hc, rfl⟩ := List.mem_map.mp hmem
    obtain ⟨ICR', hICR', hcases⟩ := (hliquidated c hc).ratio
    cases hICR.symm.trans hICR'
    have hMCR : MCR ≤ CCR := by decide
    omega

theorem sampleOffset_closes : ∃ s s', Reachable sampleDeployment s ∧
    Step sampleDeployment s ⟨⟨101, 0, 0, 1800 * 10 ^ 18⟩, .liquidate 102⟩ s' ∧
    (s'.troveManager.troves 102).status = .closedByLiquidation ∧
    ∃ v, Liquidatable (1800 * 10 ^ 18) s 102 v := by
  obtain ⟨s, s', hs, hstep, hactive, hclosed⟩ := exists_step sampleOpenings
    ⟨⟨101, 0, 0, 1800 * 10 ^ 18⟩, .liquidate 102⟩
    (fun s s' => (s.troveManager.troves 102).status = .active ∧
      (s'.troveManager.troves 102).status = .closedByLiquidation) (by decide +kernel)
  obtain ⟨closed, -, -, hliquidated, hkept, -⟩ :=
    liquidation_closes_liquidatable sampleDeployment_wired hs rfl hstep
  refine ⟨s, s', hs, hstep, hclosed, ?_⟩
  have hmem : (102 : Address) ∈ closed.map Prod.fst := by
    by_contra hnot
    have hstatus := (hkept 102 hnot).1
    rw [hactive, hclosed] at hstatus
    cases hstatus
  obtain ⟨c, hc, hc102⟩ := List.mem_map.mp hmem
  exact ⟨c.2, hc102 ▸ (hliquidated c hc).1⟩

end Liquity
