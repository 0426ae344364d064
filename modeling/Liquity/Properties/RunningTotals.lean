import Liquity.Properties.Liquidations

/-!
# The running totals of Recovery Mode

The loops of Recovery Mode keep the collateral and debt of the system in two local variables, so that
each decision is made on the ratio that the liquidations made so far will leave.  While the loop has
not left Recovery Mode, settling what it has tallied would leave exactly these totals in the pools,
and the subtractions that update them never fail.
-/

open Lib

namespace Liquity

open SafeMath LiquityMath TroveManager

variable {d : Deployment} {s s' : System} {price : Nat} {l l' : LoopState}

/-- The local totals are what the pools hold, less what the settlement will take out of them. -/
structure RunningTotals (s : System) (l : LoopState) : Prop where
  coll : l.system.activePool.ETH + l.system.defaultPool.ETH = s.activePool.ETH + s.defaultPool.ETH
  debt : l.system.activePool.LUSDDebt + l.system.defaultPool.LUSDDebt =
    s.activePool.LUSDDebt + s.defaultPool.LUSDDebt
  entireSystemColl : l.vars.backToNormalMode = false →
    l.vars.entireSystemColl + (l.totals.totalCollToSendToSP + l.totals.totalCollSurplus +
      l.totals.totalCollGasCompensation) = l.system.activePool.ETH + l.system.defaultPool.ETH
  entireSystemDebt : l.vars.backToNormalMode = false →
    l.vars.entireSystemDebt + l.totals.totalDebtToOffset =
      l.system.activePool.LUSDDebt + l.system.defaultPool.LUSDDebt

theorem startRecoveryMode_runningTotals {LUSDInStabPool : Nat}
    (h : startRecoveryMode LUSDInStabPool s = .ok l) : RunningTotals s l := by
  simp only [startRecoveryMode, System.getEntireSystemColl, System.getEntireSystemDebt, bind_ok,
    pure_ok, add_ok] at h
  obtain ⟨_, ⟨-, rfl⟩, _, ⟨-, rfl⟩, rfl⟩ := h
  exact ⟨rfl, rfl, fun _ => rfl, fun _ => rfl⟩

/-- What a single liquidation takes from the running totals is there. -/
theorem RunningTotals.covers (hd : d.Wired) (hs : Sound d s .none) {LUSDInStabPool : Nat}
    (htally : Tally d PlainOnly s LUSDInStabPool l) (h : RunningTotals s l)
    (hrecovering : l.vars.backToNormalMode = false) {user : Address} {ICR TCR : Nat}
    {single : LiquidationValues × System}
    (hICR : l.system.troveManager.getCurrentICR user price = .ok ICR)
    (hTCR : computeCR l.vars.entireSystemColl l.vars.entireSystemDebt price = .ok TCR)
    (hsingle : liquidateRecoveryMode d user ICR l.vars.remainingLUSDInStabPool TCR price l.system =
      .ok single) :
    single.1.debtToOffset ≤ l.vars.entireSystemDebt ∧
      single.1.collToSendToSP + single.1.collGasCompensation + single.1.collSurplus ≤
        l.vars.entireSystemColl ∧
      single.2.activePool.ETH + single.2.defaultPool.ETH =
        l.system.activePool.ETH + l.system.defaultPool.ETH ∧
      single.2.activePool.LUSDDebt + single.2.defaultPool.LUSDDebt =
        l.system.activePool.LUSDDebt + l.system.defaultPool.LUSDDebt := by
  have hsl := htally.evolves.sound hd hs
  have hliquidated : Liquidated d PlainOnly _ _ _ _ _ :=
    liquidateRecoveryMode_liquidated hd hsl PlainOnly.plain hICR (computeCR_le hTCR) hsingle
  -- a liquidation moves rewards between the pools but takes nothing out of them
  have hpools : single.2.activePool.ETH + single.2.defaultPool.ETH =
        l.system.activePool.ETH + l.system.defaultPool.ETH ∧
      single.2.activePool.LUSDDebt + single.2.defaultPool.LUSDDebt =
        l.system.activePool.LUSDDebt + l.system.defaultPool.LUSDDebt := by
    rcases liquidateRecoveryMode_closes hd hsl.registered hICR (computeCR_le hTCR) hsingle with
      heq | ⟨hclose, -⟩
    · rw [heq]
      exact ⟨rfl, rfl⟩
    · exact ⟨hclose.coll, hclose.debt⟩
  -- everything in flight, this trove included, is still in the Active Pool
  have hafter := (hliquidated.evolves.sound hd hsl).books.inFlight_le
  have hETH : l.totals.totalCollInSequence + single.1.entireTroveColl ≤ single.2.activePool.ETH :=
    hafter.1
  have hdebt : l.totals.totalDebtInSequence + single.1.entireTroveDebt ≤
      single.2.activePool.LUSDDebt := hafter.2
  have hsplitColl := htally.splits.coll
  have hsplitDebt := htally.splits.debt
  have hsingleColl := hliquidated.splits.coll
  have hsingleDebt := hliquidated.splits.debt
  have hcollEq := h.entireSystemColl hrecovering
  have hdebtEq := h.entireSystemDebt hrecovering
  refine ⟨?_, ?_, hpools⟩
  · omega
  · omega

theorem RunningTotals.loopStep (hd : d.Wired) (hs : Sound d s .none) {LUSDInStabPool : Nat}
    (htally : Tally d PlainOnly s LUSDInStabPool l) (h : RunningTotals s l)
    (hstep : LoopStep d price true l l') : RunningTotals s l' := by
  have hsl := htally.evolves.sound hd hs
  cases hstep with
  -- the totals are not kept any more, and the flag says so
  | @normal user ICR hmode hICR hlt hbody =>
    have hactive := active_of_getCurrentICR hsl.registered hICR (hlt.trans (by decide))
    simp only [liquidateInNormalMode, bind_ok, pure_ok] at hbody
    obtain ⟨r, hr, _, -, totals, -, rfl⟩ := hbody
    have hclose := (liquidateNormalMode_closes hd hactive hr).1
    have hback := hmode rfl
    refine ⟨hclose.coll.trans h.coll, hclose.debt.trans h.debt, fun hno => ?_, fun hno => ?_⟩ <;>
    · simp only [hback] at hno
      cases hno
  | @recovery user ICR _ hrecovering hICR _ hbody =>
    simp only [liquidateInRecoveryMode, bind_ok, pure_ok, sub_ok] at hbody
    obtain ⟨TCR, hTCR, r, hr, _, -, _, ⟨hdebt, rfl⟩, _, ⟨hSP, rfl⟩, _, ⟨hgas, rfl⟩, _, ⟨hsurplus, rfl⟩,
      totals, htotals, inRecovery, -, rfl⟩ := hbody
    obtain ⟨-, -, hcollPools, hdebtPools⟩ := h.covers hd hs htally hrecovering hICR hTCR hr
    have hcollEq := h.entireSystemColl hrecovering
    have hdebtEq := h.entireSystemDebt hrecovering
    obtain rfl := addLiquidationValuesToTotals_ok htotals
    refine ⟨hcollPools.trans h.coll, hdebtPools.trans h.debt, fun _ => ?_, fun _ => ?_⟩
    · dsimp only
      omega
    · dsimp only
      omega

/-- The state of a loop of Recovery Mode after any number of rounds of the sequence, or after any
array of a batch. -/
def RecoveryLoop (d : Deployment) (price : Nat) (s : System) (l : LoopState) : Prop :=
  (∃ rounds, getTotalsFromLiquidateTrovesSequence_RecoveryMode d price
      s.stabilityPool.totalLUSDDeposits rounds s = .ok l) ∨
    ∃ troveArray, getTotalFromBatchLiquidate_RecoveryMode d price
      s.stabilityPool.totalLUSDDeposits troveArray s = .ok l

theorem RecoveryLoop.runningTotals (hd : d.Wired) (hs : Sound d s .none)
    (hmode : s.checkRecoveryMode price = .ok true) (h : RecoveryLoop d price s l) :
    Tally d PlainOnly s s.stabilityPool.totalLUSDDeposits l ∧ RunningTotals s l := by
  -- both loops are runs of the same steps
  obtain ⟨l₀, hstart, hsteps⟩ : ∃ l₀, startRecoveryMode s.stabilityPool.totalLUSDDeposits s = .ok l₀ ∧
      Relation.ReflTransGen (LoopStep d price true) l₀ l := by
    rcases h with ⟨rounds, h⟩ | ⟨troveArray, h⟩
    · obtain ⟨l₀, hl₀, h⟩ := bind_ok.mp h
      exact ⟨l₀, hl₀, sequenceRecoveryModeLoop_steps h⟩
    · obtain ⟨l₀, hl₀, h⟩ := bind_ok.mp h
      exact ⟨l₀, hl₀, batchRecoveryModeLoop_steps h⟩
  have hloopStart : LoopStart price s true l₀ := ⟨hmode, hstart⟩
  clear h
  induction hsteps with
  | refl => exact ⟨hloopStart.tally hs, startRecoveryMode_runningTotals hstart⟩
  | tail _ hstep ih =>
    obtain ⟨htally, hrunning⟩ := ih
    exact ⟨htally.loopStep hd hs PlainOnly.plain hstep, hrunning.loopStep hd hs htally hstep⟩

/-- At every iteration of a loop that is still in Recovery Mode, completing the liquidations made so
far leaves the local totals on chain, and the next trove's share can be subtracted from them.  The
last iteration gives the totals after the call. -/
theorem recovery_totals_on_chain (hd : d.Wired) (hr : Reachable d s) {timestamp : Nat}
    (hmode : s.checkRecoveryMode price = .ok true)
    (hloop : RecoveryLoop d price { s with timestamp } l)
    (hrecovering : l.vars.backToNormalMode = false) :
    (∀ env s', d.External env.sender → settleLiquidation d env l.totals l.system = .ok s' →
      s'.getEntireSystemColl = .ok l.vars.entireSystemColl ∧
        s'.getEntireSystemDebt = .ok l.vars.entireSystemDebt) ∧
      (l.vars.entireSystemColl + (l.totals.totalCollToSendToSP + l.totals.totalCollSurplus +
          l.totals.totalCollGasCompensation) =
        l.system.activePool.ETH + l.system.defaultPool.ETH) ∧
      (l.vars.entireSystemDebt + l.totals.totalDebtToOffset =
        l.system.activePool.LUSDDebt + l.system.defaultPool.LUSDDebt) ∧
      ∀ user ICR TCR single, l.system.troveManager.getCurrentICR user price = .ok ICR →
        computeCR l.vars.entireSystemColl l.vars.entireSystemDebt price = .ok TCR →
        liquidateRecoveryMode d user ICR l.vars.remainingLUSDInStabPool TCR price l.system =
          .ok single →
        ∃ entireSystemDebt afterSP afterGas entireSystemColl,
          sub l.vars.entireSystemDebt single.1.debtToOffset = .ok entireSystemDebt ∧
          sub l.vars.entireSystemColl single.1.collToSendToSP = .ok afterSP ∧
          sub afterSP single.1.collGasCompensation = .ok afterGas ∧
          sub afterGas single.1.collSurplus = .ok entireSystemColl := by
  have hs₀ : Sound d { s with timestamp } .none := { hr.sound hd with }
  obtain ⟨htally, hrunning⟩ := hloop.runningTotals hd hs₀ hmode
  have hcoll := hrunning.entireSystemColl hrecovering
  have hdebt := hrunning.entireSystemDebt hrecovering
  have hcollStart : l.system.activePool.ETH + l.system.defaultPool.ETH =
    s.activePool.ETH + s.defaultPool.ETH := hrunning.coll
  have hdebtStart : l.system.activePool.LUSDDebt + l.system.defaultPool.LUSDDebt =
    s.activePool.LUSDDebt + s.defaultPool.LUSDDebt := hrunning.debt
  -- the totals fit in a word, because those at the start do
  simp only [System.checkRecoveryMode, System.getTCR, System.getEntireSystemColl,
    System.getEntireSystemDebt, bind_ok, add_ok] at hmode
  obtain ⟨_, ⟨_, ⟨hcollFits, -⟩, _, ⟨hdebtFits, -⟩, -⟩, -⟩ := hmode
  refine ⟨fun env s' henv hsettle => ?_, hcoll, hdebt, fun user ICR TCR single hICR hTCR hsingle => ?_⟩
  · have hremaining : _ + _ = s.stabilityPool.totalLUSDDeposits := htally.remaining
    have hpool : l.system.stabilityPool = s.stabilityPool := htally.stabilityPool
    have hsettles := (settleLiquidation_settles hd henv (by rw [hpool]; omega) htally.splits.offset
      hsettle).1
    have hsettledColl := hsettles.coll
    have hsettledDebt := hsettles.debt
    -- the settlement takes out exactly what the totals are short of
    constructor
    · exact add_ok.mpr ⟨by omega, by omega⟩
    · exact add_ok.mpr ⟨by omega, by omega⟩
  · obtain ⟨hdebtLe, hcollLe, -⟩ :=
      hrunning.covers hd hs₀ htally hrecovering hICR hTCR hsingle
    refine ⟨_, _, _, _, sub_ok.mpr ⟨hdebtLe, rfl⟩, sub_ok.mpr ⟨?_, rfl⟩, sub_ok.mpr ⟨?_, rfl⟩,
      sub_ok.mpr ⟨?_, rfl⟩⟩ <;> omega

/-- The second trove falls below the minimum ratio and the pool takes a part of its debt, which is
not enough to leave Recovery Mode. -/
theorem sampleRecovery_totals : ∃ s l s', Reachable sampleDeployment s ∧
    RecoveryLoop sampleDeployment (1840 * 10 ^ 18) { s with timestamp := 0 } l ∧
    l.totals.totalDebtToOffset = 1000 * 10 ^ 18 ∧
    settleLiquidation sampleDeployment ⟨103, 0, 0, 1840 * 10 ^ 18⟩ l.totals l.system = .ok s' ∧
    s'.getEntireSystemColl = .ok l.vars.entireSystemColl ∧
    s'.getEntireSystemDebt = .ok l.vars.entireSystemDebt := by
  obtain ⟨s, hs, hmode, hp⟩ := exists_reachable (fun _ _ => True)
    [⟨⟨101, 10 ^ 19, 0, 2000 * 10 ^ 18⟩, .openTrove (10 ^ 18) (10000 * 10 ^ 18) 0 0⟩,
      ⟨⟨102, 6 * 10 ^ 18, 0, 2000 * 10 ^ 18⟩, .openTrove (10 ^ 18) (10000 * 10 ^ 18) 0 0⟩,
      ⟨⟨101, 0, 0, 2000 * 10 ^ 18⟩, .provideToSP (1000 * 10 ^ 18) 0⟩]
    (fun s => (s.checkRecoveryMode (1840 * 10 ^ 18)).toOption.any (fun b => decide (b = true)) ∧
      (getTotalsFromLiquidateTrovesSequence_RecoveryMode sampleDeployment (1840 * 10 ^ 18)
        s.stabilityPool.totalLUSDDeposits 2 { s with timestamp := 0 }).toOption.any (fun l =>
          decide (l.vars.backToNormalMode = false ∧ l.totals.totalDebtToOffset = 1000 * 10 ^ 18 ∧
            (settleLiquidation sampleDeployment ⟨103, 0, 0, 1840 * 10 ^ 18⟩ l.totals
              l.system).toOption.any (fun _ => decide True) = true)))
    (by decide +kernel)
  obtain ⟨_, hmode, rfl⟩ := exists_ok hmode
  obtain ⟨l, hl, hrecovering, hoffset, hsettle⟩ := exists_ok hp
  obtain ⟨s', hs', -⟩ := exists_ok hsettle
  have hloop : RecoveryLoop sampleDeployment (1840 * 10 ^ 18) { s with timestamp := 0 } l :=
    .inl ⟨2, hl⟩
  have htotals := recovery_totals_on_chain sampleDeployment_wired hs hmode hloop hrecovering
  exact ⟨s, l, s', hs, hloop, hoffset, hs', htotals.1 _ _ (by decide) hs'⟩

end Liquity
