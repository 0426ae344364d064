import Liquity.Properties.Liquidations
import Liquity.Properties.PendingRewards
import Liquity.Subgraph.Mirror

/-!
# What the subgraph makes of a liquidation

The subgraph decides on its own how much of a liquidated trove is offset, from the ratio that it computes
and the deposits that it counts.  It decides as the contracts do, for every trove of a loop, so the log of
a liquidating call is a log of emissions.
-/

open Lib

namespace Liquity

open SafeMath LiquityMath TroveManager

namespace Subgraph

variable {d : Deployment} {s s' : System} {b : Address} {price LUSDInStabPool : Nat}

/-! ## One trove -/

theorem truncate_gasCompensation (coll : Nat) :
    truncate DECIMAL_SCALING_FACTOR (decimalize coll / DECIMAL_COLLATERAL_GAS_COMPENSATION_DIVISOR) =
      decimalize (LiquityBase.getCollGasCompensation coll : Nat) :=
  truncate_div (by decide) coll DECIMAL_COLLATERAL_GAS_COMPENSATION_DIVISOR

/-- The subgraph's ratio exceeds 100% exactly if the one of the contracts does. -/
theorem calculateCollateralRatio_eq {coll debt : Nat} (hdebt : 0 < debt) (price : Nat) :
    calculateCollateralRatio (decimalize coll) (decimalize debt) (decimalize price) =
      some (decimalize (coll * price / debt : Nat)) := by
  have hne : decimalize debt ≠ 0 := by
    rw [← decimalize_zero, Ne, decimalize_inj]
    omega
  rw [calculateCollateralRatio, if_neg hne]
  exact congrArg some (truncate_mul_div (by decide) coll price debt)

theorem one_lt_decimalize {n : Nat} : 1 < decimalize n ↔ pct100 < n := by
  have hone : (1 : ℚ) = decimalize pct100 := by
    simp [decimalize, ofUnits, DECIMAL_SCALING_FACTOR, pct100]
  rw [hone, decimalize_lt, Nat.cast_lt]

/-- The subgraph offsets what `_getOffsetAndRedistributionVals` offsets. -/
theorem tryToOffset_eq {debt coll : Nat} {vals : OffsetAndRedistribution} (hdebt : 0 < debt)
    (h : getOffsetAndRedistributionVals debt coll LUSDInStabPool = .ok vals) (p : Option ℚ) (C D : ℤ) :
    SystemState.tryToOffsetWithTokensFromStabilityPool (decimalize coll) (decimalize debt)
        ⟨p, decimalize C, decimalize D, decimalize LUSDInStabPool⟩ =
      ⟨p, decimalize (C - vals.collToSendToSP), decimalize (D - vals.debtToOffset),
        decimalize (LUSDInStabPool - vals.debtToOffset)⟩ := by
  have hzero : (0 : ℚ) < decimalize LUSDInStabPool ↔ 0 < LUSDInStabPool := by
    rw [← decimalize_zero, decimalize_lt]
    omega
  rw [SystemState.tryToOffsetWithTokensFromStabilityPool]
  simp only [decimalize_le, Nat.cast_le, hzero]
  unfold getOffsetAndRedistributionVals at h
  split at h
  next hpool =>
    simp only [bind_ok, pure_ok, mul_ok, div_ok, sub_ok, min_eq] at h
    obtain ⟨_, ⟨-, rfl⟩, _, ⟨-, rfl⟩, _, -, _, -, rfl⟩ := h
    by_cases hle : debt ≤ LUSDInStabPool
    · -- the division gives back the collateral
      rw [if_pos hle, Nat.min_eq_left hle, Nat.mul_div_cancel _ hdebt]
      simp only [decimalize_sub]
    · have htruncate : truncate DECIMAL_SCALING_FACTOR
          (decimalize coll * decimalize LUSDInStabPool / decimalize debt) =
            decimalize (coll * LUSDInStabPool / debt : Nat) := truncate_mul_div (by decide) _ _ _
      rw [if_neg hle, if_pos hpool, Nat.min_eq_right (Nat.le_of_not_le hle), htruncate]
      simp only [decimalize_sub, sub_self, decimalize_zero]
  next hpool =>
    cases h
    rw [if_neg (by omega), if_neg hpool]
    simp

/-- The totals without the gas compensation, and what can be offset besides. -/
theorem update_liquidationChange {operation : TroveOperation} {coll debt : Nat}
    (hop : operation.isLiquidation = true) (hdebt : 0 < debt)
    (hgas : LiquityBase.getCollGasCompensation coll ≤ coll) (p : Option ℚ) (C D R : ℤ) :
    let s : SystemState :=
      ⟨p, decimalize (C - LiquityBase.getCollGasCompensation coll), decimalize D, decimalize R⟩
    SystemState.updateByTroveChange (liquidationChange operation coll debt (decimalize price))
        ⟨p, decimalize C, decimalize D, decimalize R⟩ =
      some (if operation.isRecoveryModeLiquidation = true ∧ coll * price / debt ≤ pct100 then s
        else s.tryToOffsetWithTokensFromStabilityPool
          (decimalize (coll - LiquityBase.getCollGasCompensation coll : Nat)) (decimalize debt)) := by
  set change := liquidationChange operation coll debt (decimalize price) with hchange
  have hliquidation : change.troveOperation.isLiquidation = true := hop
  have hother : ¬ (change.troveOperation.isBorrowerOperation ||
      change.troveOperation.isRedemption) = true := by
    revert hliquidation
    cases change.troveOperation <;> decide
  have hoffset : SystemState.offsets change =
      some (decide (¬ (operation.isRecoveryModeLiquidation = true ∧ coll * price / debt ≤ pct100))) := by
    unfold SystemState.offsets
    simp only [hchange, liquidationChange, calculateCollateralRatio_eq hdebt, Option.bind_eq_bind,
      Option.bind_some, one_lt_decimalize]
    split
    next hrecovery => simp [hrecovery]
    next hnormal => simp [hnormal]
  rw [SystemState.updateByTroveChange, if_neg hother, if_pos hliquidation, hoffset]
  simp only [hchange, liquidationChange, Option.bind_eq_bind, Option.bind_some, truncate_gasCompensation,
    ← decimalize_sub, Nat.cast_sub hgas, decide_eq_true_eq]
  by_cases hlow : operation.isRecoveryModeLiquidation = true ∧ coll * price / debt ≤ pct100
  · rw [if_neg (not_not.mpr hlow), if_pos hlow]
    rfl
  · rw [if_pos hlow, if_neg hlow]
    rfl

section Decisions

variable {operation : TroveOperation} {entire : EntireDebtAndColl} {vals : OffsetAndRedistribution}
  (hdebt : 0 < entire.debt) (hgas : LiquityBase.getCollGasCompensation entire.coll ≤ entire.coll)

include hdebt hgas

/-- The collateral after gas compensation is split as the subgraph splits it. -/
theorem decides_split (hop : operation.isLiquidation = true)
    (hratio : operation.isRecoveryModeLiquidation = true →
      pct100 < entire.coll * price / entire.debt)
    (h : getOffsetAndRedistributionVals entire.debt
      (entire.coll - LiquityBase.getCollGasCompensation entire.coll) LUSDInStabPool = .ok vals) :
    Decides operation price LUSDInStabPool (fullLiquidationValues entire vals) := by
  intro C D
  refine (update_liquidationChange hop hdebt hgas _ C D _).trans ?_
  rw [if_neg (fun hlow => absurd (hratio hlow.1) (by omega)), tryToOffset_eq hdebt h]
  have hcoll : C - LiquityBase.getCollGasCompensation entire.coll - vals.collToSendToSP =
      C - (vals.collToSendToSP + 0 + LiquityBase.getCollGasCompensation entire.coll : Nat) := by
    omega
  rw [hcoll]
  rfl

/-- At most 100%: nothing is offset. -/
theorem decides_low (hratio : entire.coll * price / entire.debt ≤ pct100)
    (hnone : vals.debtToOffset = 0 ∧ vals.collToSendToSP = 0) :
    Decides .liquidateInRecoveryMode price LUSDInStabPool (fullLiquidationValues entire vals) := by
  intro C D
  refine (update_liquidationChange rfl hdebt hgas _ C D _).trans ?_
  rw [if_pos ⟨rfl, hratio⟩]
  simp [fullLiquidationValues, hnone]

/-- Offset at the minimum ratio: all the collateral leaves, as a gain, as gas compensation or as the
owner's surplus. -/
theorem decides_capped {single : LiquidationValues} (hratio : pct100 < entire.coll * price / entire.debt)
    (hle : entire.debt ≤ LUSDInStabPool)
    (h : getCappedOffsetVals entire.debt entire.coll price = .ok single) :
    Decides .liquidateInRecoveryMode price LUSDInStabPool single := by
  obtain ⟨hsplits, howed, hcoll, -, hoffset⟩ := getCappedOffsetVals_ok hdebt h
  have hall := hsplits.coll
  have hnone := hsplits.redistribute (by have := hsplits.debt; omega)
  intro C D
  rw [howed, hcoll, hoffset]
  refine (update_liquidationChange rfl hdebt hgas _ C D _).trans ?_
  have hleaves : C - LiquityBase.getCollGasCompensation entire.coll -
      (entire.coll - LiquityBase.getCollGasCompensation entire.coll : Nat) =
        C - (single.collToSendToSP + single.collSurplus + single.collGasCompensation : Nat) := by
    omega
  rw [if_neg (by omega), SystemState.tryToOffsetWithTokensFromStabilityPool,
    if_pos (decimalize_le.mpr (by exact_mod_cast hle))]
  simp only [← decimalize_sub, hleaves]

end Decisions

/-! ## The two ways to liquidate a trove -/

variable {ι : InFlight}

theorem liquidateNormalMode_decides (hs : Sound d s ι)
    (hactive : (s.troveManager.troves b).status = .active) {r : LiquidationValues × System}
    (h : liquidateNormalMode d b LUSDInStabPool s = .ok r) :
    Decides .liquidateInNormalMode price LUSDInStabPool r.1 := by
  simp only [liquidateNormalMode, bind_ok, pure_ok, sub_ok] at h
  obtain ⟨entire, hentire, _, ⟨hgas, rfl⟩, vals, hvals, s₁, -, rfl⟩ := h
  exact decides_split (entireDebt_pos hs hactive hentire) hgas rfl
    (fun hrecovery => absurd hrecovery (by decide)) hvals

/-- The ratio that the loop checks is the one of the entire amounts. -/
theorem getCurrentICR_entire {t : TroveManager} {entire : EntireDebtAndColl} {ICR : Nat}
    (hactive : (t.troves b).status = .active) (hentire : t.getEntireDebtAndColl b = .ok entire)
    (hdebt : 0 < entire.debt) (hICR : t.getCurrentICR b price = .ok ICR) :
    ICR = entire.coll * price / entire.debt := by
  obtain rfl := getEntireDebtAndColl_ok hactive hentire
  simp only [getCurrentICR, getCurrentTroveAmounts, bind_ok, pure_ok, add_ok] at hICR
  obtain ⟨_, ⟨pe, hpe, pd, hpd, _, ⟨-, rfl⟩, _, ⟨-, rfl⟩, rfl⟩, hICR⟩ := hICR
  rw [(getPendingETHReward_ok hactive hpe).2, (getPendingLUSDDebtReward_ok hactive hpd).2] at hICR
  exact computeCR_ok hdebt hICR

theorem liquidateRecoveryMode_decides (hs : Sound d s ι) {ICR TCR : Nat}
    {r : LiquidationValues × System} (hICR : s.troveManager.getCurrentICR b price = .ok ICR)
    (hTCR : TCR ≤ maxRatio)
    (h : liquidateRecoveryMode d b ICR LUSDInStabPool TCR price s = .ok r) :
    r = (.zero, s) ∨ Decides .liquidateInRecoveryMode price LUSDInStabPool r.1 := by
  have hactive : ICR < maxRatio → (s.troveManager.troves b).status = .active :=
    active_of_getCurrentICR hs.registered hICR
  unfold liquidateRecoveryMode at h
  -- the branches of the source in their order
  split at h
  · cases h
    exact .inl rfl
  simp only [bind_ok, sub_ok] at h
  obtain ⟨entire, hentire, _, ⟨hgas, rfl⟩, h⟩ := h
  split at h
  next hlow =>
    have hact := hactive (hlow.trans_lt (by decide))
    have hpos := entireDebt_pos hs hact hentire
    simp only [bind_ok, pure_ok] at h
    obtain ⟨s₁, -, rfl⟩ := h
    rw [getCurrentICR_entire hact hentire hpos hICR] at hlow
    exact .inr (decides_low hpos hgas hlow ⟨rfl, rfl⟩)
  next hlow =>
    split at h
    next hmid =>
      have hact := hactive (hmid.2.trans (by decide))
      have hpos := entireDebt_pos hs hact hentire
      simp only [bind_ok, pure_ok] at h
      obtain ⟨vals, hvals, s₁, -, rfl⟩ := h
      rw [getCurrentICR_entire hact hentire hpos hICR] at hmid
      exact .inr (decides_split hpos hgas rfl (fun _ => hmid.1) hvals)
    next =>
      split at h
      next hhigh =>
        have hact := hactive (hhigh.2.1.trans_le hTCR)
        have hpos := entireDebt_pos hs hact hentire
        simp only [bind_ok, pure_ok] at h
        obtain ⟨-, -, v, hv, s₁, -, s₂, -, rfl⟩ := h
        rw [getCurrentICR_entire hact hentire hpos hICR] at hlow
        exact .inr (decides_capped hpos hgas (Nat.lt_of_not_le hlow) hhigh.2.2 hv)
      next =>
        cases h
        exact .inl rfl

/-! ## Views of the contracts -/

/-- The contracts between two transactions. -/
def view (exact : Prop) (price : Option Nat) (s : System) : View where
  troveManager := s.troveManager
  stale := {_x | ¬ exact}
  deposits x := (s.stabilityPool.deposits x).initialValue
  price := price
  coll := (s.activePool.ETH + s.defaultPool.ETH : Nat)
  debt := (s.activePool.LUSDDebt + s.defaultPool.LUSDDebt : Nat)
  tokens := s.stabilityPool.totalLUSDDeposits

/-- The contracts in the middle of a loop: what is tallied has left the totals. -/
def loopView (exact : Prop) (price : Nat) (l : LoopState) : View :=
  { view exact (some price) l.system with
    coll := (l.system.activePool.ETH + l.system.defaultPool.ETH : Nat) -
      (l.totals.totalCollToSendToSP + l.totals.totalCollSurplus +
        l.totals.totalCollGasCompensation : Nat)
    debt := (l.system.activePool.LUSDDebt + l.system.defaultPool.LUSDDebt : Nat) -
      l.totals.totalDebtToOffset
    tokens := l.vars.remainingLUSDInStabPool }

/-! ## The loops -/

section Loops

variable {exact : Prop} {l l' : LoopState} {allow : Ledger → Label → Prop} {user : Address} {ICR : Nat}

/-- Nothing is tallied before the first trove. -/
theorem loopView_start {recovery : Bool} (hs : Sound d s .none)
    (h : LoopStart price s recovery l) : loopView exact price l = view exact (some price) s := by
  obtain ⟨htotals, hsystem⟩ := h.fresh
  have htally : Tally d PlainOnly s s.stabilityPool.totalLUSDDeposits l := h.tally hs
  have hremaining := htally.remaining
  rw [htotals] at hremaining
  have hremaining : l.vars.remainingLUSDInStabPool = s.stabilityPool.totalLUSDDeposits := hremaining
  simp only [loopView, view, hsystem, htotals, hremaining, View.mk.injEq, true_and]
  exact ⟨Int.sub_zero _, Int.sub_zero _, trivial⟩

theorem snapshotsPast_of_evolves {ι' : InFlight} (hd : d.Wired) (hs : Sound d s ι)
    (hpast : (s.ledger ι).SnapshotsPast) (h : Evolves d allow s ι s' ι') :
    (s'.ledger ι').SnapshotsPast :=
  h.run.invariant hd Ledger.SnapshotsPast (fun _ _ _ _ hL _ hm => hm.snapshotsPast hL) hs.books hpast

/-- A trove that the contracts close is closed alike in the subgraph. -/
theorem Closes.emits {vals : LiquidationValues} {operation : TroveManagerOperation}
    (hs : Sound d l.system ι) (hpast : (l.system.ledger ι).SnapshotsPast)
    (hcloses : Closes b vals l.system l'.system)
    (hliquidation : (getTroveOperationFromTroveManagerOperation operation).isLiquidation = true)
    (hdecides : Decides (getTroveOperationFromTroveManagerOperation operation) price
      l.vars.remainingLUSDInStabPool vals)
    (hpool : l'.system.stabilityPool = l.system.stabilityPool)
    (htotals : addLiquidationValuesToTotals l.totals vals = .ok l'.totals)
    (hle : vals.debtToOffset ≤ l.vars.remainingLUSDInStabPool)
    (hremaining : l'.vars.remainingLUSDInStabPool =
      l.vars.remainingLUSDInStabPool - vals.debtToOffset) :
    Emits exact (loopView exact price l) (liquidatedLog operation b) (loopView exact price l') := by
  obtain ⟨entire, hentire, hdebt, hcoll⟩ := hcloses.entire
  obtain rfl := getEntireDebtAndColl_ok hcloses.active hentire
  have htotals' := addLiquidationValuesToTotals_ok htotals
  have hview : loopView exact price l' = { loopView exact price l with
      troveManager := l.system.troveManager.unregister b .closedByLiquidation
      coll := (loopView exact price l).coll -
        (vals.collToSendToSP + vals.collSurplus + vals.collGasCompensation : Nat)
      debt := (loopView exact price l).debt - vals.debtToOffset
      tokens := (loopView exact price l).tokens - vals.debtToOffset } := by
    have hETH := hcloses.coll
    have hLUSDDebt := hcloses.debt
    simp only [loopView, view, View.mk.injEq, hcloses.troveManager, hpool, htotals', true_and]
    omega
  rw [hview]
  exact .single (.liquidated rfl hliquidation hcloses.active (hs.books.coll_pos b hcloses.active)
    (Ledger.debt_pos_of_minDebt (hs.books.minDebt b hcloses.active)) (fun hexact hmem => hmem hexact)
    (hpast b).1 (hpast b).2 hcoll hdebt rfl hdecides)

variable {LUSDInStabPool : Nat} (hd : d.Wired) (hs : Sound d s .none)
  (hpast : (s.ledger .none).SnapshotsPast)

include hd hs hpast

theorem liquidateInNormalMode_emits (hl : Tally d PlainOnly s LUSDInStabPool l)
    (hICR : l.system.troveManager.getCurrentICR user price = .ok ICR) (hlt : ICR < MCR)
    (h : liquidateInNormalMode d user l = .ok l') :
    Emits exact (loopView exact price l) (liquidatedLog .liquidateInNormalMode user)
      (loopView exact price l') := by
  have hsl := hl.evolves.sound hd hs
  have hpastl := snapshotsPast_of_evolves hd hs hpast hl.evolves
  have hactive := active_of_getCurrentICR hsl.registered hICR (hlt.trans (by decide))
  simp only [liquidateInNormalMode, bind_ok, pure_ok, sub_ok] at h
  obtain ⟨r, hr, _, ⟨hle, rfl⟩, totals, htotals, rfl⟩ := h
  have hliquidated := liquidateNormalMode_liquidated hd hsl PlainOnly.plain hactive hr
  obtain ⟨hcloses, -⟩ := liquidateNormalMode_closes hd hactive hr
  exact Closes.emits hsl hpastl hcloses rfl (liquidateNormalMode_decides hsl hactive hr)
    hliquidated.stabilityPool htotals hle rfl

theorem liquidateInRecoveryMode_emits (hl : Tally d PlainOnly s LUSDInStabPool l)
    (hICR : l.system.troveManager.getCurrentICR user price = .ok ICR)
    (h : liquidateInRecoveryMode d price user ICR l = .ok l') :
    Emits exact (loopView exact price l)
      (liquidateInRecoveryModeLog user l.system.troveManager l'.system.troveManager)
      (loopView exact price l') := by
  have hsl := hl.evolves.sound hd hs
  have hpastl := snapshotsPast_of_evolves hd hs hpast hl.evolves
  simp only [liquidateInRecoveryMode, bind_ok, pure_ok, sub_ok] at h
  obtain ⟨TCR, hTCR, r, hr, _, ⟨hle, rfl⟩, _, ⟨-, rfl⟩, _, ⟨-, rfl⟩, _, ⟨-, rfl⟩, _, ⟨-, rfl⟩, totals,
    htotals, _, -, rfl⟩ := h
  have hliquidated := liquidateRecoveryMode_liquidated hd hsl PlainOnly.plain hICR (computeCR_le hTCR) hr
  unfold liquidateInRecoveryModeLog
  by_cases hzero : r = (.zero, l.system)
  · -- the trove is passed over
    subst hzero
    have htotals' := addLiquidationValuesToTotals_ok htotals
    rw [if_pos rfl]
    convert Emits.nil _ using 1
    simp only [loopView, view, htotals']
    rfl
  · have hdecides := (liquidateRecoveryMode_decides hsl hICR (computeCR_le hTCR) hr).resolve_left hzero
    obtain ⟨hcloses, -⟩ :=
      (liquidateRecoveryMode_closes hd hsl.registered hICR (computeCR_le hTCR) hr).resolve_left hzero
    have hclosed : (r.2.troveManager.troves user).status ≠ (l.system.troveManager.troves user).status := by
      rw [hcloses.active, hcloses.troveManager, unregister_troves_self]
      show Status.closedByLiquidation ≠ .active
      decide
    rw [if_neg hclosed]
    exact Closes.emits hsl hpastl hcloses rfl hdecides hliquidated.stabilityPool htotals hle rfl

/-! ## The loops -/

theorem sequenceRecoveryModeLoop_emits {firstUser : Address} {rounds : Nat}
    (hl : Tally d PlainOnly s LUSDInStabPool l)
    (h : sequenceRecoveryModeLoop d price firstUser rounds user l = .ok l') :
    Emits exact (loopView exact price l) (sequenceRecoveryModeLog d price firstUser rounds user l)
      (loopView exact price l') := by
  induction rounds generalizing user l with
  | zero =>
    cases h
    exact .nil _
  | succ rounds ih =>
    unfold sequenceRecoveryModeLoop at h
    unfold sequenceRecoveryModeLog
    split at h
    next huser =>
      obtain ⟨ICR, hICR, h⟩ := bind_ok.mp h
      rw [if_pos huser, eventsAfter_ok _ hICR]
      split at h
      next hmode =>
        rw [if_pos hmode]
        split at h
        next hbreak =>
          cases h
          rw [if_pos hbreak]
          exact .nil _
        next hgo =>
          obtain ⟨l₁, hl₁, h⟩ := bind_ok.mp h
          rw [if_neg hgo, eventsAfter_ok _ hl₁]
          exact (liquidateInRecoveryMode_emits hd hs hpast hl hICR hl₁).append
            (ih (liquidateInRecoveryMode_tally hd hs PlainOnly.plain hl hICR hl₁) h)
      next hmode =>
        rw [if_neg hmode]
        split at h
        next hlt =>
          obtain ⟨l₁, hl₁, h⟩ := bind_ok.mp h
          rw [if_pos hlt, eventsAfter_ok _ hl₁]
          exact (liquidateInNormalMode_emits hd hs hpast hl hICR hlt hl₁).append
            (ih (liquidateInNormalMode_tally hd hs PlainOnly.plain hl hICR hlt hl₁) h)
        next hbreak =>
          cases h
          rw [if_neg hbreak]
          exact .nil _
    next huser =>
      cases h
      rw [if_neg huser]
      exact .nil _

theorem sequenceNormalModeLoop_emits {rounds : Nat} (hl : Tally d PlainOnly s LUSDInStabPool l)
    (h : sequenceNormalModeLoop d price rounds l = .ok l') :
    Emits exact (loopView exact price l) (sequenceNormalModeLog d price rounds l)
      (loopView exact price l') := by
  induction rounds generalizing l with
  | zero =>
    cases h
    exact .nil _
  | succ rounds ih =>
    obtain ⟨ICR, hICR, h⟩ := bind_ok.mp h
    unfold sequenceNormalModeLog
    rw [eventsAfter_ok _ hICR]
    split at h
    next hlt =>
      obtain ⟨l₁, hl₁, h⟩ := bind_ok.mp h
      rw [if_pos hlt, eventsAfter_ok _ hl₁]
      exact (liquidateInNormalMode_emits hd hs hpast hl hICR hlt hl₁).append
        (ih (liquidateInNormalMode_tally hd hs PlainOnly.plain hl hICR hlt hl₁) h)
    next hbreak =>
      cases h
      rw [if_neg hbreak]
      exact .nil _

theorem batchRecoveryModeLoop_emits {troveArray : List Address} (hl : Tally d PlainOnly s LUSDInStabPool l)
    (h : batchRecoveryModeLoop d price troveArray l = .ok l') :
    Emits exact (loopView exact price l) (batchRecoveryModeLog d price troveArray l)
      (loopView exact price l') := by
  induction troveArray generalizing l with
  | nil =>
    cases h
    exact .nil _
  | cons user rest ih =>
    unfold batchRecoveryModeLoop at h
    unfold batchRecoveryModeLog
    split at h
    next hclosed =>
      rw [if_pos hclosed]
      exact ih hl h
    next hopen =>
      obtain ⟨ICR, hICR, h⟩ := bind_ok.mp h
      rw [if_neg hopen, eventsAfter_ok _ hICR]
      split at h
      next hmode =>
        rw [if_pos hmode]
        split at h
        next hskip =>
          rw [if_pos hskip]
          exact ih hl h
        next hgo =>
          obtain ⟨l₁, hl₁, h⟩ := bind_ok.mp h
          rw [if_neg hgo, eventsAfter_ok _ hl₁]
          exact (liquidateInRecoveryMode_emits hd hs hpast hl hICR hl₁).append
            (ih (liquidateInRecoveryMode_tally hd hs PlainOnly.plain hl hICR hl₁) h)
      next hmode =>
        rw [if_neg hmode]
        split at h
        next hlt =>
          obtain ⟨l₁, hl₁, h⟩ := bind_ok.mp h
          rw [if_pos hlt, eventsAfter_ok _ hl₁]
          exact (liquidateInNormalMode_emits hd hs hpast hl hICR hlt hl₁).append
            (ih (liquidateInNormalMode_tally hd hs PlainOnly.plain hl hICR hlt hl₁) h)
        next hskip =>
          rw [if_neg hskip]
          exact ih hl h

theorem batchNormalModeLoop_emits {troveArray : List Address} (hl : Tally d PlainOnly s LUSDInStabPool l)
    (h : batchNormalModeLoop d price troveArray l = .ok l') :
    Emits exact (loopView exact price l) (batchNormalModeLog d price troveArray l)
      (loopView exact price l') := by
  induction troveArray generalizing l with
  | nil =>
    cases h
    exact .nil _
  | cons user rest ih =>
    obtain ⟨ICR, hICR, h⟩ := bind_ok.mp h
    unfold batchNormalModeLog
    rw [eventsAfter_ok _ hICR]
    split at h
    next hlt =>
      obtain ⟨l₁, hl₁, h⟩ := bind_ok.mp h
      rw [if_pos hlt, eventsAfter_ok _ hl₁]
      exact (liquidateInNormalMode_emits hd hs hpast hl hICR hlt hl₁).append
        (ih (liquidateInNormalMode_tally hd hs PlainOnly.plain hl hICR hlt hl₁) h)
    next hskip =>
      rw [if_neg hskip]
      exact ih hl h

/-! ## The calls -/

theorem batchLiquidateTrovesTotals_emits {troveArray : List Address}
    (h : batchLiquidateTrovesTotals d price troveArray s = .ok l) :
    Emits exact (view exact (some price) s) (batchLiquidateTrovesTotalsLog d price troveArray s)
      (loopView exact price l) := by
  obtain ⟨recovery, hmode, h⟩ := bind_ok.mp h
  unfold batchLiquidateTrovesTotalsLog
  rw [eventsAfter_ok _ hmode]
  cases recovery with
  | true =>
    obtain ⟨l₀, hl₀, h⟩ := bind_ok.mp h
    have hstart : LoopStart price s true l₀ := ⟨hmode, hl₀⟩
    rw [← loopView_start hs hstart, if_pos rfl, eventsAfter_ok _ hl₀]
    exact batchRecoveryModeLoop_emits hd hs hpast (hstart.tally hs) h
  | false =>
    have hstart : LoopStart price s false (startNormalMode s.stabilityPool.totalLUSDDeposits s) :=
      ⟨hmode, rfl⟩
    rw [← loopView_start hs hstart, if_neg nofun]
    exact batchNormalModeLoop_emits hd hs hpast (hstart.tally hs) h

theorem liquidateTrovesTotals_emits {n : Nat} (h : liquidateTrovesTotals d price n s = .ok l) :
    Emits exact (view exact (some price) s) (liquidateTrovesTotalsLog d price n s)
      (loopView exact price l) := by
  obtain ⟨recovery, hmode, h⟩ := bind_ok.mp h
  unfold liquidateTrovesTotalsLog
  rw [eventsAfter_ok _ hmode]
  cases recovery with
  | true =>
    obtain ⟨l₀, hl₀, h⟩ := bind_ok.mp h
    have hstart : LoopStart price s true l₀ := ⟨hmode, hl₀⟩
    rw [← loopView_start hs hstart, if_pos rfl, eventsAfter_ok _ hl₀]
    exact sequenceRecoveryModeLoop_emits hd hs hpast (hstart.tally hs) h
  | false =>
    have hstart : LoopStart price s false (startNormalMode s.stabilityPool.totalLUSDDeposits s) :=
      ⟨hmode, rfl⟩
    rw [← loopView_start hs hstart, if_neg nofun]
    exact sequenceNormalModeLoop_emits hd hs hpast (hstart.tally hs) h

end Loops

/-- What an offset does to the deposits. -/
theorem StabilityPool.Offsets.total {debt coll : Nat} {p q : StabilityPool}
    (h : StabilityPool.Offsets debt coll p q) :
    q.deposits = p.deposits ∧ q.totalLUSDDeposits = p.totalLUSDDeposits - debt := by
  rcases h with ⟨rfl, rfl⟩ | ⟨-, issuance, p₁, hissued, habsorbs⟩
  · exact ⟨rfl, rfl⟩
  · obtain ⟨error, G, rfl⟩ := (StabilityPool.updateG_ok hissued).1
    obtain ⟨-, _, _, _, _, -, -, -, -, -, rfl⟩ := habsorbs.inversion
    exact ⟨rfl, rfl⟩

/-- The settlement moves what is tallied, and the accumulators if something is redistributed. -/
theorem settleLiquidation_emits {exact : Prop} {l : LoopState} {env : Env} (hd : d.Wired)
    (hsender : d.External env.sender)
    (hl : Tally d PlainOnly s s.stabilityPool.totalLUSDDeposits l)
    (h : settleLiquidation d env l.totals l.system = .ok s') :
    Emits exact (loopView exact price l)
      (redistributeDebtAndCollLog l.totals.totalDebtToRedistribute s'.troveManager)
      (view exact (some price) s') := by
  have hremaining := hl.remaining
  rw [← hl.stabilityPool] at hremaining
  obtain ⟨hsettles, hoffsets⟩ := settleLiquidation_settles hd hsender (by omega) hl.splits.offset h
  have hredistributes := settleLiquidation_redistributes hd hsender h
  have hview : view exact (some price) s' =
      { loopView exact price l with troveManager := s'.troveManager } := by
    obtain ⟨hdeposits, htotal⟩ := StabilityPool.Offsets.total hoffsets
    have hcoll := hsettles.coll
    have hdebt := hsettles.debt
    simp only [loopView, view, View.mk.injEq, hdeposits, htotal, true_and]
    omega
  rw [hview]
  unfold redistributeDebtAndCollLog
  split
  next hnone =>
    obtain ⟨hE, hD⟩ := hredistributes.none hnone
    exact .single (.silent hsettles.troves hsettles.rewardSnapshots hE hD subset_rfl)
  next hsome =>
    obtain ⟨hE, hD⟩ := hredistributes.some hsome
    refine .single (.LTermsUpdated hsettles.troves hsettles.rewardSnapshots ?_ ?_)
    · rw [hE]
      exact Nat.le_add_right _ _
    · rw [hD]
      exact Nat.le_add_right _ _

end Subgraph

end Liquity
