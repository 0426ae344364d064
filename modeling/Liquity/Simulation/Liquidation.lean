import Liquity.Simulation.Troves
import Liquity.Simulation.Settlement

/-!
# Simulation: liquidations

Each liquidated trove puts its collateral and debt in flight, split exactly into the amounts that
the totals tally; settling the totals brings everything in flight to its destination.
-/

open Lib

namespace Liquity

open SafeMath LiquityMath TroveManager

variable {d : Deployment} {s s' : System} {ι : InFlight} {allow : Ledger → Label → Prop}
  {b : Address}

/-! ## Splitting a trove -/

/-- The split of a liquidated trove is exact. -/
structure LiquidationValues.Splits (v : LiquidationValues) : Prop where
  coll : v.entireTroveColl =
    v.collGasCompensation + v.collToSendToSP + v.collToRedistribute + v.collSurplus
  debt : v.entireTroveDebt = v.debtToOffset + v.debtToRedistribute
  offset : v.debtToOffset = 0 → v.collToSendToSP = 0
  redistribute : v.debtToRedistribute = 0 → v.collToRedistribute = 0
  gas : 0 < v.entireTroveDebt → 0 < v.LUSDGasCompensation

theorem LiquidationValues.splits_zero : LiquidationValues.zero.Splits :=
  ⟨rfl, rfl, fun _ => rfl, fun _ => rfl, id⟩

theorem getOffsetAndRedistributionVals_ok {debt coll LUSDInStabPool : Nat}
    {vals : OffsetAndRedistribution} (hdebt : 0 < debt)
    (h : getOffsetAndRedistributionVals debt coll LUSDInStabPool = .ok vals) :
    vals.collToSendToSP + vals.collToRedistribute = coll ∧
      vals.debtToOffset + vals.debtToRedistribute = debt ∧
      (vals.debtToOffset = 0 → vals.collToSendToSP = 0) ∧
      (vals.debtToRedistribute = 0 → vals.collToRedistribute = 0) ∧
      vals.debtToOffset ≤ LUSDInStabPool := by
  unfold getOffsetAndRedistributionVals at h
  split at h
  -- the division gives back the collateral only where all the debt is offset
  next hpool =>
    simp only [bind_ok, pure_ok, mul_ok, div_ok, sub_ok, min_eq] at h
    obtain ⟨_, ⟨-, rfl⟩, toSP, ⟨-, rfl⟩, _, ⟨hle, rfl⟩, _, ⟨hcoll, rfl⟩, rfl⟩ := h
    refine ⟨by simp only; omega, by simp only; omega, fun hzero => ?_, fun hzero => ?_,
      Nat.min_le_right _ _⟩
    · simp only at hzero ⊢
      simp [hzero]
    · -- everything is offset, so all the collateral goes to the Stability Pool
      have hmin : Min.min debt LUSDInStabPool = debt := by simp only at hzero; omega
      simp [hmin, Nat.mul_div_cancel _ hdebt]
  next hpool =>
    cases h
    refine ⟨Nat.zero_add _, Nat.zero_add _, fun _ => rfl, fun hzero => ?_, Nat.zero_le _⟩
    exact absurd hzero hdebt.ne'

/-- A trove liquidated with a split of its collateral after gas compensation. -/
theorem fullLiquidationValues_splits {entire : EntireDebtAndColl} {vals : OffsetAndRedistribution}
    (hcoll : vals.collToSendToSP + vals.collToRedistribute =
      entire.coll - LiquityBase.getCollGasCompensation entire.coll)
    (hgas : LiquityBase.getCollGasCompensation entire.coll ≤ entire.coll)
    (hdebt : vals.debtToOffset + vals.debtToRedistribute = entire.debt)
    (hoffset : vals.debtToOffset = 0 → vals.collToSendToSP = 0)
    (hredist : vals.debtToRedistribute = 0 → vals.collToRedistribute = 0) :
    (fullLiquidationValues entire vals).Splits where
  coll := by
    simp only [fullLiquidationValues]
    omega
  debt := hdebt.symm
  offset := hoffset
  redistribute := hredist
  gas := fun _ => LUSD_GAS_COMPENSATION_pos

theorem getCappedOffsetVals_ok {debt coll price : Nat} {v : LiquidationValues} (hdebt : 0 < debt)
    (h : getCappedOffsetVals debt coll price = .ok v) :
    v.Splits ∧ v.entireTroveDebt = debt ∧ v.entireTroveColl = coll ∧
      v.LUSDGasCompensation = LUSD_GAS_COMPENSATION ∧ v.debtToOffset = debt := by
  simp only [getCappedOffsetVals, bind_ok, pure_ok, mul_ok, div_ok, sub_ok] at h
  obtain ⟨_, ⟨-, rfl⟩, _, ⟨-, rfl⟩, _, ⟨hgas, rfl⟩, _, ⟨hcapped, rfl⟩, rfl⟩ := h
  refine ⟨⟨?_, rfl, fun hzero => absurd hzero hdebt.ne', fun _ => rfl,
    fun _ => LUSD_GAS_COMPENSATION_pos⟩, rfl, rfl, rfl, rfl⟩
  simp only
  omega

/-! ## One trove -/

/-- What one liquidation step does; a step that does nothing has all values zero. -/
structure Liquidated (d : Deployment) (allow : Ledger → Label → Prop) (s : System) (ι : InFlight)
    (LUSDInStabPool : Nat) (v : LiquidationValues) (s' : System) : Prop where
  evolves : Evolves d allow s ι s'
    ⟨ι.coll + v.entireTroveColl, ι.debt + v.entireTroveDebt, ι.gas + v.LUSDGasCompensation⟩
  splits : v.Splits
  offset_le : v.debtToOffset ≤ LUSDInStabPool
  stabilityPool : s'.stabilityPool = s.stabilityPool

theorem Liquidated.nothing (hs : Sound d s ι) (LUSDInStabPool : Nat) :
    Liquidated d allow s ι LUSDInStabPool .zero s where
  evolves := .refl hs
  splits := LiquidationValues.splits_zero
  offset_le := Nat.zero_le _
  stabilityPool := rfl

theorem entireDebt_pos (hs : Sound d s ι) (hactive : (s.troveManager.troves b).status = .active)
    {entire : EntireDebtAndColl} (hentire : s.troveManager.getEntireDebtAndColl b = .ok entire) :
    0 < entire.debt := by
  rw [getEntireDebtAndColl_ok hactive hentire]
  have hmin := hs.books.minDebt b hactive
  exact Nat.add_pos_left (Ledger.debt_pos_of_minDebt hmin) _

/-- Closing a liquidated trove: its pending rewards move to the Active Pool and it leaves the books
and the list. -/
theorem closeLiquidatedTrove_ok (hd : d.Wired) {entire : EntireDebtAndColl}
    (h : closeLiquidatedTrove d b entire s = .ok s') :
    entire.pendingLUSDDebtReward ≤ s.defaultPool.LUSDDebt ∧
      entire.pendingETHReward ≤ s.defaultPool.ETH ∧ 1 < s.troveManager.troveOwners.length ∧
      EtherKept d s s' ∧
      ∃ l ether, SortedTroves.remove d d.troveManager b s.sortedTroves = .ok l ∧
        s' = { s with
          defaultPool := ⟨s.defaultPool.ETH - entire.pendingETHReward,
            s.defaultPool.LUSDDebt - entire.pendingLUSDDebtReward⟩
          activePool := ⟨s.activePool.ETH + entire.pendingETHReward,
            s.activePool.LUSDDebt + entire.pendingLUSDDebtReward⟩
          troveManager := s.troveManager.unregister b .closedByLiquidation
          sortedTroves := l, ether } := by
  simp only [closeLiquidatedTrove, bind_ok, System.onTroveManager_ok] at h
  obtain ⟨s₁, hmove, s₂, ⟨t, hstake, rfl⟩, hclose⟩ := h
  -- first the pools, then the stake, then the trove itself
  obtain ⟨hLUSD, hETH, hkept, ether, rfl⟩ := movePendingTroveRewardsToActivePool_ok hd hmove
  obtain ⟨-, hmore, l, hl, rfl⟩ := removeStake_closeTrove_ok hstake hclose
  exact ⟨hLUSD, hETH, hmore, ⟨hkept.sum_eq, hkept.activePool_eq⟩, l, ether, hl, rfl⟩

section Single

variable (hd : d.Wired) (hs : Sound d s ι) (hplain : ∀ L, allow L .plain)
  (hactive : (s.troveManager.troves b).status = .active) {entire : EntireDebtAndColl}
  (hentire : s.troveManager.getEntireDebtAndColl b = .ok entire)

include hd hs hplain hactive hentire

theorem closeLiquidatedTrove_evolves (h : closeLiquidatedTrove d b entire s = .ok s') :
    Evolves d allow s ι s'
      ⟨ι.coll + entire.coll, ι.debt + entire.debt, ι.gas + LUSD_GAS_COMPENSATION⟩ ∧
      s'.stabilityPool = s.stabilityPool := by
  obtain rfl := getEntireDebtAndColl_ok hactive hentire
  obtain ⟨hLUSD, hETH, hmore, hkept, l, ether, hl, rfl⟩ := closeLiquidatedTrove_ok hd h
  obtain ⟨hlist, horder⟩ := SortedTroves.remove_toList hs.list hl
  refine ⟨Evolves.move (?_ : Ledger.Move d _ .plain _) (hplain _) hlist
    ⟨hkept.sum_eq, hkept.activePool_eq⟩, rfl⟩
  convert Ledger.Move.liquidate (L := s.ledger ι) hactive (hs.registered.length_owners ▸ hmore) hETH
    hLUSD using 1
  simp only [System.ledger, horder]
  rfl

/-- A trove closed with a full split of its collateral. -/
theorem liquidated_full {vals : OffsetAndRedistribution} {LUSDInStabPool : Nat}
    (hgas : LiquityBase.getCollGasCompensation entire.coll ≤ entire.coll)
    (hcoll : vals.collToSendToSP + vals.collToRedistribute =
      entire.coll - LiquityBase.getCollGasCompensation entire.coll)
    (hdebt : vals.debtToOffset + vals.debtToRedistribute = entire.debt)
    (hoffset : vals.debtToOffset = 0 → vals.collToSendToSP = 0)
    (hredist : vals.debtToRedistribute = 0 → vals.collToRedistribute = 0)
    (hle : vals.debtToOffset ≤ LUSDInStabPool) (h : closeLiquidatedTrove d b entire s = .ok s') :
    Liquidated d allow s ι LUSDInStabPool (fullLiquidationValues entire vals) s' := by
  obtain ⟨hevolves, hpool⟩ := closeLiquidatedTrove_evolves hd hs hplain hactive hentire h
  exact ⟨hevolves, fullLiquidationValues_splits hcoll hgas hdebt hoffset hredist, hle, hpool⟩

end Single

theorem liquidateNormalMode_liquidated (hd : d.Wired) (hs : Sound d s ι)
    (hplain : ∀ L, allow L .plain) (hactive : (s.troveManager.troves b).status = .active)
    {LUSDInStabPool : Nat} {r : LiquidationValues × System}
    (h : liquidateNormalMode d b LUSDInStabPool s = .ok r) :
    Liquidated d allow s ι LUSDInStabPool r.1 r.2 := by
  simp only [liquidateNormalMode, bind_ok, pure_ok, sub_ok] at h
  obtain ⟨entire, hentire, _, ⟨hgas, rfl⟩, vals, hvals, s₁, hclose, rfl⟩ := h
  have hpos := entireDebt_pos hs hactive hentire
  obtain ⟨hcoll, hdebt, hoffset, hredist, hle⟩ := getOffsetAndRedistributionVals_ok hpos hvals
  exact liquidated_full hd hs hplain hactive hentire hgas hcoll hdebt hoffset hredist hle hclose

theorem accountSurplus_evolves (hs : Sound d s ι) {surplus : Nat}
    (h : accountSurplus d b surplus s = .ok s') :
    Evolves d allow s ι s' ι ∧ s'.stabilityPool = s.stabilityPool := by
  unfold accountSurplus at h
  split at h
  · obtain ⟨p, -, rfl⟩ := System.onCollSurplusPool_ok.mp h
    exact ⟨.silent hs rfl rfl (.of_eq rfl rfl), rfl⟩
  · cases h
    exact ⟨.refl hs, rfl⟩

/-- A checked ratio fits in a word, so it does not exceed the ratio of a trove without debt. -/
theorem computeCR_le {coll debt price r : Nat} (h : computeCR coll debt price = .ok r) :
    r ≤ maxRatio := by
  unfold computeCR at h
  split at h
  · simp only [bind_ok, mul_ok, div_ok] at h
    obtain ⟨_, ⟨hlt, rfl⟩, -, rfl⟩ := h
    exact (Nat.div_le_self _ _).trans (Nat.le_pred_of_lt hlt)
  · cases h
    exact Nat.le_refl _

theorem liquidateRecoveryMode_liquidated (hd : d.Wired) (hs : Sound d s ι)
    (hplain : ∀ L, allow L .plain) {ICR LUSDInStabPool TCR price : Nat}
    {r : LiquidationValues × System} (hICR : s.troveManager.getCurrentICR b price = .ok ICR)
    (hTCR : TCR ≤ maxRatio)
    (h : liquidateRecoveryMode d b ICR LUSDInStabPool TCR price s = .ok r) :
    Liquidated d allow s ι LUSDInStabPool r.1 r.2 := by
  -- a trove that is not open has no debt, and so the largest ratio
  have hactive : ICR < maxRatio → (s.troveManager.troves b).status = .active :=
    active_of_getCurrentICR hs.registered hICR
  unfold liquidateRecoveryMode at h
  split at h
  · cases h
    exact .nothing hs _
  simp only [bind_ok, sub_ok] at h
  obtain ⟨entire, hentire, _, ⟨hgas, rfl⟩, h⟩ := h
  split at h
  next hlow =>
    -- at most 100%: everything is redistributed
    have hact := hactive (hlow.trans_lt (by decide))
    have hpos := entireDebt_pos hs hact hentire
    simp only [bind_ok, pure_ok] at h
    obtain ⟨s₁, hclose, rfl⟩ := h
    exact liquidated_full hd hs hplain hact hentire hgas (Nat.zero_add _) (Nat.zero_add _)
      (fun _ => rfl) (fun hzero => absurd hzero hpos.ne') (Nat.zero_le _) hclose
  next hlow =>
    split at h
    next hmid =>
      have hact := hactive (hmid.2.trans (by decide))
      have hpos := entireDebt_pos hs hact hentire
      simp only [bind_ok, pure_ok] at h
      obtain ⟨vals, hvals, s₁, hclose, rfl⟩ := h
      obtain ⟨hcoll, hdebt, hoffset, hredist, hle⟩ := getOffsetAndRedistributionVals_ok hpos hvals
      exact liquidated_full hd hs hplain hact hentire hgas hcoll hdebt hoffset hredist hle hclose
    next =>
      split at h
      next hhigh =>
        -- below the TCR: offset at the minimum ratio, the rest is the borrower's
        have hact := hactive (hhigh.2.1.trans_le hTCR)
        have hpos := entireDebt_pos hs hact hentire
        simp only [bind_ok, pure_ok] at h
        obtain ⟨-, -, v, hv, s₁, hclose, s₂, hsurplus, rfl⟩ := h
        obtain ⟨hsplits, hdebt, hcoll, hGAS, hoffset⟩ := getCappedOffsetVals_ok hpos hv
        obtain ⟨hevolves, hpool⟩ := closeLiquidatedTrove_evolves hd hs hplain hact hentire hclose
        obtain ⟨hevolves', hpool'⟩ := accountSurplus_evolves (hevolves.sound hd hs) hsurplus
        refine ⟨?_, hsplits, by rw [hoffset]; exact hhigh.2.2, hpool'.trans hpool⟩
        rw [hdebt, hcoll, hGAS]
        exact hevolves.trans hevolves'
      next =>
        cases h
        exact .nothing hs _

/-! ## The loops -/

/-- One trove is liquidated in the course of a loop.  `recovery` says whether it is a loop of
Recovery Mode. -/
inductive LoopStep (d : Deployment) (price : Nat) (recovery : Bool) (l l' : LoopState) : Prop
  | normal {user : Address} {ICR : Nat}
      (mode : recovery = true → l.vars.backToNormalMode = true)
      (ICR_ok : l.system.troveManager.getCurrentICR user price = .ok ICR) (lt : ICR < MCR)
      (body : liquidateInNormalMode d user l = .ok l')
  | recovery {user : Address} {ICR : Nat} (mode : recovery = true)
      (recovering : l.vars.backToNormalMode = false)
      (ICR_ok : l.system.troveManager.getCurrentICR user price = .ok ICR)
      (offsettable : ¬ (MCR ≤ ICR ∧ l.vars.remainingLUSDInStabPool = 0))
      (body : liquidateInRecoveryMode d price user ICR l = .ok l')

section Steps

variable {l l' : LoopState} {price : Nat}

open Relation (ReflTransGen)

theorem sequenceRecoveryModeLoop_steps {firstUser user : Address} {rounds : Nat}
    (h : sequenceRecoveryModeLoop d price firstUser rounds user l = .ok l') :
    ReflTransGen (LoopStep d price true) l l' := by
  -- where the loop breaks it makes no step
  induction rounds generalizing user l with
  | zero =>
    cases h
    exact .refl
  | succ rounds ih =>
    unfold sequenceRecoveryModeLoop at h
    split at h
    · obtain ⟨ICR, hICR, h⟩ := bind_ok.mp h
      split at h
      next hmode =>
        split at h
        next =>
          cases h
          exact .refl
        next hoffset =>
          obtain ⟨l₁, hl₁, h⟩ := bind_ok.mp h
          exact .head (.recovery rfl hmode hICR hoffset hl₁) (ih h)
      next hmode =>
        split at h
        next hlt =>
          obtain ⟨l₁, hl₁, h⟩ := bind_ok.mp h
          exact .head (.normal (fun _ => Bool.eq_true_of_not_eq_false hmode) hICR hlt hl₁) (ih h)
        next =>
          cases h
          exact .refl
    · cases h
      exact .refl

theorem sequenceNormalModeLoop_steps {rounds : Nat}
    (h : sequenceNormalModeLoop d price rounds l = .ok l') :
    ReflTransGen (LoopStep d price false) l l' := by
  induction rounds generalizing l with
  | zero =>
    cases h
    exact .refl
  | succ rounds ih =>
    obtain ⟨ICR, hICR, h⟩ := bind_ok.mp h
    split at h
    next hlt =>
      obtain ⟨l₁, hl₁, h⟩ := bind_ok.mp h
      exact .head (.normal nofun hICR hlt hl₁) (ih h)
    next =>
      cases h
      exact .refl

theorem batchRecoveryModeLoop_steps {troveArray : List Address}
    (h : batchRecoveryModeLoop d price troveArray l = .ok l') :
    ReflTransGen (LoopStep d price true) l l' := by
  -- where the loop continues it makes no step
  induction troveArray generalizing l with
  | nil =>
    cases h
    exact .refl
  | cons user rest ih =>
    unfold batchRecoveryModeLoop at h
    split at h
    · exact ih h
    · obtain ⟨ICR, hICR, h⟩ := bind_ok.mp h
      split at h
      next hmode =>
        split at h
        next => exact ih h
        next hoffset =>
          obtain ⟨l₁, hl₁, h⟩ := bind_ok.mp h
          exact .head (.recovery rfl hmode hICR hoffset hl₁) (ih h)
      next hmode =>
        split at h
        next hlt =>
          obtain ⟨l₁, hl₁, h⟩ := bind_ok.mp h
          exact .head (.normal (fun _ => Bool.eq_true_of_not_eq_false hmode) hICR hlt hl₁) (ih h)
        next => exact ih h

theorem batchNormalModeLoop_steps {troveArray : List Address}
    (h : batchNormalModeLoop d price troveArray l = .ok l') :
    ReflTransGen (LoopStep d price false) l l' := by
  induction troveArray generalizing l with
  | nil =>
    cases h
    exact .refl
  | cons user rest ih =>
    obtain ⟨ICR, hICR, h⟩ := bind_ok.mp h
    split at h
    next hlt =>
      obtain ⟨l₁, hl₁, h⟩ := bind_ok.mp h
      exact .head (.normal nofun hICR hlt hl₁) (ih h)
    next => exact ih h

/-- The state before the first trove, in either mode. -/
def LoopStart (price : Nat) (s : System) (recovery : Bool) (l : LoopState) : Prop :=
  s.checkRecoveryMode price = .ok recovery ∧
    if recovery then startRecoveryMode s.stabilityPool.totalLUSDDeposits s = .ok l
    else l = startNormalMode s.stabilityPool.totalLUSDDeposits s

theorem LoopStart.fresh {price : Nat} {recovery : Bool} {l : LoopState}
    (h : LoopStart price s recovery l) : l.totals = .zero ∧ l.system = s := by
  obtain ⟨-, h⟩ := h
  split at h
  · simp only [startRecoveryMode, bind_ok, pure_ok] at h
    obtain ⟨_, -, _, -, rfl⟩ := h
    exact ⟨rfl, rfl⟩
  · subst h
    exact ⟨rfl, rfl⟩

theorem liquidateTrovesTotals_steps {n : Nat} (h : liquidateTrovesTotals d price n s = .ok l) :
    ∃ recovery l₀, LoopStart price s recovery l₀ ∧ ReflTransGen (LoopStep d price recovery) l₀ l := by
  obtain ⟨recovery, hmode, h⟩ := bind_ok.mp h
  cases recovery with
  | true =>
    obtain ⟨l₀, hl₀, h⟩ := bind_ok.mp h
    exact ⟨true, l₀, ⟨hmode, hl₀⟩, sequenceRecoveryModeLoop_steps h⟩
  | false => exact ⟨false, _, ⟨hmode, rfl⟩, sequenceNormalModeLoop_steps h⟩

theorem batchLiquidateTrovesTotals_steps {troveArray : List Address}
    (h : batchLiquidateTrovesTotals d price troveArray s = .ok l) :
    ∃ recovery l₀, LoopStart price s recovery l₀ ∧ ReflTransGen (LoopStep d price recovery) l₀ l := by
  obtain ⟨recovery, hmode, h⟩ := bind_ok.mp h
  cases recovery with
  | true =>
    obtain ⟨l₀, hl₀, h⟩ := bind_ok.mp h
    exact ⟨true, l₀, ⟨hmode, hl₀⟩, batchRecoveryModeLoop_steps h⟩
  | false => exact ⟨false, _, ⟨hmode, rfl⟩, batchNormalModeLoop_steps h⟩

end Steps

/-- What is in flight after a sequence of liquidations. -/
def LiquidationTotals.inFlight (t : LiquidationTotals) : InFlight :=
  ⟨t.totalCollInSequence, t.totalDebtInSequence, t.totalLUSDGasCompensation⟩

/-- The totals split like the values they add up. -/
structure LiquidationTotals.Splits (t : LiquidationTotals) : Prop where
  coll : t.totalCollInSequence = t.totalCollGasCompensation + t.totalCollToSendToSP +
    t.totalCollToRedistribute + t.totalCollSurplus
  debt : t.totalDebtInSequence = t.totalDebtToOffset + t.totalDebtToRedistribute
  offset : t.totalDebtToOffset = 0 → t.totalCollToSendToSP = 0
  redistribute : t.totalDebtToRedistribute = 0 → t.totalCollToRedistribute = 0
  gas : 0 < t.totalDebtInSequence → 0 < t.totalLUSDGasCompensation

/-- The invariant of the four loops, started in `s` with `LUSDInStabPool` deposits. -/
structure Tally (d : Deployment) (allow : Ledger → Label → Prop) (s : System)
    (LUSDInStabPool : Nat) (l : LoopState) : Prop where
  evolves : Evolves d allow s .none l.system l.totals.inFlight
  splits : l.totals.Splits
  remaining : l.vars.remainingLUSDInStabPool + l.totals.totalDebtToOffset = LUSDInStabPool
  stabilityPool : l.system.stabilityPool = s.stabilityPool

section Loops

variable {LUSDInStabPool : Nat} {l l' : LoopState} {price : Nat}

theorem addLiquidationValuesToTotals_ok {t t' : LiquidationTotals} {v : LiquidationValues}
    (h : addLiquidationValuesToTotals t v = .ok t') :
    t' = ⟨t.totalCollInSequence + v.entireTroveColl, t.totalDebtInSequence + v.entireTroveDebt,
      t.totalCollGasCompensation + v.collGasCompensation,
      t.totalLUSDGasCompensation + v.LUSDGasCompensation, t.totalDebtToOffset + v.debtToOffset,
      t.totalCollToSendToSP + v.collToSendToSP, t.totalDebtToRedistribute + v.debtToRedistribute,
      t.totalCollToRedistribute + v.collToRedistribute, t.totalCollSurplus + v.collSurplus⟩ := by
  simp only [addLiquidationValuesToTotals, bind_ok, pure_ok, add_ok] at h
  obtain ⟨_, ⟨-, rfl⟩, _, ⟨-, rfl⟩, _, ⟨-, rfl⟩, _, ⟨-, rfl⟩, _, ⟨-, rfl⟩, _, ⟨-, rfl⟩, _,
    ⟨-, rfl⟩, _, ⟨-, rfl⟩, _, ⟨-, rfl⟩, rfl⟩ := h
  rfl

theorem LiquidationTotals.Splits.add {t t' : LiquidationTotals} {v : LiquidationValues}
    (ht : t.Splits) (hv : v.Splits) (h : addLiquidationValuesToTotals t v = .ok t') : t'.Splits := by
  obtain rfl := addLiquidationValuesToTotals_ok h
  have htcoll := ht.coll
  have htdebt := ht.debt
  have hvcoll := hv.coll
  have hvdebt := hv.debt
  refine ⟨by simp only; omega, by simp only; omega, fun hzero => ?_, fun hzero => ?_, fun hpos => ?_⟩
  · simp only [Nat.add_eq_zero_iff] at hzero ⊢
    exact ⟨ht.offset hzero.1, hv.offset hzero.2⟩
  · simp only [Nat.add_eq_zero_iff] at hzero ⊢
    exact ⟨ht.redistribute hzero.1, hv.redistribute hzero.2⟩
  · simp only [Nat.add_pos_iff_pos_or_pos] at hpos ⊢
    exact hpos.imp ht.gas hv.gas

/-- One more trove in the tally. -/
theorem Tally.add {v : LiquidationValues} {s₁ : System} {vars : LiquidationSequence}
    {totals : LiquidationTotals} (hl : Tally d allow s LUSDInStabPool l)
    (hv : Liquidated d allow l.system l.totals.inFlight l.vars.remainingLUSDInStabPool v s₁)
    (hremaining : vars.remainingLUSDInStabPool = l.vars.remainingLUSDInStabPool - v.debtToOffset)
    (htotals : addLiquidationValuesToTotals l.totals v = .ok totals) :
    Tally d allow s LUSDInStabPool ⟨vars, totals, s₁⟩ := by
  have hsplits := hl.splits.add hv.splits htotals
  obtain rfl := addLiquidationValuesToTotals_ok htotals
  refine ⟨hl.evolves.trans hv.evolves, hsplits, ?_, hv.stabilityPool.trans hl.stabilityPool⟩
  have hle := hv.offset_le
  have hrem := hl.remaining
  simp only
  omega

variable (hd : d.Wired) (hs : Sound d s .none) (hplain : ∀ L, allow L .plain)

include hd hs hplain

theorem liquidateInNormalMode_tally {user : Address} {ICR : Nat}
    (hl : Tally d allow s LUSDInStabPool l)
    (hICR : l.system.troveManager.getCurrentICR user price = .ok ICR) (hlt : ICR < MCR)
    (h : liquidateInNormalMode d user l = .ok l') : Tally d allow s LUSDInStabPool l' := by
  have hsl := hl.evolves.sound hd hs
  have hactive := active_of_getCurrentICR hsl.registered hICR (hlt.trans (by decide))
  simp only [liquidateInNormalMode, bind_ok, pure_ok, sub_ok] at h
  obtain ⟨r, hr, _, ⟨-, rfl⟩, totals, htotals, rfl⟩ := h
  exact hl.add (liquidateNormalMode_liquidated hd hsl hplain hactive hr) rfl htotals

theorem liquidateInRecoveryMode_tally {user : Address} {ICR : Nat}
    (hl : Tally d allow s LUSDInStabPool l)
    (hICR : l.system.troveManager.getCurrentICR user price = .ok ICR)
    (h : liquidateInRecoveryMode d price user ICR l = .ok l') :
    Tally d allow s LUSDInStabPool l' := by
  have hsl := hl.evolves.sound hd hs
  simp only [liquidateInRecoveryMode, bind_ok, pure_ok, sub_ok] at h
  obtain ⟨TCR, hTCR, r, hr, _, ⟨-, rfl⟩, _, ⟨-, rfl⟩, _, ⟨-, rfl⟩, _, ⟨-, rfl⟩, _, ⟨-, rfl⟩, totals,
    htotals, _, -, rfl⟩ := h
  exact hl.add (liquidateRecoveryMode_liquidated hd hsl hplain hICR (computeCR_le hTCR) hr) rfl
    htotals

theorem Tally.loopStep {recovery : Bool} (hl : Tally d allow s LUSDInStabPool l)
    (h : LoopStep d price recovery l l') : Tally d allow s LUSDInStabPool l' := by
  cases h with
  | normal _ hICR hlt h => exact liquidateInNormalMode_tally hd hs hplain hl hICR hlt h
  | recovery _ _ hICR _ h => exact liquidateInRecoveryMode_tally hd hs hplain hl hICR h

theorem Tally.loop {recovery : Bool} (hl : Tally d allow s LUSDInStabPool l)
    (h : Relation.ReflTransGen (LoopStep d price recovery) l l') :
    Tally d allow s LUSDInStabPool l' := by
  induction h with
  | refl => exact hl
  | tail _ hstep ih => exact ih.loopStep hd hs hplain hstep

end Loops

/-! ## Settling the totals -/

theorem rewardPerUnitStaked_ok {amount lastError totalStakes : Nat} {r : Nat × Nat}
    (h : rewardPerUnitStaked amount lastError totalStakes = .ok r) :
    r.1 * totalStakes + r.2 = amount * DECIMAL_PRECISION + lastError := by
  simp only [rewardPerUnitStaked, bind_ok, pure_ok, mul_ok, add_ok, div_ok, sub_ok] at h
  obtain ⟨_, ⟨-, rfl⟩, _, ⟨-, rfl⟩, _, ⟨-, rfl⟩, _, ⟨-, rfl⟩, _, ⟨hle, rfl⟩, rfl⟩ := h
  exact Nat.add_sub_cancel' hle

theorem redistributeDebtAndColl_evolves (hd : d.Wired) (hs : Sound d s ι) {debt coll : Nat}
    (hallow : allow (s.ledger ι) (.redistribute debt)) (hdebt : debt ≤ ι.debt)
    (hcoll : coll ≤ ι.coll) (hzero : debt = 0 → coll = 0)
    (h : redistributeDebtAndColl d debt coll s = .ok s') :
    Evolves d allow s ι s' ⟨ι.coll - coll, ι.debt - debt, ι.gas⟩ := by
  unfold redistributeDebtAndColl at h
  split at h
  next hnothing =>
    cases h
    subst hnothing
    obtain rfl := hzero rfl
    exact .refl hs
  next hne =>
    simp only [bind_ok, add_ok, System.onActivePool_ok, System.onDefaultPool_ok] at h
    obtain ⟨rE, hrE, rD, hrD, _, ⟨-, rfl⟩, _, ⟨-, rfl⟩, _, ⟨p, hp, rfl⟩, _, ⟨q, hq, rfl⟩, h⟩ := h
    obtain ⟨-, rfl⟩ := ActivePool.decreaseLUSDDebt_ok hp
    obtain rfl := DefaultPool.increaseLUSDDebt_ok hq
    obtain ⟨-, hkept, ether, rfl⟩ := ActivePool.sendETH_defaultPool hd h
    exact Evolves.move
      (Ledger.Move.redistribute (L := s.ledger ι) hne hdebt hcoll (rewardPerUnitStaked_ok hrE)
        (rewardPerUnitStaked_ok hrD))
      hallow hs.list ⟨hkept.sum_eq, hkept.activePool_eq⟩

theorem sendCollSurplus_evolves (hd : d.Wired) (hs : Sound d s ι) (hplain : ∀ L, allow L .plain)
    {surplus : Nat} (hle : surplus ≤ ι.coll) (h : sendCollSurplus d surplus s = .ok s') :
    Evolves d allow s ι s' ⟨ι.coll - surplus, ι.debt, ι.gas⟩ := by
  unfold sendCollSurplus at h
  split at h
  · obtain ⟨-, hkept, ether, rfl⟩ := ActivePool.sendETH_collSurplusPool hd h
    exact Evolves.move (Ledger.Move.release (L := s.ledger ι) hle) (hplain _) hs.list
      ⟨hkept.sum_eq, hkept.activePool_eq⟩
  next hzero =>
    cases h
    obtain rfl : surplus = 0 := Nat.eq_zero_of_not_pos hzero
    exact .refl hs

theorem sendGasCompensation_evolves (hd : d.Wired) (hs : Sound d s ι)
    (hplain : ∀ L, allow L .plain) {liquidator : Address} (hliquidator : d.External liquidator)
    {LUSD ETH : Nat} (hLUSD : LUSD ≤ ι.gas) (hETH : ETH ≤ ι.coll)
    (h : sendGasCompensation d liquidator LUSD ETH s = .ok s') :
    Evolves d allow s ι s' ⟨ι.coll - ETH, ι.debt, ι.gas - LUSD⟩ := by
  obtain ⟨s₁, hs₁, h⟩ := bind_ok.mp h
  have hgas : Evolves d allow s ι s₁ ⟨ι.coll, ι.debt, ι.gas - LUSD⟩ := by
    unfold sendLUSDGasCompensation at hs₁
    split at hs₁
    · obtain ⟨t, ht, rfl⟩ := System.onLUSDToken_ok.mp hs₁
      obtain ⟨-, rfl⟩ := LUSDToken.returnFromPool_ok ht
      exact Evolves.move (Ledger.Move.payGas (L := s.ledger ι) hLUSD) (hplain _) hs.list
        (.of_eq rfl rfl)
    next hzero =>
      cases hs₁
      obtain rfl : LUSD = 0 := Nat.eq_zero_of_not_pos hzero
      exact .refl hs
  have hs' := hgas.sound hd hs
  split at h
  · obtain ⟨-, hkept, ether, rfl⟩ := ActivePool.sendETH_external hliquidator h
    exact hgas.trans (Evolves.move (Ledger.Move.release (L := s₁.ledger _) hETH) (hplain _) hs'.list
      ⟨hkept.sum_eq, hkept.activePool_eq⟩)
  next hzero =>
    cases h
    obtain rfl : ETH = 0 := Nat.eq_zero_of_not_pos hzero
    exact hgas

theorem updateSystemSnapshots_evolves (hs : Sound d s ι) (hplain : ∀ L, allow L .plain)
    {collRemainder : Nat} (hgas : 0 < ι.gas)
    (h : updateSystemSnapshots_excludeCollRemainder collRemainder s = .ok s') :
    Evolves d allow s ι s' ι := by
  simp only [updateSystemSnapshots_excludeCollRemainder, bind_ok, pure_ok, sub_ok, add_ok] at h
  obtain ⟨_, ⟨hle, rfl⟩, _, ⟨-, rfl⟩, rfl⟩ := h
  exact .move (.updateSnapshots (L := s.ledger ι) hgas hle) (hplain _) hs.list (.of_eq rfl rfl)

/-- Settling exact totals leaves nothing in flight. -/
theorem settleLiquidation_evolves (hd : d.Wired) (hplain : ∀ L, allow L .plain)
    {env : Env} (hsender : d.External env.sender) {totals : LiquidationTotals}
    (hs : Sound d s totals.inFlight) (hsplits : totals.Splits)
    (hle : totals.totalDebtToOffset ≤ s.stabilityPool.totalLUSDDeposits)
    (hoffset : ∀ L, s.stabilityPool.Issued L.sp → allow L (.offset totals.totalDebtToOffset))
    (hredistribute : ∀ L, allow L (.redistribute totals.totalDebtToRedistribute))
    (h : settleLiquidation d env totals s = .ok s') :
    Evolves d allow s totals.inFlight s' .none := by
  have hcoll := hsplits.coll
  have hdebt := hsplits.debt
  simp only [settleLiquidation, bind_ok] at h
  obtain ⟨_, hsome, s₁, h₁, s₂, h₂, s₃, h₃, s₄, h₄, -, -, -, -, h₅⟩ := h
  have hgas := hsplits.gas (require_ok.mp hsome)
  have e₁ := StabilityPool.offset_evolves hd hs hplain hoffset
    (by simp only [LiquidationTotals.inFlight]; omega)
    (by simp only [LiquidationTotals.inFlight]; omega) hle hsplits.offset h₁
  have hs₁ := e₁.sound hd hs
  have e₂ := redistributeDebtAndColl_evolves hd hs₁ (hredistribute _)
    (by simp only [LiquidationTotals.inFlight]; omega)
    (by simp only [LiquidationTotals.inFlight]; omega) hsplits.redistribute h₂
  have hs₂ := e₂.sound hd hs₁
  have e₃ := sendCollSurplus_evolves hd hs₂ hplain
    (by simp only [LiquidationTotals.inFlight]; omega) h₃
  have hs₃ := e₃.sound hd hs₂
  have e₄ : Evolves d allow s₃ _ s₄ _ := updateSystemSnapshots_evolves hs₃ hplain hgas h₄
  have hs₄ := e₄.sound hd hs₃
  have e₅ := sendGasCompensation_evolves hd hs₄ hplain hsender (Nat.le_refl _)
    (by simp only [LiquidationTotals.inFlight]; omega) h₅
  have e := (((e₁.trans e₂).trans e₃).trans e₄).trans e₅
  convert e using 1
  simp only [LiquidationTotals.inFlight, InFlight.none, InFlight.mk.injEq]
  omega

/-! ## The entry points -/

theorem LoopStart.tally (hs : Sound d s .none) {price : Nat} {recovery : Bool} {l : LoopState}
    (h : LoopStart price s recovery l) :
    Tally d allow s s.stabilityPool.totalLUSDDeposits l := by
  obtain ⟨-, h⟩ := h
  split at h
  · simp only [startRecoveryMode, bind_ok, pure_ok] at h
    obtain ⟨_, -, _, -, rfl⟩ := h
    exact ⟨.refl hs, ⟨rfl, rfl, fun _ => rfl, fun _ => rfl, id⟩, rfl, rfl⟩
  · rw [h]
    exact ⟨.refl hs, ⟨rfl, rfl, fun _ => rfl, fun _ => rfl, id⟩, rfl, rfl⟩

section EntryPoints

variable (hd : d.Wired) (hs : Sound d s .none) (hplain : ∀ L, allow L .plain) {l : LoopState}

include hd hs hplain

/-- A tally and its settlement make a whole liquidation. -/
theorem Tally.settle {env : Env} (hsender : d.External env.sender)
    (hl : Tally d allow s s.stabilityPool.totalLUSDDeposits l)
    (hoffset : ∀ L, s.stabilityPool.Issued L.sp → allow L (.offset l.totals.totalDebtToOffset))
    (hredistribute : ∀ L, allow L (.redistribute l.totals.totalDebtToRedistribute))
    (h : settleLiquidation d env l.totals l.system = .ok s') :
    Evolves d allow s .none s' .none := by
  have hrem := hl.remaining
  have hpool := hl.stabilityPool
  refine hl.evolves.trans (settleLiquidation_evolves hd hplain hsender (hl.evolves.sound hd hs)
    hl.splits ?_ ?_ hredistribute h)
  · rw [hpool]
    omega
  · rw [hpool]
    exact hoffset

end EntryPoints

end Liquity
