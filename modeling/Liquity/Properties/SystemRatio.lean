import Liquity.Soundness
import Mathlib.Tactic.Linarith

/-!
# Borrower operations and the system's ratio

The checks of `BorrowerOperations` are made on a predicted ratio, before anything changes.  In Normal
Mode the prediction is what the pools give afterwards.  In Recovery Mode only the trove's own ratio is
checked, and that it does not fall bounds what the operation can do to the system's.
-/

open Lib

namespace Liquity

open SafeMath LiquityMath TroveManager

variable {d : Deployment} {s s₁ s' : System} {t : Transaction} {price : Nat}

/-! ## The ratio of the pools -/

namespace System

def totalColl (s : System) : Nat := s.activePool.ETH + s.defaultPool.ETH

def totalDebt (s : System) : Nat := s.activePool.LUSDDebt + s.defaultPool.LUSDDebt

/-- The ratio that `getTCR` computes, where its product fits in a word. -/
def exactTCR (price : Nat) (s : System) : Nat :=
  if 0 < s.totalDebt then s.totalColl * price / s.totalDebt else maxRatio

theorem getTCR_ok {r : Nat} :
    s.getTCR price = .ok r ↔ s.totalColl < 2 ^ 256 ∧ s.totalDebt < 2 ^ 256 ∧
      computeCR s.totalColl s.totalDebt price = .ok r := by
  simp only [getTCR, getEntireSystemColl, getEntireSystemDebt, bind_ok, add_ok]
  constructor
  · rintro ⟨_, ⟨hcoll, rfl⟩, _, ⟨hdebt, rfl⟩, h⟩
    exact ⟨hcoll, hdebt, h⟩
  · rintro ⟨hcoll, hdebt, h⟩
    exact ⟨_, ⟨hcoll, rfl⟩, _, ⟨hdebt, rfl⟩, h⟩

theorem exactTCR_of_getTCR {r : Nat} (h : s.getTCR price = .ok r) : s.exactTCR price = r := by
  obtain ⟨-, -, h⟩ := getTCR_ok.mp h
  unfold exactTCR
  split
  next hpos => exact (computeCR_ok hpos h).symm
  next hzero =>
    rw [computeCR, if_neg hzero] at h
    cases h
    rfl

theorem checkRecoveryMode_ok {recovery : Bool} (h : s.checkRecoveryMode price = .ok recovery) :
    ∃ TCR, s.getTCR price = .ok TCR ∧ recovery = decide (TCR < CCR) := by
  simp only [checkRecoveryMode, bind_ok, pure_ok] at h
  obtain ⟨TCR, hTCR, rfl⟩ := h
  exact ⟨TCR, hTCR, rfl⟩

/-- A system in Recovery Mode has debt. -/
theorem totalDebt_pos {TCR : Nat} (h : s.getTCR price = .ok TCR) (hlt : TCR < CCR) :
    0 < s.totalDebt := by
  by_contra hzero
  have hexact := exactTCR_of_getTCR h
  rw [exactTCR, if_neg hzero] at hexact
  have hmax : CCR < maxRatio := by decide
  omega

/-- The ratio only depends on the totals. -/
theorem getTCR_congr {r : Nat} (hcoll : s'.totalColl = s.totalColl)
    (hdebt : s'.totalDebt = s.totalDebt) (h : s.getTCR price = .ok r) : s'.getTCR price = .ok r := by
  rw [getTCR_ok, hcoll, hdebt]
  exact getTCR_ok.mp h

end System

/-- What a borrower operation may do to the system's ratio, in either mode. -/
structure RatioKept (price : Nat) (s s' : System) : Prop where
  normal : ∀ TCR, s.getTCR price = .ok TCR → CCR ≤ TCR →
    ∃ TCR', s'.getTCR price = .ok TCR' ∧ CCR ≤ TCR'
  recovery : ∀ TCR, s.getTCR price = .ok TCR → TCR < CCR → TCR ≤ s'.exactTCR price + 1

/-! ## Ratios of sums -/

/-- Adding a part whose ratio is no lower than the whole's does not lower the ratio. -/
theorem le_ratio_add {C D c δ p T : Nat} (hpos : 0 < D + δ) (hwhole : T * D ≤ C * p)
    (hpart : T * δ ≤ c * p) : T ≤ (C + c) * p / (D + δ) := by
  rw [Nat.le_div_iff_mul_le hpos]
  calc T * (D + δ) = T * D + T * δ := Nat.mul_add ..
    _ ≤ C * p + c * p := Nat.add_le_add hwhole hpart
    _ = (C + c) * p := (Nat.add_mul ..).symm

/-- A part whose rounded ratio does not fall, and is no lower than the whole's: what the rounding
hides is less than the part's debt, so it lowers the whole's ratio by at most one. -/
theorem le_ratio_grow {C D c δ collChange debtChange p T old new : Nat} (hpart : δ ≤ D)
    (hwhole : T * D ≤ C * p) (hold : c * p < (old + 1) * δ)
    (hnew : new * (δ + debtChange) ≤ (c + collChange) * p) (hrise : old ≤ new) (hT : T ≤ new) :
    T ≤ (C + collChange) * p / (D + debtChange) + 1 := by
  have hδ : 0 < δ := by
    by_contra hzero
    have hδ : δ = 0 := by omega
    rw [hδ, Nat.mul_zero] at hold
    exact Nat.not_lt_zero _ hold
  have hpos : 0 < D + debtChange := by omega
  rw [← Nat.sub_le_iff_le_add, Nat.le_div_iff_mul_le hpos]
  -- the change's own value is short of its ratio by less than the debt before it
  have hgain : new * debtChange ≤ collChange * p + δ := by
    have hceil : (old + 1) * δ ≤ (new + 1) * δ := Nat.mul_le_mul_right δ (by omega)
    have hexpand : (new + 1) * δ = new * δ + δ := by ring
    have hnew' : new * δ + new * debtChange ≤ c * p + collChange * p := by
      rw [← Nat.mul_add, ← Nat.add_mul]
      exact hnew
    omega
  have hTgain : T * debtChange ≤ collChange * p + δ := (Nat.mul_le_mul_right _ hT).trans hgain
  -- the last unit of the ratio pays for that shortfall, because `δ ≤ D`
  rcases Nat.eq_zero_or_pos T with hzero | hTpos
  · rw [hzero]
    simp
  · obtain ⟨T, rfl⟩ : ∃ T', T = T' + 1 := ⟨T - 1, by omega⟩
    rw [Nat.add_sub_cancel]
    have hD : (T + 1) * D = T * D + D := by ring
    have hchange : (T + 1) * debtChange = T * debtChange + debtChange := by ring
    have hsum : T * (D + debtChange) = T * D + T * debtChange := by ring
    have hcoll : (C + collChange) * p = C * p + collChange * p := by ring
    omega

/-- A rounded ratio bounds the collateral's value from both sides. -/
theorem computeCR_bounds {coll debt r : Nat} (hdebt : 0 < debt)
    (h : computeCR coll debt price = .ok r) :
    r * debt ≤ coll * price ∧ coll * price < (r + 1) * debt := by
  rw [computeCR_ok hdebt h]
  constructor
  · exact Nat.div_mul_le_self _ _
  · exact Nat.lt_mul_of_div_lt (Nat.lt_succ_self _) hdebt

namespace BorrowerOperations

/-! ## The predicted ratio -/

/-- The change of a part is the change of the whole. -/
theorem applyChange_shift {inc : Bool} {part whole change part' whole' : Nat}
    (hpart : applyChange inc part change = .ok part')
    (hwhole : applyChange inc whole change = .ok whole') : whole' + part = whole + part' := by
  rcases applyChange_ok hpart with ⟨rfl, rfl⟩ | ⟨rfl, hle, rfl⟩
  · obtain ⟨-, rfl⟩ := add_ok.mp hwhole
    omega
  · obtain ⟨hle', rfl⟩ := sub_ok.mp hwhole
    omega

theorem applyChange_lt {inc : Bool} {whole change whole' : Nat} (hwhole : whole < 2 ^ 256)
    (h : applyChange inc whole change = .ok whole') : whole' < 2 ^ 256 := by
  unfold applyChange at h
  split at h
  · obtain ⟨hlt, rfl⟩ := add_ok.mp h
    exact hlt
  · obtain ⟨-, rfl⟩ := sub_ok.mp h
    exact (Nat.sub_le _ _).trans_lt hwhole

/-- The prediction changes the totals with checked arithmetic. -/
theorem getNewTCRFromTroveChange_ok {collChange debtChange newTCR : Nat} {collInc debtInc : Bool}
    (h : getNewTCRFromTroveChange collChange collInc debtChange debtInc price s = .ok newTCR) :
    s.totalColl < 2 ^ 256 ∧ s.totalDebt < 2 ^ 256 ∧
      ∃ C D, applyChange collInc s.totalColl collChange = .ok C ∧
        applyChange debtInc s.totalDebt debtChange = .ok D ∧ computeCR C D price = .ok newTCR := by
  simp only [getNewTCRFromTroveChange, System.getEntireSystemColl, System.getEntireSystemDebt,
    bind_ok, add_ok] at h
  obtain ⟨_, ⟨hcollFits, rfl⟩, _, ⟨hdebtFits, rfl⟩, C, hC, D, hD, h⟩ := h
  exact ⟨hcollFits, hdebtFits, C, D, hC, hD, h⟩

/-- The ratio that the checks predict is the one that the changed pools give. -/
theorem getTCR_of_predicted {collChange debtChange newTCR : Nat} {collInc debtInc : Bool}
    (hcoll : ∀ C, applyChange collInc s.totalColl collChange = .ok C → s'.totalColl = C)
    (hdebt : ∀ D, applyChange debtInc s.totalDebt debtChange = .ok D → s'.totalDebt = D)
    (h : getNewTCRFromTroveChange collChange collInc debtChange debtInc price s = .ok newTCR) :
    s'.getTCR price = .ok newTCR := by
  -- the prediction was made with checked sums, so the new totals fit in a word
  obtain ⟨hcollFits, hdebtFits, C, D, hC, hD, h⟩ := getNewTCRFromTroveChange_ok h
  rw [System.getTCR_ok, hcoll C hC, hdebt D hD]
  exact ⟨applyChange_lt hcollFits hC, applyChange_lt hdebtFits hD, h⟩

/-! ## The operations -/

theorem requireValidOpening_ok {env : Env} {recovery : Bool} {ICR compositeDebt : Nat}
    (h : requireValidOpening env recovery ICR compositeDebt s = .ok ()) :
    (recovery = true → CCR ≤ ICR) ∧ (recovery = false → ∃ newTCR, CCR ≤ newTCR ∧
      getNewTCRFromTroveChange env.value true compositeDebt true env.price s = .ok newTCR) := by
  cases recovery with
  | true =>
    simp only [requireValidOpening, if_true, requireICRisAboveCCR, require_ok] at h
    exact ⟨fun _ => h, fun hnormal => absurd hnormal (by decide)⟩
  | false =>
    simp only [requireValidOpening, Bool.false_eq_true, if_false, bind_ok, requireNewTCRisAboveCCR,
      require_ok] at h
    obtain ⟨-, -, newTCR, hnew, hCCR⟩ := h
    exact ⟨fun hrecovery => absurd hrecovery (by decide), fun _ => ⟨newTCR, hCCR, hnew⟩⟩

/-- What opening a trove adds to the pools, and what was checked before. -/
theorem openTrove_pools (hd : d.Wired) (hs : Sound d s .none) {env : Env} {maxFee amount : Nat}
    {upper lower : Address} (h : openTrove d env maxFee amount upper lower s = .ok s') :
    ∃ recovery compositeDebt ICR, s.checkRecoveryMode env.price = .ok recovery ∧
      0 < compositeDebt ∧ computeCR env.value compositeDebt env.price = .ok ICR ∧
      requireValidOpening env recovery ICR compositeDebt s = .ok () ∧
      s'.totalColl = s.totalColl + env.value ∧ s'.totalDebt = s.totalDebt + compositeDebt := by
  simp only [openTrove, bind_ok, requireTroveisNotActive, require_ok, add_ok, assertThat_ok,
    LiquityBase.getCompositeDebt] at h
  obtain ⟨recovery, hmode, -, -, -, hinactive, r, hr, _, ⟨-, rfl⟩, -, -, _, ⟨-, rfl⟩, -, hpos, ICR,
    hICR, NICR, -, _, hvalid, s₁, h₁, s₂, h₂, s₃, h₃, h₄⟩ := h
  obtain ⟨rate, time, staking, hfee⟩ := (openTroveFee_ok hr).eq
  generalize r.1 = fee at *
  rw [hfee] at h₁ hvalid
  have hempty := hs.registered.inactive _ hinactive
  have hlength := length_owners_lt hs
  obtain ⟨_, _, l, -, -, -, rfl⟩ := createTrove_ok (by exact hempty) (by exact hlength) h₁
  dsimp only at h₂
  obtain ⟨ether, rfl, -⟩ := activePoolAddColl_ok hd h₂
  dsimp only at h₃
  obtain ⟨-, rfl⟩ := withdrawLUSDInternal_ok h₃
  dsimp only at h₄
  obtain ⟨-, rfl⟩ := withdrawLUSDInternal_ok h₄
  refine ⟨recovery, _, ICR, hmode, hpos, hICR, hvalid, ?_, ?_⟩
  · simp only [System.totalColl]
    omega
  · simp only [System.totalDebt]
    omega

theorem openTrove_ratio (hd : d.Wired) (hs : Sound d s .none) {env : Env} {maxFee amount : Nat}
    {upper lower : Address} (h : openTrove d env maxFee amount upper lower s = .ok s') :
    RatioKept env.price s s' ∧ ∃ TCR, s.getTCR env.price = .ok TCR := by
  obtain ⟨recovery, δ, ICR, hmode, hδ, hICR, hvalid, hcoll, hdebt⟩ := openTrove_pools hd hs h
  obtain ⟨TCR, hTCR, rfl⟩ := System.checkRecoveryMode_ok hmode
  obtain ⟨hrecovery, hnormal⟩ := requireValidOpening_ok hvalid
  refine ⟨⟨fun TCR' hTCR' hge => ?_, fun TCR' hTCR' hlt => ?_⟩, TCR, hTCR⟩ <;>
    -- the mode was read from the same ratio
    cases hTCR.symm.trans hTCR'
  -- Normal Mode: the predicted ratio was checked
  · obtain ⟨newTCR, hCCR, hnew⟩ := hnormal (by simpa using hge)
    refine ⟨newTCR, getTCR_of_predicted (fun C hC => ?_) (fun D hD => ?_) hnew, hCCR⟩
    · obtain ⟨-, rfl⟩ := add_ok.mp hC
      exact hcoll
    · obtain ⟨-, rfl⟩ := add_ok.mp hD
      exact hdebt
  -- Recovery Mode: the new trove has at least the critical ratio, the system less
  · have hD := System.totalDebt_pos hTCR hlt
    have hge := hrecovery (by simpa using hlt)
    have hwhole := (computeCR_bounds hD (System.getTCR_ok.mp hTCR).2.2).1
    have hpart := (computeCR_bounds hδ hICR).1
    rw [System.exactTCR, hcoll, hdebt, if_pos (by omega)]
    have hle : TCR * δ ≤ env.value * env.price :=
      (Nat.mul_le_mul_right δ (by omega)).trans hpart
    exact (le_ratio_add (by omega) hwhole hle).trans (Nat.le_succ _)

/-- What was checked before an adjustment in Recovery Mode, and in Normal Mode. -/
theorem requireValidAdjustmentInCurrentMode_ok {recovery : Bool} {a : Adjustment}
    {vars : AdjustmentVars}
    (h : requireValidAdjustmentInCurrentMode price recovery a vars s = .ok ()) :
    (recovery = true → a.collWithdrawal = 0 ∧
      (a.isDebtIncrease = true → CCR ≤ vars.newICR ∧ vars.oldICR ≤ vars.newICR)) ∧
    (recovery = false → ∃ newTCR, CCR ≤ newTCR ∧
      getNewTCRFromTroveChange vars.collChange vars.isCollIncrease vars.netDebtChange
        a.isDebtIncrease price s = .ok newTCR) := by
  cases recovery with
  | true =>
    simp only [requireValidAdjustmentInCurrentMode, if_true, bind_ok, requireNoCollWithdrawal,
      require_ok] at h
    obtain ⟨-, hcoll, h⟩ := h
    refine ⟨fun _ => ⟨hcoll, fun hinc => ?_⟩, fun hnormal => absurd hnormal (by decide)⟩
    simp only [hinc, if_true, bind_ok, requireICRisAboveCCR, requireNewICRisAboveOldICR,
      require_ok] at h
    obtain ⟨-, hCCR, hold⟩ := h
    exact ⟨hCCR, hold⟩
  | false =>
    simp only [requireValidAdjustmentInCurrentMode, Bool.false_eq_true, if_false, bind_ok,
      requireNewTCRisAboveCCR, require_ok] at h
    obtain ⟨-, -, newTCR, hnew, hCCR⟩ := h
    exact ⟨fun hrecovery => absurd hrecovery (by decide), fun _ => ⟨newTCR, hCCR, hnew⟩⟩

/-- The two ratios of an adjustment are those of the trove before and after it. -/
theorem adjustmentVars_amounts {env : Env} {a : Adjustment} {fee : Nat} {vars : AdjustmentVars}
    (h : adjustmentVars env a fee s = .ok vars) :
    ∃ coll debt, applyChange vars.isCollIncrease vars.coll vars.collChange = .ok coll ∧
      applyChange a.isDebtIncrease vars.debt vars.netDebtChange = .ok debt ∧
      computeCR vars.coll vars.debt env.price = .ok vars.oldICR ∧
      computeCR coll debt env.price = .ok vars.newICR := by
  simp only [adjustmentVars, getNewICRFromTroveChange, getNewTroveAmounts, bind_ok, pure_ok] at h
  obtain ⟨_, -, oldICR, hold, newICR, ⟨_, ⟨coll, hcoll, debt, hdebt, rfl⟩, hnew⟩, -, -, rfl⟩ := h
  exact ⟨coll, debt, hcoll, hdebt, hold, hnew⟩

theorem adjustmentVars_ratios {env : Env} {a : Adjustment} {fee coll debt : Nat}
    {vars : AdjustmentVars} (h : adjustmentVars env a fee s = .ok vars)
    (hcoll : applyChange vars.isCollIncrease vars.coll vars.collChange = .ok coll)
    (hdebt : applyChange a.isDebtIncrease vars.debt vars.netDebtChange = .ok debt) :
    computeCR vars.coll vars.debt env.price = .ok vars.oldICR ∧
      computeCR coll debt env.price = .ok vars.newICR := by
  obtain ⟨coll', debt', hcoll', hdebt', hold, hnew⟩ := adjustmentVars_amounts h
  cases hcoll.symm.trans hcoll'
  cases hdebt.symm.trans hdebt'
  exact ⟨hold, hnew⟩

/-- No collateral is taken out in Recovery Mode. -/
theorem coll_le_of_noWithdrawal {inc : Bool} {value change coll coll' : Nat}
    (hchange : (change, inc) = getCollChange value 0) (h : applyChange inc coll change = .ok coll') :
    coll ≤ coll' := by
  unfold getCollChange at hchange
  split at hchange
  · cases hchange
    obtain ⟨-, rfl⟩ := add_ok.mp h
    exact Nat.le_add_right _ _
  · cases hchange
    rcases applyChange_ok h with ⟨hinc, -⟩ | ⟨-, -, rfl⟩
    · cases hinc
    · exact Nat.le_refl _

/-- In Recovery Mode: repaying raises the ratio, and borrowing more is checked against the trove's
own ratio. -/
theorem adjusted_recovery {a : Adjustment} {vars : AdjustmentVars} {TCR coll debt : Nat}
    (hTCR : s.getTCR price = .ok TCR) (hlt : TCR < CCR)
    (hcoll : s'.totalColl + vars.coll = s.totalColl + coll)
    (hdebt : s'.totalDebt + vars.debt = s.totalDebt + debt)
    (hpart : vars.debt ≤ s.totalDebt) (hpos : 0 < vars.debt) (hpos' : 0 < debt)
    (hcollLe : vars.coll ≤ coll)
    (hdebtChange : applyChange a.isDebtIncrease vars.debt vars.netDebtChange = .ok debt)
    (hold : computeCR vars.coll vars.debt price = .ok vars.oldICR)
    (hnew : computeCR coll debt price = .ok vars.newICR)
    (hvalid : a.isDebtIncrease = true → CCR ≤ vars.newICR ∧ vars.oldICR ≤ vars.newICR) :
    TCR ≤ s'.exactTCR price + 1 := by
  have hD := System.totalDebt_pos hTCR hlt
  have hwhole := (computeCR_bounds hD (System.getTCR_ok.mp hTCR).2.2).1
  rw [System.exactTCR, if_pos (by omega)]
  obtain ⟨collChange, rfl⟩ := Nat.exists_eq_add_of_le hcollLe
  have hcoll' : s'.totalColl = s.totalColl + collChange := by omega
  rcases applyChange_ok hdebtChange with ⟨hinc, rfl⟩ | ⟨hdec, hle, rfl⟩
  -- borrowing more: the trove's ratio does not fall and is above the system's
  · obtain ⟨hCCR, hrise⟩ := hvalid hinc
    have hdebt' : s'.totalDebt = s.totalDebt + vars.netDebtChange := by omega
    rw [hcoll', hdebt']
    exact le_ratio_grow hpart hwhole (computeCR_bounds hpos hold).2 (computeCR_bounds hpos' hnew).1
      hrise (by omega)
  · -- the value of the collateral grew and the debt did not
    refine Nat.le_succ_of_le ?_
    rw [Nat.le_div_iff_mul_le (by omega), hcoll']
    calc TCR * s'.totalDebt ≤ TCR * s.totalDebt := Nat.mul_le_mul_left _ (by omega)
      _ ≤ s.totalColl * price := hwhole
      _ ≤ (s.totalColl + collChange) * price := Nat.mul_le_mul_right _ (by omega)

/-- The pools that the checks of an adjustment read, and what it makes of them. -/
theorem AdjustmentMade.pools {env : Env} {a : Adjustment} {r : Nat × System} {vars : AdjustmentVars}
    {coll debt : Nat} (h : AdjustmentMade d env a s s₁ r vars coll debt s') :
    (r.2.totalColl = s.totalColl ∧ r.2.totalDebt = s.totalDebt) ∧
      s'.totalColl + vars.coll = s.totalColl + coll ∧
      s'.totalDebt + vars.debt = s.totalDebt + debt := by
  obtain ⟨-, -, hdebteq, hcolleq⟩ := adjustmentVars_ok h.vars_ok
  have hpools := h.applied.pools
  have hETH := h.adjusted.activeETH
  have hdebt := h.adjusted.activeDebt
  have hdefault := h.adjusted.defaultPool
  obtain ⟨rate, time, staking, heq⟩ := h.fee.eq
  rw [← hcolleq] at hETH
  rw [← hdebteq] at hdebt
  rw [heq] at hETH hdebt hdefault ⊢
  unfold System.totalColl System.totalDebt
  rw [hdefault]
  dsimp only at hETH hdebt ⊢
  omega

theorem adjustTroveInternal_ratio (hd : d.Wired) (hs : Sound d s .none) {env : Env} {a : Adjustment}
    (hb : d.External a.borrower) (h : adjustTroveInternal d env a s = .ok s') :
    RatioKept env.price s s' ∧ ∃ TCR, s.getTCR env.price = .ok TCR := by
  obtain ⟨s₁, r, vars, coll, debt, e₁, hmade⟩ :=
    adjustTroveInternal_ok hd hs PlainOnly.plain hb h
  obtain ⟨⟨hcollStart, hdebtStart⟩, hcoll, hdebt⟩ := hmade.pools
  obtain ⟨recovery, hmode, hvalid⟩ := hmade.valid
  obtain ⟨TCR, hTCR, rfl⟩ := System.checkRecoveryMode_ok hmode
  obtain ⟨hrecovery, hnormal⟩ := requireValidAdjustmentInCurrentMode_ok hvalid
  refine ⟨⟨fun TCR' hTCR' hge => ?_, fun TCR' hTCR' hlt => ?_⟩, TCR, hTCR⟩ <;>
    cases hTCR.symm.trans hTCR'
  -- Normal Mode: the predicted ratio was checked
  · obtain ⟨newTCR, hCCR, hnew⟩ := hnormal (by simpa using hge)
    refine ⟨newTCR, getTCR_of_predicted (fun C hC => ?_) (fun D hD => ?_) hnew, hCCR⟩
    · have hshift := applyChange_shift hmade.collChange hC
      omega
    · have hshift := applyChange_shift hmade.debtChange hD
      omega
  · obtain ⟨hnoWithdrawal, hincrease⟩ := hrecovery (by simpa using hlt)
    obtain ⟨hchange, -, hdebteq, -⟩ := adjustmentVars_ok hmade.vars_ok
    rw [hnoWithdrawal] at hchange
    obtain ⟨hold, hnew⟩ := adjustmentVars_ratios hmade.vars_ok hmade.collChange hmade.debtChange
    have hminDebt : 0 < Ledger.minDebt := by decide
    -- the trove's debt is part of the Active Pool's, rewards included
    have hpart : vars.debt ≤ s.totalDebt := by
      have hle : (s₁.troveManager.troves a.borrower).debt ≤ s₁.activePool.LUSDDebt :=
        (e₁.sound hd hs).books.debt_le a.borrower
      obtain ⟨rate, time, staking, heq⟩ := hmade.fee.eq
      rw [heq] at hdebteq hdebtStart
      unfold System.totalDebt at hdebtStart ⊢
      dsimp only at hdebteq hdebtStart
      omega
    exact adjusted_recovery hTCR hlt hcoll hdebt hpart (hminDebt.trans_le hmade.minDebt_old)
      (hminDebt.trans_le hmade.minDebt) (coll_le_of_noWithdrawal hchange hmade.collChange)
      hmade.debtChange hold hnew hincrease

theorem withdrawETHGainToTrove_ratio (hd : d.Wired) (hs : Sound d s .none) {env : Env}
    (hb : d.External env.sender) {upper lower : Address}
    (h : StabilityPool.withdrawETHGainToTrove d env upper lower s = .ok s') :
    RatioKept env.price s s' ∧ ∃ TCR, s.getTCR env.price = .ok TCR := by
  obtain ⟨s₁, gain, e, -, hactive, hdefault, -, -, h⟩ :
      ∃ s₁ gain, Evolves d (fun _ _ => True) s .none s₁ .none ∧ _ :=
    StabilityPool.withdrawETHGainToTrove_ok hd hs (fun _ => trivial) (fun _ _ => trivial) h
  have hcoll : s₁.totalColl = s.totalColl := by rw [System.totalColl, hactive, hdefault]; rfl
  have hdebt : s₁.totalDebt = s.totalDebt := by rw [System.totalDebt, hactive, hdefault]; rfl
  obtain ⟨hkept, TCR, hTCR⟩ := adjustTroveInternal_ratio hd (e.sound hd hs) hb h
  refine ⟨⟨fun TCR hTCR => ?_, fun TCR hTCR => ?_⟩, TCR, ?_⟩
  · exact hkept.normal TCR (System.getTCR_congr hcoll hdebt hTCR)
  · exact hkept.recovery TCR (System.getTCR_congr hcoll hdebt hTCR)
  · exact System.getTCR_congr hcoll.symm hdebt.symm hTCR

/-- Closing a trove is refused in Recovery Mode. -/
theorem closeTrove_ratio (hd : d.Wired) (hs : Sound d s .none) {env : Env}
    (hb : d.External env.sender) (h : closeTrove d env s = .ok s') :
    ∃ TCR TCR', s.getTCR env.price = .ok TCR ∧ CCR ≤ TCR ∧ s'.getTCR env.price = .ok TCR' ∧
      CCR ≤ TCR' := by
  simp only [closeTrove, bind_ok, requireNotInRecoveryMode, requireNewTCRisAboveCCR, require_ok,
    applyPendingRewards, sub_ok, TroveManager.closeTrove] at h
  obtain ⟨-, -, _, ⟨recovery, hmode, rfl⟩, s₁, ⟨-, -, h₁⟩, _, ⟨hGAS, rfl⟩, -, -, newTCR, hnew, -, hCCR, s₂,
    h₂, s₃, ⟨-, -, h₃⟩, s₄, h₄, s₅, h₅, h₆⟩ := h
  obtain ⟨TCR, hTCR, hnormal⟩ := System.checkRecoveryMode_ok hmode
  obtain ⟨e₁, happlied⟩ :=
    applyPendingRewardsInternal_evolves hd hs PlainOnly.plain h₁
  -- the rewards have been applied, so the trove's amounts are part of the Active Pool's
  have hbooks := (e₁.sound hd hs).books
  obtain ⟨t, ht, rfl⟩ := System.onTroveManager_ok.mp h₂
  obtain ⟨-, -, hstake⟩ := bind_ok.mp ht
  obtain ⟨-, -, l, -, rfl⟩ := removeStake_closeTrove_ok hstake h₃
  obtain ⟨-, -, ether, rfl⟩ := repayAndWithdraw_ok hb h₄ h₅ h₆
  refine ⟨TCR, newTCR, hTCR, by simpa using hnormal, ?_, hCCR⟩
  refine getTCR_of_predicted (fun C hC => ?_) (fun D hD => ?_) hnew
  · have hle : (s₁.troveManager.troves env.sender).coll ≤ s₁.activePool.ETH :=
      hbooks.coll_le env.sender
    obtain ⟨-, rfl⟩ := sub_ok.mp hC
    simp only [System.totalColl]
    omega
  · have hle : (s₁.troveManager.troves env.sender).debt ≤ s₁.activePool.LUSDDebt :=
      hbooks.debt_le env.sender
    obtain ⟨-, rfl⟩ := sub_ok.mp hD
    simp only [System.totalDebt]
    omega

end BorrowerOperations

/-! ## Every borrower operation -/

/-- The calls that open, adjust or close the caller's trove. -/
def Call.isBorrowerOperation : Call → Bool
  | .openTrove .. | .addColl .. | .withdrawColl .. | .withdrawLUSD .. | .repayLUSD ..
  | .adjustTrove .. | .withdrawETHGainToTrove .. | .closeTrove => true
  | _ => false

open BorrowerOperations in
theorem Call.body_ratio (hd : d.Wired) (hs : Sound d s .none) {env : Env} {call : Call}
    (hb : d.External env.sender) (hcall : call.isBorrowerOperation = true)
    (h : call.body d env s = .ok s') :
    RatioKept env.price s s' ∧
      ∃ TCR, s.getTCR env.price = .ok TCR ∧ (TCR < CCR → call ≠ .closeTrove) := by
  cases call with
  | openTrove =>
    obtain ⟨hkept, TCR, hTCR⟩ := openTrove_ratio hd hs h
    exact ⟨hkept, TCR, hTCR, nofun⟩
  | addColl | withdrawColl | withdrawLUSD | repayLUSD | adjustTrove =>
    obtain ⟨hkept, TCR, hTCR⟩ := adjustTroveInternal_ratio hd hs hb h
    exact ⟨hkept, TCR, hTCR, nofun⟩
  | withdrawETHGainToTrove =>
    obtain ⟨hkept, TCR, hTCR⟩ := withdrawETHGainToTrove_ratio hd hs hb h
    exact ⟨hkept, TCR, hTCR, nofun⟩
  | closeTrove =>
    obtain ⟨TCR, TCR', hTCR, hCCR, hTCR', hCCR'⟩ := closeTrove_ratio hd hs hb h
    refine ⟨⟨fun _ _ _ => ⟨TCR', hTCR', hCCR'⟩, fun r hr hlt => ?_⟩, TCR, hTCR, fun hlt => ?_⟩
    · cases hTCR.symm.trans hr
      omega
    · omega
  | _ => cases hcall

/-- A successful borrower operation leaves a system in Normal Mode in Normal Mode, and lowers the
ratio of one in Recovery Mode by at most one unit; closing a trove is then refused. -/
theorem borrower_operation_TCR (hd : d.Wired) (hr : Reachable d s)
    (hcall : t.call.isBorrowerOperation = true) (hstep : Step d s t s') :
    ∃ TCR, s.getTCR t.env.price = .ok TCR ∧
      (CCR ≤ TCR → ∃ TCR', s'.getTCR t.env.price = .ok TCR' ∧ CCR ≤ TCR') ∧
      (TCR < CCR → t.call ≠ .closeTrove ∧ TCR ≤ s'.exactTCR t.env.price + 1 ∧
        ∀ TCR', s'.getTCR t.env.price = .ok TCR' → TCR ≤ TCR' + 1) := by
  have hs := hr.sound hd
  obtain ⟨ether, hbody, -, hkept⟩ := hstep.body hd
  have hevolves : Evolves d PlainOnly s .none { s with timestamp := t.env.timestamp, ether } .none :=
    .silent hs rfl rfl hkept
  have hs₀ := hevolves.sound hd hs
  obtain ⟨hratio, TCR, hTCR, hclose⟩ := t.call.body_ratio hd hs₀ hstep.1.external hcall hbody
  refine ⟨TCR, hTCR, hratio.normal TCR hTCR, fun hlt => ⟨hclose hlt, hratio.recovery TCR hTCR hlt, ?_⟩⟩
  intro TCR' hTCR'
  rw [← System.exactTCR_of_getTCR hTCR']
  exact hratio.recovery TCR hTCR hlt

/-- Borrowing more in Recovery Mode, with enough new collateral. -/
theorem sampleOpenings_TCR : ∃ s s' TCR, Reachable sampleDeployment s ∧
    Step sampleDeployment s ⟨⟨102, 3 * 10 ^ 18, 0, 560 * 10 ^ 18⟩,
      .adjustTrove (10 ^ 18) 0 (10 * 10 ^ 18) true 0 0⟩ s' ∧
    s.getTCR (560 * 10 ^ 18) = .ok TCR ∧ TCR < CCR ∧ TCR ≤ s'.exactTCR (560 * 10 ^ 18) + 1 := by
  obtain ⟨s, s', hs, hstep, hmode⟩ := exists_step sampleOpenings
    ⟨⟨102, 3 * 10 ^ 18, 0, 560 * 10 ^ 18⟩, .adjustTrove (10 ^ 18) 0 (10 * 10 ^ 18) true 0 0⟩
    (fun s _ => (s.getTCR (560 * 10 ^ 18)).toOption.any (fun TCR => decide (TCR < CCR)) = true)
    (by decide +kernel)
  obtain ⟨TCR, hTCR, hlt⟩ := exists_ok hmode
  obtain ⟨TCR', hTCR', -, hrecovery⟩ := borrower_operation_TCR sampleDeployment_wired hs rfl hstep
  cases hTCR.symm.trans hTCR'
  exact ⟨s, s', TCR, hs, hstep, hTCR, hlt, (hrecovery hlt).2.1⟩

end Liquity
