import Mathlib.Data.Fintype.Sum
import Mathlib.Tactic.LinearCombination
import Liquity.StabilityPool.Product

/-!
# The LQTY gains of deposits and front ends

A gain of LQTY is split between the depositor and the front end, which reads it from its own stake.
Weighted by their parts, deposits and stakes are the claims of one `ProductSum.Pool`, whose gains are
what is issued.
-/

open Lib

namespace Liquity

open SafeMath

def Snapshots.forLQTY (snapshots : Snapshots) : ProductSum.Snapshot :=
  ⟨snapshots.G, snapshots.P, snapshots.scale, snapshots.epoch⟩

namespace StabilityPool

open ProductSum.Pool (Offset ShrinksEnough Covered)

variable {p q : StabilityPool} {reserve coll debt r : Nat} {i f : Address}

/-- The part of a gain that goes to a depositor with a tag, out of `DECIMAL_PRECISION`. -/
def depositorShare (tag : Address) (p : StabilityPool) : Nat :=
  if tag = 0 then DECIMAL_PRECISION else (p.frontEnds tag).kickbackRate

/-- The part of a gain that goes to a front end. -/
def frontEndShare (frontEnd : Address) (p : StabilityPool) : Nat :=
  if frontEnd = 0 then 0 else DECIMAL_PRECISION - (p.frontEnds frontEnd).kickbackRate

theorem shares_add (h : (p.frontEnds f).kickbackRate ≤ DECIMAL_PRECISION) :
    p.depositorShare f + p.frontEndShare f = DECIMAL_PRECISION := by
  unfold depositorShare frontEndShare
  split
  · rfl
  · exact Nat.add_sub_cancel' h

/-- What a gain is counted in: both the sums and the parts are scaled. -/
def LQTYPrecision : Nat := DECIMAL_PRECISION * DECIMAL_PRECISION

theorem LQTYPrecision_pos : 0 < LQTYPrecision :=
  Nat.mul_pos (Nat.pow_pos (by decide)) (Nat.pow_pos (by decide))

/-- The claims of depositors and of front ends to LQTY, with `reserve` behind them. -/
def LQTYPool (reserve : Nat) (p : StabilityPool) : ProductSum.Pool (Address ⊕ Address) where
  deposit := Sum.elim
    (fun i => p.depositorShare (p.deposits i).frontEndTag * (p.deposits i).initialValue)
    (fun f => p.frontEndShare f * p.frontEndStakes f)
  snapshot := Sum.elim (fun i => (p.depositSnapshots i).forLQTY)
    (fun f => (p.frontEndSnapshots f).forLQTY)
  total := DECIMAL_PRECISION * p.totalLUSDDeposits
  reserve := reserve
  P := p.P
  scale := p.currentScale
  epoch := p.currentEpoch
  sum := p.epochToScaleToG
  error := DECIMAL_PRECISION * p.lastLQTYError

/-! ## Readings -/

theorem shareOfGain_le {sums : Nat → Nat → Nat} {sumSnapshot stake gain : Nat}
    {snapshots : Snapshots} (share : Nat) (h : gainFromSnapshots sums sumSnapshot stake snapshots = .ok gain) :
    (LQTYPrecision : ℚ) * (share * gain / DECIMAL_PRECISION : Nat) ≤
      (share * stake : Nat) * ((sums snapshots.epoch snapshots.scale : ℚ) - sumSnapshot +
        sums snapshots.epoch (snapshots.scale + 1) / SCALE_FACTOR) / snapshots.P := by
  have hgain := gainFromSnapshots_le h
  have hshare : DECIMAL_PRECISION * (share * gain / DECIMAL_PRECISION) ≤ share * gain :=
    Nat.mul_div_le _ _
  have hshareQ : (DECIMAL_PRECISION : ℚ) * (share * gain / DECIMAL_PRECISION : Nat) ≤ share * gain := by
    exact_mod_cast hshare
  calc (LQTYPrecision : ℚ) * (share * gain / DECIMAL_PRECISION : Nat)
      = DECIMAL_PRECISION * (DECIMAL_PRECISION * (share * gain / DECIMAL_PRECISION : Nat)) := by
        rw [LQTYPrecision, Nat.cast_mul, mul_assoc]
    _ ≤ DECIMAL_PRECISION * (share * gain) := by gcongr
    _ = share * (DECIMAL_PRECISION * gain) := by ring
    _ ≤ share * (stake * ((sums snapshots.epoch snapshots.scale : ℚ) - sumSnapshot +
        sums snapshots.epoch (snapshots.scale + 1) / SCALE_FACTOR) / snapshots.P) := by gcongr
    _ = _ := by
        push_cast
        ring

theorem getDepositorLQTYGain_le (h : p.getDepositorLQTYGain i = .ok r) (reserve : Nat) :
    (LQTYPrecision : ℚ) * r ≤ (p.LQTYPool reserve).gain SCALE_FACTOR (.inl i) := by
  simp only [getDepositorLQTYGain] at h
  split at h
  next hzero =>
    cases h
    rw [ProductSum.Pool.gain_of_deposit_eq_zero (by simp [LQTYPool, hzero])]
    simp
  next =>
    simp only [bind_ok, mul_ok, div_ok] at h
    obtain ⟨gain, hgain, _, ⟨-, rfl⟩, -, rfl⟩ := h
    exact shareOfGain_le _ hgain

theorem getFrontEndLQTYGain_le (hf : f ≠ 0) (h : p.getFrontEndLQTYGain f = .ok r) (reserve : Nat) :
    (LQTYPrecision : ℚ) * r ≤ (p.LQTYPool reserve).gain SCALE_FACTOR (.inr f) := by
  simp only [getFrontEndLQTYGain] at h
  split at h
  next hzero =>
    cases h
    rw [ProductSum.Pool.gain_of_deposit_eq_zero (by simp [LQTYPool, hzero])]
    simp
  next =>
    simp only [bind_ok, mul_ok, div_ok, sub_ok] at h
    obtain ⟨_, ⟨-, rfl⟩, gain, hgain, _, ⟨-, rfl⟩, -, rfl⟩ := h
    have hshare : p.frontEndShare f = DECIMAL_PRECISION - (p.frontEnds f).kickbackRate := if_neg hf
    have hle := shareOfGain_le (p.frontEndShare f) hgain
    rw [hshare] at hle
    have hdeposit : (p.LQTYPool reserve).deposit (.inr f) =
        (DECIMAL_PRECISION - (p.frontEnds f).kickbackRate) * p.frontEndStakes f := by
      rw [← hshare]
      rfl
    rw [ProductSum.Pool.gain, hdeposit]
    exact hle

/-- A part of a compounded stake is at most the part of its exact value. -/
theorem shareOfStake_le {share stake compounded : Nat} {snapshots : Snapshots}
    (h : p.getCompoundedStakeFromSnapshots stake snapshots = .ok compounded) :
    ((share * compounded : Nat) : ℚ) ≤ if snapshots.epoch < p.currentEpoch then 0
      else (share * stake : Nat) * p.P /
        (snapshots.P * (SCALE_FACTOR : ℚ) ^ (p.currentScale - snapshots.scale)) := by
  have hle := getCompoundedStakeFromSnapshots_le h
  push_cast
  split
  next hepoch =>
    rw [if_pos hepoch] at hle
    exact mul_nonpos_of_nonneg_of_nonpos (by positivity) hle
  next hepoch =>
    rw [if_neg hepoch] at hle
    rw [mul_assoc, mul_div_assoc]
    gcongr

theorem depositorShare_compounded_le (h : p.getCompoundedLUSDDeposit i = .ok r) (reserve : Nat) :
    ((p.depositorShare (p.deposits i).frontEndTag * r : Nat) : ℚ) ≤
      (p.LQTYPool reserve).value SCALE_FACTOR (.inl i) := by
  simp only [getCompoundedLUSDDeposit] at h
  split at h
  next =>
    cases h
    rw [Nat.mul_zero, Nat.cast_zero]
    exact ProductSum.Pool.value_nonneg
  next => exact shareOfStake_le h

theorem frontEndShare_compounded_le (h : p.getCompoundedFrontEndStake f = .ok r) (reserve : Nat) :
    ((p.frontEndShare f * r : Nat) : ℚ) ≤ (p.LQTYPool reserve).value SCALE_FACTOR (.inr f) := by
  simp only [getCompoundedFrontEndStake] at h
  split at h
  next =>
    cases h
    rw [Nat.mul_zero, Nat.cast_zero]
    exact ProductSum.Pool.value_nonneg
  next => exact shareOfStake_le h

/-! ## Issuances and offsets -/

theorem scaled_error {perUnit total error issuance lastError : Nat} (D : Nat)
    (h : perUnit * total + error = issuance * D + lastError) :
    perUnit * (D * total) + D * error = issuance * (D * D) + D * lastError := by
  linear_combination D * h

/-- An issuance is an offset of no debt. -/
theorem LQTYPool_issuance {issuance perUnit error : Nat} (hp : 0 < p.P)
    (h : perUnit * p.totalLUSDDeposits + error = issuance * DECIMAL_PRECISION + p.lastLQTYError) :
    Offset LQTYPrecision 0 issuance perUnit (p.LQTYPool reserve)
      (LQTYPool (reserve + issuance) { p with
        epochToScaleToG := setSum p.epochToScaleToG p.currentEpoch p.currentScale
          (p.epochToScaleToG p.currentEpoch p.currentScale + perUnit * p.P)
        lastLQTYError := error }) where
  deposit_eq := rfl
  snapshot_eq := rfl
  loss_le := Nat.zero_le _
  total_eq := (Nat.sub_zero _).symm
  reserve_eq := rfl
  sum_eq e k := by
    change setSum _ _ _ _ e k = if e = p.currentEpoch ∧ k = p.currentScale then
      p.epochToScaleToG e k + perUnit * p.P else p.epochToScaleToG e k
    rw [setSum_apply]
    by_cases hek : e = p.currentEpoch ∧ k = p.currentScale
    · rw [if_pos hek, if_pos hek, hek.1, hek.2]
    · rw [if_neg hek, if_neg hek]
  error_eq := scaled_error DECIMAL_PRECISION h
  P_pos := hp
  moves := .inr ⟨rfl, .inl rfl⟩

/-- What is issued is gained by the deposits and stakes, or by nobody. -/
theorem LQTYPool_issued {issuance : Nat} (h : p.updateG issuance = .ok q)
    (hp : (p.LQTYPool reserve).Covered SCALE_FACTOR LQTYPrecision) :
    (q.LQTYPool (reserve + issuance)).Covered SCALE_FACTOR LQTYPrecision := by
  rcases updateG_inversion h with rfl | ⟨perUnit, error, herror, rfl⟩
  · exact hp.addReserve issuance
  · refine (LQTYPool_issuance hp.P_pos herror).covered hp (by decide) fun _ => ?_
    change p.P * (p.LQTYPool reserve).total ≤
      p.P * ((p.LQTYPool reserve).total - 0) * SCALE_FACTOR ^ (p.currentScale - p.currentScale)
    rw [Nat.sub_zero, Nat.sub_self, pow_zero, Nat.mul_one]

/-- An offset shrinks deposits and stakes and leaves their gains. -/
theorem LQTYPool_offset {perUnit : Nat} (h : p.Absorbs debt coll q)
    (ho : Offset DECIMAL_PRECISION debt coll perUnit p.pool q.pool) :
    Offset LQTYPrecision (DECIMAL_PRECISION * debt) 0 0 (p.LQTYPool reserve) (q.LQTYPool reserve) := by
  obtain ⟨hle, gain, loss, error, r, -, -, -, -, -, rfl⟩ := h.inversion
  refine ⟨rfl, rfl, Nat.mul_le_mul_left _ hle, Nat.mul_sub _ _ _, rfl, fun e k => ?_, ?_, ho.P_pos,
    ho.moves⟩
  · rw [Nat.zero_mul, Nat.add_zero, ite_self]
    rfl
  · rw [Nat.zero_mul, Nat.zero_mul]
    rfl

theorem LQTYPool_absorbs (h : p.Absorbs debt coll q) (hcovered : p.LossCovered debt)
    (hp : (p.LQTYPool reserve).Covered SCALE_FACTOR LQTYPrecision) :
    (q.LQTYPool reserve).Covered SCALE_FACTOR LQTYPrecision := by
  obtain ⟨perUnit, ho⟩ := h.offset
  refine (LQTYPool_offset h ho).covered hp (by decide) fun hepoch => ?_
  have hbound := h.shrinksEnough hcovered hepoch
  change q.P * (DECIMAL_PRECISION * p.totalLUSDDeposits) ≤ p.P * (DECIMAL_PRECISION *
    p.totalLUSDDeposits - DECIMAL_PRECISION * debt) * SCALE_FACTOR ^ (q.currentScale - p.currentScale)
  change q.P * p.totalLUSDDeposits ≤ p.P * (p.totalLUSDDeposits - debt) *
    SCALE_FACTOR ^ (q.currentScale - p.currentScale) at hbound
  generalize SCALE_FACTOR ^ (q.currentScale - p.currentScale) = k at hbound ⊢
  rw [← Nat.mul_sub]
  calc q.P * (DECIMAL_PRECISION * p.totalLUSDDeposits)
      = DECIMAL_PRECISION * (q.P * p.totalLUSDDeposits) := Nat.mul_left_comm ..
    _ ≤ DECIMAL_PRECISION * (p.P * (p.totalLUSDDeposits - debt) * k) := Nat.mul_le_mul_left _ hbound
    _ = p.P * (DECIMAL_PRECISION * (p.totalLUSDDeposits - debt)) * k := by ring

/-! ## Replacing a deposit -/

section Redeposit

variable (p) (value stake total paid : Nat)

theorem redeposited_LQTYPool_deposit (reserve : Nat) :
    ((p.redeposited i f value stake total paid).LQTYPool reserve).deposit =
      Function.update (Function.update (p.LQTYPool reserve).deposit (.inr f)
        (p.frontEndShare f * stake)) (.inl i) (p.depositorShare f * value) := by
  have hkept := redeposited_kept p i f value stake total paid
  obtain ⟨htags, htag⟩ := redeposited_frontEndTag p i f value stake total paid
  funext x
  cases x with
  | inl j =>
    change depositorShare ((p.redeposited i f value stake total paid).deposits j).frontEndTag
      (p.redeposited i f value stake total paid) *
        ((p.redeposited i f value stake total paid).deposits j).initialValue = _
    rw [(redeposited_deposit p i f value stake total paid j).1, depositorShare, hkept.frontEnds]
    by_cases hj : j = i
    · subst hj
      rw [if_pos rfl, Function.update_self]
      -- an emptied deposit has no tag any more, and no part either
      by_cases hvalue : value = 0
      · rw [hvalue, Nat.mul_zero, Nat.mul_zero]
      · rw [htag hvalue]
        rfl
    · rw [if_neg hj, htags j hj, Function.update_of_ne (fun heq => hj (Sum.inl_injective heq)),
        Function.update_of_ne (by simp)]
      rfl
  | inr g =>
    change frontEndShare g (p.redeposited i f value stake total paid) *
      (p.redeposited i f value stake total paid).frontEndStakes g = _
    rw [(redeposited_stake p i f value stake total paid g).1, frontEndShare, hkept.frontEnds,
      Function.update_of_ne (by simp)]
    by_cases hg : g = f
    · subst hg
      rw [if_pos rfl, Function.update_self]
      rfl
    · rw [if_neg hg, Function.update_of_ne (fun heq => hg (Sum.inr_injective heq))]
      rfl

theorem redeposited_LQTYPool_snapshot (reserve : Nat) :
    ((p.redeposited i f value stake total paid).LQTYPool reserve).snapshot =
      Function.update (Function.update (p.LQTYPool reserve).snapshot (.inr f)
        ((p.redeposited i f value stake total paid).frontEndSnapshots f).forLQTY) (.inl i)
        ((p.redeposited i f value stake total paid).depositSnapshots i).forLQTY := by
  funext x
  cases x with
  | inl j =>
    by_cases hj : j = i
    · subst hj
      rw [Function.update_self]
      rfl
    · rw [Function.update_of_ne (fun heq => hj (Sum.inl_injective heq)), Function.update_of_ne (by simp)]
      change ((p.redeposited i f value stake total paid).depositSnapshots j).forLQTY = _
      rw [(redeposited_deposit p i f value stake total paid j).2.1 hj]
      rfl
  | inr g =>
    rw [Function.update_of_ne (by simp)]
    by_cases hg : g = f
    · subst hg
      rw [Function.update_self]
      rfl
    · rw [Function.update_of_ne (fun heq => hg (Sum.inr_injective heq))]
      change ((p.redeposited i f value stake total paid).frontEndSnapshots g).forLQTY = _
      rw [(redeposited_stake p i f value stake total paid g).2.1 hg]
      rfl

theorem redeposited_lastLQTYError :
    (p.redeposited i f value stake total paid).lastLQTYError = p.lastLQTYError := by
  unfold redeposited updateDepositAndSnapshots updateFrontEndStakeAndSnapshots
  split <;> split <;> rfl

/-- A depositor operation writes the stake of the front end and the deposit. -/
theorem redeposited_LQTYPool (reserve between between' left : Nat) :
    (p.redeposited i f value stake total paid).LQTYPool left =
      ((p.LQTYPool reserve).redeposit (.inr f) (p.frontEndShare f * stake)
        ((p.redeposited i f value stake total paid).frontEndSnapshots f).forLQTY between
          between').redeposit (.inl i) (p.depositorShare f * value)
        ((p.redeposited i f value stake total paid).depositSnapshots i).forLQTY
          (DECIMAL_PRECISION * total) left := by
  have hkept := redeposited_kept p i f value stake total paid
  have hdeposit := redeposited_LQTYPool_deposit (i := i) (f := f) p value stake total paid reserve
  have hsnapshot := redeposited_LQTYPool_snapshot (i := i) (f := f) p value stake total paid reserve
  unfold ProductSum.Pool.redeposit
  dsimp only
  rw [← hdeposit, ← hsnapshot]
  simp only [LQTYPool, hkept.P, hkept.currentScale, hkept.currentEpoch, hkept.epochToScaleToG,
    redeposited_lastLQTYError]
  rfl

theorem redeposited_stakeSnapshot (reserve : Nat) (h : p.frontEndShare f * stake ≠ 0) :
    ((p.redeposited i f value stake total paid).frontEndSnapshots f).forLQTY =
      (p.LQTYPool reserve).current := by
  rw [(redeposited_stake p i f value stake total paid f).2.2 (Nat.ne_zero_of_mul_ne_zero_right h)]
  rfl

theorem redeposited_depositSnapshot (reserve : Nat) (h : p.depositorShare f * value ≠ 0) :
    ((p.redeposited i f value stake total paid).depositSnapshots i).forLQTY =
      (p.LQTYPool reserve).current := by
  rw [(redeposited_deposit p i f value stake total paid i).2.2 (Nat.ne_zero_of_mul_ne_zero_right h)]
  rfl

end Redeposit

/-- What a front end is paid when a deposit tagged with it is rewritten: nobody is behind the zero
tag. -/
def FrontEndPaid (p : StabilityPool) (frontEnd : Address) (amount : Nat) : Prop :=
  (frontEnd = 0 ∧ amount = 0) ∨ (frontEnd ≠ 0 ∧ p.getFrontEndLQTYGain frontEnd = .ok amount)

theorem FrontEndPaid.le {amount : Nat} (h : p.FrontEndPaid f amount)
    (hp : (p.LQTYPool reserve).Consistent) :
    (LQTYPrecision : ℚ) * amount ≤ (p.LQTYPool reserve).gain SCALE_FACTOR (.inr f) := by
  rcases h with ⟨-, rfl⟩ | ⟨hf, hgain⟩
  · rw [Nat.cast_zero, mul_zero]
    exact hp.gain_nonneg _
  · exact getFrontEndLQTYGain_le hf hgain reserve

/-- A deposit that is tagged with `f` or empty reads at most its part for `f`. -/
theorem depositorShare_compounded_le_of_tag {compounded : Nat}
    (htag : (p.deposits i).initialValue ≠ 0 → (p.deposits i).frontEndTag = f)
    (h : p.getCompoundedLUSDDeposit i = .ok compounded) (reserve : Nat) :
    ((p.depositorShare f * compounded : Nat) : ℚ) ≤
      (p.LQTYPool reserve).value SCALE_FACTOR (.inl i) := by
  by_cases hzero : (p.deposits i).initialValue = 0
  · have hnone : p.getCompoundedLUSDDeposit i = .ok 0 := if_pos hzero
    rw [hnone] at h
    cases h
    rw [Nat.mul_zero, Nat.cast_zero]
    exact ProductSum.Pool.value_nonneg
  · rw [← htag hzero]
    exact depositorShare_compounded_le h reserve

/-- Both parts of a deposit are paid their gains before the deposit and the stake are rewritten. -/
theorem LQTYPool_redeposited {value stake compounded compoundedStake total frontEndGain gain : Nat}
    (paid : Nat) (hp : (p.LQTYPool reserve).Covered SCALE_FACTOR LQTYPrecision)
    (hrate : (p.frontEnds f).kickbackRate ≤ DECIMAL_PRECISION)
    (htag : (p.deposits i).initialValue ≠ 0 → (p.deposits i).frontEndTag = f)
    (hcompounded : p.getCompoundedLUSDDeposit i = .ok compounded)
    (hstake : p.getCompoundedFrontEndStake f = .ok compoundedStake)
    (hfrontEnd : p.FrontEndPaid f frontEndGain) (hgain : p.getDepositorLQTYGain i = .ok gain)
    (hstakeeq : stake + compounded = compoundedStake + value)
    (htotal : total + compounded = p.totalLUSDDeposits + value) :
    frontEndGain + gain ≤ reserve ∧
      ((p.redeposited i f value stake total paid).LQTYPool (reserve - frontEndGain - gain)).Covered
        SCALE_FACTOR LQTYPrecision := by
  have hprecision := LQTYPrecision_pos
  have hshares := shares_add hrate
  -- first the stake of the front end is rewritten
  have hread := frontEndShare_compounded_le hstake reserve
  have hpaid := hfrontEnd.le hp.toConsistent
  have hpaid_le : frontEndGain ≤ reserve := hp.paid_le hprecision hpaid
  have hread_le : p.frontEndShare f * compoundedStake ≤ (p.LQTYPool reserve).total :=
    hp.reading_le hread
  obtain ⟨between, hbetween⟩ : ∃ between, between + p.frontEndShare f * compoundedStake =
      (p.LQTYPool reserve).total + p.frontEndShare f * stake :=
    ⟨_, Nat.sub_add_cancel (hread_le.trans (Nat.le_add_right _ _))⟩
  have hsnapshot := redeposited_stakeSnapshot (i := i) (f := f) p value stake total paid reserve
  have hfirst := hp.redeposit hsnapshot hread hbetween hpaid hpaid_le
  -- then the deposit, whose value and gain are still the same
  have hne : (Sum.inl i : Address ⊕ Address) ≠ .inr f := Sum.inl_ne_inr
  have hread' := depositorShare_compounded_le_of_tag htag hcompounded reserve
  have hpaid' := getDepositorLQTYGain_le hgain reserve
  rw [← ProductSum.Pool.redeposit_value_of_ne hne] at hread'
  rw [← ProductSum.Pool.redeposit_gain_of_ne hne] at hpaid'
  have hpaid_le' : gain ≤ reserve - frontEndGain := hfirst.paid_le hprecision hpaid'
  refine ⟨by omega, ?_⟩
  rw [redeposited_LQTYPool p value stake total paid reserve between (reserve - frontEndGain)]
  have hsnapshot' := redeposited_depositSnapshot (i := i) (f := f) p value stake total paid reserve
  refine hfirst.redeposit hsnapshot' hread' ?_ hpaid' hpaid_le'
  -- the parts add up to the whole
  change DECIMAL_PRECISION * total + p.depositorShare f * compounded = between + p.depositorShare f * value
  change between + p.frontEndShare f * compoundedStake =
    DECIMAL_PRECISION * p.totalLUSDDeposits + p.frontEndShare f * stake at hbetween
  have hdeposit : p.depositorShare f * (total + compounded) =
      p.depositorShare f * (p.totalLUSDDeposits + value) := by rw [htotal]
  have hstakes : p.frontEndShare f * (total + compoundedStake) =
      p.frontEndShare f * (p.totalLUSDDeposits + stake) := by
    congr 1
    omega
  rw [← hshares] at hbetween ⊢
  linarith

/-! ## Registering a front end -/

/-- A front end that registers had no stake and no deposits. -/
theorem LQTYPool_registered {kickbackRate : Nat} (a : Address) (hstake : p.frontEndStakes a = 0)
    (htag : ∀ i, (p.deposits i).initialValue ≠ 0 → (p.deposits i).frontEndTag ≠ a) :
    LQTYPool reserve { p with
      frontEnds := Function.update p.frontEnds a { kickbackRate, registered := true } } =
      p.LQTYPool reserve := by
  simp only [LQTYPool, ProductSum.Pool.mk.injEq, and_true]
  funext x
  cases x with
  | inl i =>
    simp only [Sum.elim_inl, depositorShare]
    by_cases hi : (p.deposits i).initialValue = 0
    · rw [hi, Nat.mul_zero, Nat.mul_zero]
    · rw [Function.update_of_ne (htag i hi)]
  | inr f =>
    simp only [Sum.elim_inr, frontEndShare]
    by_cases hf : f = a
    · rw [hf, hstake, Nat.mul_zero, Nat.mul_zero]
    · rw [Function.update_of_ne hf]

/-! ## The invariant -/

/-- `reserve` covers all LQTY gains, and deposits and stakes belong to registered front ends, or to
the zero address. -/
structure GainsCovered (reserve : Nat) (p : StabilityPool) : Prop where
  covered : (p.LQTYPool reserve).Covered SCALE_FACTOR LQTYPrecision
  zero_unregistered : (p.frontEnds 0).registered = false
  rate_le : ∀ f, (p.frontEnds f).kickbackRate ≤ DECIMAL_PRECISION
  stake_eq_zero : ∀ f, f ≠ 0 → (p.frontEnds f).registered = false → p.frontEndStakes f = 0
  tag : ∀ i, (p.deposits i).initialValue ≠ 0 → (p.deposits i).frontEndTag = 0 ∨
    (p.frontEnds (p.deposits i).frontEndTag).registered = true

namespace GainsCovered

theorem issued {issuance : Nat} (h : p.GainsCovered reserve) (hq : p.updateG issuance = .ok q) :
    q.GainsCovered (reserve + issuance) := by
  have hcovered := LQTYPool_issued hq h.covered
  obtain ⟨⟨error, G, rfl⟩, -⟩ := updateG_ok hq
  exact ⟨hcovered, h.zero_unregistered, h.rate_le, h.stake_eq_zero, h.tag⟩

theorem absorbs (h : p.GainsCovered reserve) (hq : p.Absorbs debt coll q)
    (hloss : p.LossCovered debt) : q.GainsCovered reserve := by
  have hcovered := LQTYPool_absorbs hq hloss h.covered
  obtain ⟨-, gain, loss, error, r, -, -, -, -, -, rfl⟩ := hq.inversion
  exact ⟨hcovered, h.zero_unregistered, h.rate_le, h.stake_eq_zero, h.tag⟩

theorem registered (h : p.GainsCovered reserve) {a : Address} {kickbackRate : Nat} (ha : a ≠ 0)
    (hunregistered : (p.frontEnds a).registered = false) (hvalid : kickbackRate ≤ DECIMAL_PRECISION) :
    GainsCovered reserve { p with
      frontEnds := Function.update p.frontEnds a { kickbackRate, registered := true } } := by
  have htag : ∀ i, (p.deposits i).initialValue ≠ 0 → (p.deposits i).frontEndTag ≠ a := by
    rintro i hi rfl
    rcases h.tag i hi with hzero | hregistered
    · exact ha hzero
    · rw [hunregistered] at hregistered
      cases hregistered
  constructor
  case covered =>
    rw [LQTYPool_registered a (h.stake_eq_zero a ha hunregistered) htag]
    exact h.covered
  all_goals dsimp only
  case zero_unregistered =>
    rw [Function.update_of_ne ha.symm]
    exact h.zero_unregistered
  case rate_le =>
    intro f
    by_cases hfa : f = a
    · subst hfa
      rw [Function.update_self]
      exact hvalid
    · rw [Function.update_of_ne hfa]
      exact h.rate_le f
  case stake_eq_zero =>
    intro f hf hfree
    by_cases hfa : f = a
    · subst hfa
      exact h.stake_eq_zero f ha hunregistered
    · rw [Function.update_of_ne hfa] at hfree
      exact h.stake_eq_zero f hf hfree
  case tag =>
    intro i hi
    rw [Function.update_of_ne (htag i hi)]
    exact h.tag i hi

theorem redeposited {value stake compounded compoundedStake total frontEndGain gain : Nat} (paid : Nat)
    (h : p.GainsCovered reserve) (hf : f = 0 ∨ (p.frontEnds f).registered = true)
    (htag : (p.deposits i).initialValue ≠ 0 → (p.deposits i).frontEndTag = f)
    (hcompounded : p.getCompoundedLUSDDeposit i = .ok compounded)
    (hstake : p.getCompoundedFrontEndStake f = .ok compoundedStake)
    (hfrontEnd : p.FrontEndPaid f frontEndGain) (hgain : p.getDepositorLQTYGain i = .ok gain)
    (hstakeeq : stake + compounded = compoundedStake + value)
    (htotal : total + compounded = p.totalLUSDDeposits + value) :
    frontEndGain + gain ≤ reserve ∧
      (p.redeposited i f value stake total paid).GainsCovered (reserve - frontEndGain - gain) := by
  obtain ⟨hle, hcovered⟩ := LQTYPool_redeposited paid h.covered (h.rate_le f) htag hcompounded hstake
    hfrontEnd hgain hstakeeq htotal
  have hfrontEnds := (redeposited_kept p i f value stake total paid).frontEnds
  obtain ⟨htags, htagged⟩ := redeposited_frontEndTag p i f value stake total paid
  refine ⟨hle, hcovered, ?_, fun g => ?_, fun g hg hfree => ?_, fun j hj => ?_⟩
  · rw [hfrontEnds]
    exact h.zero_unregistered
  · rw [hfrontEnds]
    exact h.rate_le g
  · rw [hfrontEnds] at hfree
    -- the stake that is written is that of a registered front end
    have hgf : g ≠ f := by
      rintro rfl
      rcases hf with hzero | hregistered
      · exact hg hzero
      · rw [hfree] at hregistered
        cases hregistered
    rw [(redeposited_stake p i f value stake total paid g).1, if_neg hgf]
    exact h.stake_eq_zero g hg hfree
  · rw [hfrontEnds]
    rw [(redeposited_deposit p i f value stake total paid j).1] at hj
    by_cases hji : j = i
    · subst hji
      rw [if_pos rfl] at hj
      rw [htagged hj]
      exact hf
    · rw [if_neg hji] at hj
      rw [htags j hji]
      exact h.tag j hj

end GainsCovered

end StabilityPool

end Liquity
