import Mathlib.Data.Nat.Cast.Order.Field
import Liquity.Deposits
import Liquity.Lib.ProductSum

/-!
# The Stability Pool as a pool that shrinks by a running product

The deposits and ETH gains of the contract are those of a `ProductSum.Pool`.  An offset is a loss of
that pool, a depositor operation replaces one deposit, and what a depositor reads back is at most the
exact value and gain.  An offset charges the deposits a loss per unit that is rounded up and gives
the excess charge back through the next one, so the product shrinks enough as long as what is given
back does not exceed what rounding up adds.
-/

open Lib

namespace Liquity

open SafeMath LiquityMath

namespace StabilityPool

open ProductSum.Pool (Offset ShrinksEnough)

variable {p p' q : StabilityPool} {coll debt r : Nat} {b : Address}

/-- What the Stability Pool's deposits and ETH gains rest on. -/
def pool (p : StabilityPool) : ProductSum.Pool Address where
  deposit a := (p.deposits a).initialValue
  snapshot a :=
    ⟨(p.depositSnapshots a).S, (p.depositSnapshots a).P, (p.depositSnapshots a).scale,
      (p.depositSnapshots a).epoch⟩
  total := p.totalLUSDDeposits
  reserve := p.ETH
  P := p.P
  scale := p.currentScale
  epoch := p.currentEpoch
  sum := p.epochToScaleToSum
  error := p.lastETHError_Offset

/-! ## Sums by epoch and scale -/

theorem setSum_apply (sums : Nat → Nat → Nat) (epoch scale value e k : Nat) :
    setSum sums epoch scale value e k = if e = epoch ∧ k = scale then value else sums e k := by
  unfold setSum
  by_cases he : e = epoch
  · subst he
    by_cases hk : k = scale
    · subst hk
      simp
    · simp [hk]
  · simp [he]

/-! ## Issuing LQTY -/

/-- The two pools differ at most in what they keep for the LQTY gains. -/
def Issued (p q : StabilityPool) : Prop :=
  ∃ lastLQTYError epochToScaleToG, q = { p with lastLQTYError, epochToScaleToG }

theorem Issued.refl (p : StabilityPool) : p.Issued p := ⟨_, _, rfl⟩

theorem Issued.pool_eq (h : p.Issued q) : q.pool = p.pool := by
  obtain ⟨error, G, rfl⟩ := h
  rfl

theorem computeLQTYPerUnitStaked_ok {issuance total : Nat} {perUnit : Nat × StabilityPool}
    (h : computeLQTYPerUnitStaked issuance total p = .ok perUnit) :
    ∃ error, perUnit.1 * total + error = issuance * DECIMAL_PRECISION + p.lastLQTYError ∧
      perUnit.2 = { p with lastLQTYError := error } := by
  simp only [computeLQTYPerUnitStaked, bind_ok, pure_ok, mul_ok, add_ok, div_ok, sub_ok] at h
  obtain ⟨_, ⟨-, rfl⟩, _, ⟨-, rfl⟩, _, ⟨-, rfl⟩, _, ⟨-, rfl⟩, _, ⟨hle, rfl⟩, rfl⟩ := h
  exact ⟨_, Nat.add_sub_cancel' hle, rfl⟩

/-- Nothing changes, or one entry of the sums of gains and the carried remainder. -/
theorem updateG_inversion {issuance : Nat} (h : updateG issuance p = .ok q) :
    q = p ∨ ∃ perUnit error,
      perUnit * p.totalLUSDDeposits + error = issuance * DECIMAL_PRECISION + p.lastLQTYError ∧
      q = { p with
        epochToScaleToG := setSum p.epochToScaleToG p.currentEpoch p.currentScale
          (p.epochToScaleToG p.currentEpoch p.currentScale + perUnit * p.P)
        lastLQTYError := error } := by
  unfold updateG at h
  split at h
  · cases h
    exact .inl rfl
  · simp only [bind_ok, pure_ok, mul_ok, add_ok] at h
    obtain ⟨perUnit, hperUnit, _, ⟨-, rfl⟩, _, ⟨-, rfl⟩, rfl⟩ := h
    obtain ⟨error, herror, hpool⟩ := computeLQTYPerUnitStaked_ok hperUnit
    rw [hpool]
    exact .inr ⟨_, _, herror, rfl⟩

theorem updateG_ok {issuance : Nat} (h : updateG issuance p = .ok q) :
    p.Issued q ∧ ∀ e k, p.epochToScaleToG e k ≤ q.epochToScaleToG e k := by
  rcases updateG_inversion h with rfl | ⟨perUnit, error, -, rfl⟩
  · exact ⟨.refl q, fun _ _ => Nat.le_refl _⟩
  · refine ⟨⟨_, _, rfl⟩, fun e k => ?_⟩
    -- only the entry of the current epoch and scale is written, and it grows
    simp only [setSum_apply]
    split
    next hek =>
      rw [hek.1, hek.2]
      exact Nat.le_add_right _ _
    next => exact Nat.le_refl _

/-! ## Offsets -/

/-- The loss that an offset charges per unit covers its debt, which is not zero: the excess charge
carried over from the last offset is at most what rounding the loss up adds. -/
def LossCovered (p : StabilityPool) (debtToOffset : Nat) : Prop :=
  debtToOffset = p.totalLUSDDeposits ∨
    (debtToOffset * DECIMAL_PRECISION - p.lastLUSDLossError_Offset) % p.totalLUSDDeposits +
      p.lastLUSDLossError_Offset ≤ p.totalLUSDDeposits

instance (p : StabilityPool) (debtToOffset : Nat) : Decidable (p.LossCovered debtToOffset) :=
  inferInstanceAs (Decidable (_ ∨ _))

/-- The pool absorbs `debt` for `coll` and becomes `q`. -/
def Absorbs (p : StabilityPool) (debt coll : Nat) (q : StabilityPool) : Prop :=
  ∃ rewards p', p.computeRewardsPerUnitStaked coll debt p.totalLUSDDeposits = .ok rewards ∧
    rewards.2.updateRewardSumAndProduct rewards.1.1 rewards.1.2 = .ok p' ∧
    q = { p' with
      totalLUSDDeposits := p'.totalLUSDDeposits - debt, ETH := p'.ETH + coll }

/-- The loss per unit staked. -/
theorem computeLUSDLossPerUnitStaked_ok {total lastError : Nat} {loss : Nat × Nat}
    (h : computeLUSDLossPerUnitStaked debt total lastError = .ok loss) :
    (debt = total ∧ loss.1 = DECIMAL_PRECISION) ∨
      (debt ≠ total ∧ lastError ≤ debt * DECIMAL_PRECISION ∧ 0 < total ∧
        loss.1 = (debt * DECIMAL_PRECISION - lastError) / total + 1) := by
  unfold computeLUSDLossPerUnitStaked at h
  split at h
  next heq =>
    cases h
    exact .inl ⟨heq, rfl⟩
  next hne =>
    simp only [bind_ok, pure_ok, mul_ok, sub_ok, div_ok, add_ok] at h
    obtain ⟨_, ⟨-, rfl⟩, _, ⟨hle, rfl⟩, _, ⟨hpos, rfl⟩, _, ⟨-, rfl⟩, _, ⟨-, rfl⟩, _, ⟨-, rfl⟩, rfl⟩ := h
    exact .inr ⟨hne, hle, hpos, rfl⟩

/-- The charge covers the debt, where the carried-over excess allows it. -/
theorem debt_le_charge {loss : Nat × Nat} (hp : p.LossCovered debt)
    (h : computeLUSDLossPerUnitStaked debt p.totalLUSDDeposits p.lastLUSDLossError_Offset = .ok loss) :
    debt * DECIMAL_PRECISION ≤ loss.1 * p.totalLUSDDeposits := by
  rcases computeLUSDLossPerUnitStaked_ok h with ⟨heq, hloss⟩ | ⟨hne, hle, hpos, hloss⟩
  · rw [hloss, heq, Nat.mul_comm]
  -- rounding up adds more than the carried excess takes away
  · have hcovered := hp.resolve_left hne
    have hdivmod := Nat.div_add_mod (debt * DECIMAL_PRECISION - p.lastLUSDLossError_Offset)
      p.totalLUSDDeposits
    rw [hloss, Nat.add_mul, Nat.one_mul, Nat.mul_comm (_ / _)]
    omega

theorem computeNewProduct_ok {factor : Nat} {r : NewProduct}
    (h : computeNewProduct factor p = .ok r) :
    (factor = 0 ∧ r.epoch = p.currentEpoch + 1 ∧ r.scale = 0 ∧ r.newP = DECIMAL_PRECISION) ∨
      (factor ≠ 0 ∧ r.epoch = p.currentEpoch ∧ r.scale = p.currentScale ∧
        SCALE_FACTOR ≤ p.P * factor / DECIMAL_PRECISION ∧
        r.newP = p.P * factor / DECIMAL_PRECISION) ∨
      (factor ≠ 0 ∧ r.epoch = p.currentEpoch ∧ r.scale = p.currentScale + 1 ∧
        p.P * factor / DECIMAL_PRECISION < SCALE_FACTOR ∧
        r.newP = p.P * factor * SCALE_FACTOR / DECIMAL_PRECISION) := by
  unfold computeNewProduct at h
  split at h
  next hzero =>
    simp only [bind_ok, pure_ok, LiquitySafeMath128.add_ok] at h
    obtain ⟨_, ⟨-, rfl⟩, rfl⟩ := h
    exact .inl ⟨hzero, rfl, rfl, rfl⟩
  next hne =>
    simp only [bind_ok, mul_ok, div_ok] at h
    obtain ⟨_, ⟨-, rfl⟩, _, ⟨-, rfl⟩, h⟩ := h
    split at h
    next hlt =>
      simp only [bind_ok, pure_ok, mul_ok, div_ok, LiquitySafeMath128.add_ok] at h
      obtain ⟨_, ⟨-, rfl⟩, _, ⟨-, rfl⟩, _, ⟨-, rfl⟩, rfl⟩ := h
      exact .inr (.inr ⟨hne, rfl, rfl, hlt, rfl⟩)
    next hge =>
      cases h
      exact .inr (.inl ⟨hne, rfl, rfl, Nat.le_of_not_lt hge, rfl⟩)

/-- A charge that covers the debt shrinks the product enough. -/
theorem newP_mul_le {P factor loss newP total k : Nat} (hloss : loss + factor = DECIMAL_PRECISION)
    (hcharge : debt * DECIMAL_PRECISION ≤ loss * total)
    (hP : newP * DECIMAL_PRECISION ≤ P * factor * k) : newP * total ≤ P * (total - debt) * k := by
  have hfactor : factor * total ≤ (total - debt) * DECIMAL_PRECISION := by
    have hsum : loss * total + factor * total = DECIMAL_PRECISION * total := by
      rw [← Nat.add_mul, hloss]
    rw [Nat.sub_mul, Nat.mul_comm total]
    omega
  refine Nat.le_of_mul_le_mul_right ?_ (by decide : 0 < DECIMAL_PRECISION)
  calc newP * total * DECIMAL_PRECISION = newP * DECIMAL_PRECISION * total := Nat.mul_right_comm ..
    _ ≤ P * factor * k * total := Nat.mul_le_mul_right _ hP
    _ = P * k * (factor * total) := by ring
    _ ≤ P * k * ((total - debt) * DECIMAL_PRECISION) := Nat.mul_le_mul_left _ hfactor
    _ = P * (total - debt) * k * DECIMAL_PRECISION := by ring

theorem computeRewardsPerUnitStaked_ok {total : Nat} {rewards : (Nat × Nat) × StabilityPool}
    (h : computeRewardsPerUnitStaked coll debt total p = .ok rewards) :
    debt ≤ total ∧ ∃ error loss,
      computeLUSDLossPerUnitStaked debt total p.lastLUSDLossError_Offset = .ok loss ∧
      rewards.1.1 * total + error = coll * DECIMAL_PRECISION + p.lastETHError_Offset ∧
      rewards.1.2 = loss.1 ∧
      rewards.2 = { p with lastETHError_Offset := error, lastLUSDLossError_Offset := loss.2 } := by
  simp only [computeRewardsPerUnitStaked, bind_ok, pure_ok, assertThat_ok, mul_ok, add_ok, div_ok,
    sub_ok] at h
  obtain ⟨_, ⟨-, rfl⟩, _, ⟨-, rfl⟩, -, hle, loss, hloss, gain, ⟨-, rfl⟩, _, ⟨-, rfl⟩, error,
    ⟨hdistr, rfl⟩, rfl⟩ := h
  exact ⟨hle, _, loss, hloss, Nat.add_sub_cancel' hdistr, rfl, rfl⟩

theorem updateRewardSumAndProduct_ok {gain loss : Nat}
    (h : p.updateRewardSumAndProduct gain loss = .ok p') :
    loss ≤ DECIMAL_PRECISION ∧ ∃ r, computeNewProduct (DECIMAL_PRECISION - loss) p = .ok r ∧
      0 < r.newP ∧
      p' = { p with
        epochToScaleToSum := setSum p.epochToScaleToSum p.currentEpoch p.currentScale
          (p.epochToScaleToSum p.currentEpoch p.currentScale + gain * p.P)
        P := r.newP
        currentScale := r.scale
        currentEpoch := r.epoch } := by
  simp only [updateRewardSumAndProduct, bind_ok, pure_ok, assertThat_ok, mul_ok, add_ok,
    sub_ok] at h
  obtain ⟨-, -, factor, ⟨hle, rfl⟩, _, ⟨-, rfl⟩, _, ⟨-, rfl⟩, r, hr, -, hpos, rfl⟩ := h
  exact ⟨hle, r, hr, hpos, rfl⟩

/-- The loss per unit of an offset and the pool it leaves. -/
theorem Absorbs.inversion (h : p.Absorbs debt coll q) :
    debt ≤ p.totalLUSDDeposits ∧ ∃ gain loss error r,
      computeLUSDLossPerUnitStaked debt p.totalLUSDDeposits p.lastLUSDLossError_Offset = .ok loss ∧
      gain * p.totalLUSDDeposits + error = coll * DECIMAL_PRECISION + p.lastETHError_Offset ∧
      loss.1 ≤ DECIMAL_PRECISION ∧
      computeNewProduct (DECIMAL_PRECISION - loss.1) p = .ok r ∧ 0 < r.newP ∧
      q = { p with
        ETH := p.ETH + coll
        totalLUSDDeposits := p.totalLUSDDeposits - debt
        epochToScaleToSum := setSum p.epochToScaleToSum p.currentEpoch p.currentScale
          (p.epochToScaleToSum p.currentEpoch p.currentScale + gain * p.P)
        P := r.newP
        currentScale := r.scale
        currentEpoch := r.epoch
        lastETHError_Offset := error
        lastLUSDLossError_Offset := loss.2 } := by
  obtain ⟨rewards, p', hrewards, hp', rfl⟩ := h
  obtain ⟨hle, error, loss, hloss, herror, hlosseq, hpool⟩ := computeRewardsPerUnitStaked_ok hrewards
  rw [hlosseq, hpool] at hp'
  obtain ⟨hone, r, hr, hpos, rfl⟩ := updateRewardSumAndProduct_ok hp'
  exact ⟨hle, rewards.1.1, loss, error, r, hloss, herror, hone, hr, hpos, rfl⟩

/-- An offset is a loss of the pool. -/
theorem Absorbs.offset (h : p.Absorbs debt coll q) :
    ∃ perUnit, Offset DECIMAL_PRECISION debt coll perUnit p.pool q.pool := by
  obtain ⟨hle, gain, loss, error, r, -, herror, -, hr, hpos, rfl⟩ := h.inversion
  refine ⟨gain, rfl, rfl, hle, rfl, rfl, ?_, herror, hpos, ?_⟩
  · intro e k
    change setSum _ _ _ _ e k = if e = p.currentEpoch ∧ k = p.currentScale then
      p.epochToScaleToSum e k + gain * p.P else p.epochToScaleToSum e k
    rw [setSum_apply]
    by_cases hek : e = p.currentEpoch ∧ k = p.currentScale
    · rw [if_pos hek, if_pos hek, hek.1, hek.2]
    · rw [if_neg hek, if_neg hek]
  · have hr := computeNewProduct_ok hr
    simp only [pool]
    omega

/-- An offset whose charge covers the debt shrinks the product enough. -/
theorem Absorbs.shrinksEnough (h : p.Absorbs debt coll q) (hcovered : p.LossCovered debt) :
    ShrinksEnough SCALE_FACTOR debt p.pool q.pool := by
  obtain ⟨-, gain, loss, error, r, hloss, -, hone, hr, -, rfl⟩ := h.inversion
  have hcharge := debt_le_charge hcovered hloss
  have hsum : loss.1 + (DECIMAL_PRECISION - loss.1) = DECIMAL_PRECISION := Nat.add_sub_cancel' hone
  intro hepoch
  simp only [pool] at hepoch ⊢
  -- a new epoch, the same scale, or the next one
  rcases computeNewProduct_ok hr with ⟨-, hnext, -⟩ | ⟨-, -, hscale, -, hnewP⟩ |
    ⟨-, -, hscale, -, hnewP⟩
  · omega
  · rw [hscale, Nat.sub_self, pow_zero]
    refine newP_mul_le hsum hcharge ?_
    rw [hnewP, Nat.mul_one]
    exact Nat.div_mul_le_self _ _
  · rw [hscale, Nat.add_sub_cancel_left, pow_one]
    refine newP_mul_le hsum hcharge ?_
    rw [hnewP]
    exact Nat.div_mul_le_self _ _

/-! ## Readings -/

theorem compoundedStakeAtScale_le {stake snapshot_P scaleDiff : Nat}
    (h : p.compoundedStakeAtScale stake snapshot_P scaleDiff = .ok r) :
    (r : ℚ) ≤ stake * p.P / (snapshot_P * (SCALE_FACTOR : ℚ) ^ scaleDiff) := by
  unfold compoundedStakeAtScale at h
  split at h
  next hzero =>
    simp only [bind_ok, mul_ok, div_ok] at h
    obtain ⟨_, ⟨-, rfl⟩, -, rfl⟩ := h
    rw [hzero, pow_zero, mul_one]
    exact_mod_cast Nat.cast_div_le (α := ℚ)
  next =>
    split at h
    next hone =>
      simp only [bind_ok, mul_ok, div_ok] at h
      obtain ⟨_, ⟨-, rfl⟩, _, ⟨-, rfl⟩, -, rfl⟩ := h
      rw [hone, pow_one, Nat.div_div_eq_div_mul]
      exact_mod_cast Nat.cast_div_le (α := ℚ)
    next =>
      -- two changes of scale away the reading is zero
      cases h
      rw [Nat.cast_zero]
      positivity

/-- What is read of a stake is at most its exact value. -/
theorem getCompoundedStakeFromSnapshots_le {stake : Nat} {snapshots : Snapshots}
    (h : p.getCompoundedStakeFromSnapshots stake snapshots = .ok r) :
    (r : ℚ) ≤ if snapshots.epoch < p.currentEpoch then 0
      else stake * p.P / (snapshots.P * (SCALE_FACTOR : ℚ) ^ (p.currentScale - snapshots.scale)) := by
  unfold getCompoundedStakeFromSnapshots at h
  split at h
  next hepoch =>
    cases h
    rw [if_pos hepoch, Nat.cast_zero]
  next hepoch =>
    simp only [bind_ok, pure_ok, LiquitySafeMath128.sub_ok] at h
    obtain ⟨_, ⟨-, rfl⟩, compounded, hcompounded, dust, -, rfl⟩ := h
    rw [if_neg hepoch]
    split
    · rw [Nat.cast_zero]
      positivity
    · exact compoundedStakeAtScale_le hcompounded

/-- A compounded deposit is at most the exact value. -/
theorem getCompoundedLUSDDeposit_le (h : p.getCompoundedLUSDDeposit b = .ok r) :
    (r : ℚ) ≤ p.pool.value SCALE_FACTOR b := by
  simp only [getCompoundedLUSDDeposit] at h
  split at h
  next =>
    cases h
    rw [Nat.cast_zero]
    exact ProductSum.Pool.value_nonneg
  next => exact getCompoundedStakeFromSnapshots_le h

theorem gainFromSnapshots_le {sums : Nat → Nat → Nat} {sumSnapshot stake : Nat}
    {snapshots : Snapshots} (h : gainFromSnapshots sums sumSnapshot stake snapshots = .ok r) :
    (DECIMAL_PRECISION : ℚ) * r ≤
      stake * ((sums snapshots.epoch snapshots.scale : ℚ) - sumSnapshot +
        sums snapshots.epoch (snapshots.scale + 1) / SCALE_FACTOR) / snapshots.P := by
  simp only [gainFromSnapshots, bind_ok, sub_ok, LiquitySafeMath128.add_ok, div_ok, add_ok,
    mul_ok] at h
  obtain ⟨first, ⟨hle, rfl⟩, _, ⟨-, rfl⟩, second, ⟨-, rfl⟩, _, ⟨-, rfl⟩, _, ⟨-, rfl⟩, gain, ⟨-, rfl⟩, -,
    rfl⟩ := h
  generalize sums snapshots.epoch snapshots.scale = S at hle ⊢
  generalize sums snapshots.epoch (snapshots.scale + 1) = S'
  -- every division rounds the gain down
  have hsecond : ((S' / SCALE_FACTOR : Nat) : ℚ) ≤ S' / SCALE_FACTOR := Nat.cast_div_le
  calc (DECIMAL_PRECISION : ℚ) *
        ((stake * (S - sumSnapshot + S' / SCALE_FACTOR) / snapshots.P / DECIMAL_PRECISION : Nat) : ℚ)
      ≤ ((stake * (S - sumSnapshot + S' / SCALE_FACTOR) / snapshots.P : Nat) : ℚ) := by
        exact_mod_cast Nat.mul_div_le _ _
    _ ≤ ((stake * (S - sumSnapshot + S' / SCALE_FACTOR) : Nat) : ℚ) / snapshots.P := Nat.cast_div_le
    _ = stake * ((S : ℚ) - sumSnapshot + (S' / SCALE_FACTOR : Nat)) / snapshots.P := by
        push_cast [Nat.cast_sub hle]
        rfl
    _ ≤ stake * ((S : ℚ) - sumSnapshot + S' / SCALE_FACTOR) / snapshots.P := by gcongr

/-- An ETH gain is at most the exact gain. -/
theorem getDepositorETHGain_le (h : p.getDepositorETHGain b = .ok r) :
    (DECIMAL_PRECISION : ℚ) * r ≤ p.pool.gain SCALE_FACTOR b := by
  simp only [getDepositorETHGain] at h
  split at h
  next hzero =>
    cases h
    rw [ProductSum.Pool.gain_of_deposit_eq_zero hzero]
    simp
  next => exact gainFromSnapshots_le h

/-! ## Replacing a deposit -/

/-- The pool after a depositor operation of `depositor`, whose tag is `frontEnd`: the deposit is
`value`, the front end's stake `stake`, and `paid` of ETH gain has left. -/
def redeposited (p : StabilityPool) (depositor frontEnd : Address) (value stake total paid : Nat) :
    StabilityPool :=
  { ((p.setFrontEndTag depositor frontEnd).updateFrontEndStakeAndSnapshots frontEnd
      stake).updateDepositAndSnapshots depositor value with
    totalLUSDDeposits := total
    ETH := p.ETH - paid }

theorem setFrontEndTag_pool (p : StabilityPool) (depositor tag : Address) :
    (p.setFrontEndTag depositor tag).pool = p.pool := by
  simp only [pool, setFrontEndTag, ProductSum.Pool.mk.injEq, and_true]
  funext x
  by_cases hx : x = depositor
  · subst hx
    simp
  · simp [Function.update_of_ne hx]

theorem updateFrontEndStake_pool (p : StabilityPool) (frontEnd : Address) (v : Nat) :
    (p.updateFrontEndStakeAndSnapshots frontEnd v).pool = p.pool := by
  unfold updateFrontEndStakeAndSnapshots
  split <;> rfl

/-- Writing a deposit, with any new total and ether balance. -/
theorem updateDeposit_pool (p : StabilityPool) (depositor : Address) (v total ETH : Nat) :
    ∃ snapshot, (v ≠ 0 → snapshot = p.pool.current) ∧
      { p.updateDepositAndSnapshots depositor v with totalLUSDDeposits := total, ETH := ETH }.pool =
        p.pool.redeposit depositor v snapshot total ETH := by
  unfold updateDepositAndSnapshots
  split
  next hzero =>
    subst hzero
    refine ⟨⟨0, 0, 0, 0⟩, fun hne => absurd rfl hne, ?_⟩
    simp only [pool, ProductSum.Pool.redeposit, ProductSum.Pool.mk.injEq, and_true]
    constructor <;>
    · funext x
      by_cases hx : x = depositor
      · subst hx
        simp
      · simp [Function.update_of_ne hx]
  next =>
    refine ⟨p.pool.current, fun _ => rfl, ?_⟩
    simp only [pool, ProductSum.Pool.redeposit, ProductSum.Pool.current, ProductSum.Pool.mk.injEq,
      and_true]
    constructor <;>
    · funext x
      by_cases hx : x = depositor
      · subst hx
        simp
      · simp [Function.update_of_ne hx]

theorem redeposited_pool (p : StabilityPool) (depositor frontEnd : Address)
    (value stake total paid : Nat) :
    ∃ snapshot, (value ≠ 0 → snapshot = p.pool.current) ∧
      (p.redeposited depositor frontEnd value stake total paid).pool =
        p.pool.redeposit depositor value snapshot total (p.ETH - paid) := by
  have hpool : ((p.setFrontEndTag depositor frontEnd).updateFrontEndStakeAndSnapshots frontEnd
      stake).pool = p.pool := by
    rw [updateFrontEndStake_pool, setFrontEndTag_pool]
  have h := updateDeposit_pool ((p.setFrontEndTag depositor frontEnd).updateFrontEndStakeAndSnapshots
    frontEnd stake) depositor value total (p.ETH - paid)
  rw [hpool] at h
  exact h

/-- What a depositor operation does not touch. -/
structure ProductUntouched (p q : StabilityPool) : Prop where
  P : q.P = p.P
  currentScale : q.currentScale = p.currentScale
  currentEpoch : q.currentEpoch = p.currentEpoch
  epochToScaleToSum : q.epochToScaleToSum = p.epochToScaleToSum
  epochToScaleToG : q.epochToScaleToG = p.epochToScaleToG
  frontEnds : q.frontEnds = p.frontEnds

theorem redeposited_kept (p : StabilityPool) (depositor frontEnd : Address)
    (value stake total paid : Nat) :
    p.ProductUntouched (p.redeposited depositor frontEnd value stake total paid) := by
  unfold redeposited updateDepositAndSnapshots updateFrontEndStakeAndSnapshots
  split <;> split <;> exact ⟨rfl, rfl, rfl, rfl, rfl, rfl⟩

/-- The deposits after a depositor operation. -/
theorem redeposited_deposit (p : StabilityPool) (depositor frontEnd : Address)
    (value stake total paid : Nat) (x : Address) :
    ((p.redeposited depositor frontEnd value stake total paid).deposits x).initialValue =
        (if x = depositor then value else (p.deposits x).initialValue) ∧
      (x ≠ depositor →
        (p.redeposited depositor frontEnd value stake total paid).depositSnapshots x =
          p.depositSnapshots x) ∧
      (value ≠ 0 →
        (p.redeposited depositor frontEnd value stake total paid).depositSnapshots depositor =
          ⟨p.epochToScaleToSum p.currentEpoch p.currentScale, p.P,
            p.epochToScaleToG p.currentEpoch p.currentScale, p.currentScale, p.currentEpoch⟩) := by
  unfold redeposited updateDepositAndSnapshots updateFrontEndStakeAndSnapshots setFrontEndTag
  by_cases hx : x = depositor
  · subst hx
    split <;> split <;> simp_all
  · split <;> split <;> simp_all

/-- The front-end stakes after a depositor operation. -/
theorem redeposited_stake (p : StabilityPool) (depositor frontEnd : Address)
    (value stake total paid : Nat) (x : Address) :
    (p.redeposited depositor frontEnd value stake total paid).frontEndStakes x =
        (if x = frontEnd then stake else p.frontEndStakes x) ∧
      (x ≠ frontEnd →
        (p.redeposited depositor frontEnd value stake total paid).frontEndSnapshots x =
          p.frontEndSnapshots x) ∧
      (stake ≠ 0 →
        (p.redeposited depositor frontEnd value stake total paid).frontEndSnapshots frontEnd =
          { p.frontEndSnapshots frontEnd with
            P := p.P, G := p.epochToScaleToG p.currentEpoch p.currentScale
            scale := p.currentScale, epoch := p.currentEpoch }) := by
  unfold redeposited updateDepositAndSnapshots updateFrontEndStakeAndSnapshots setFrontEndTag
  by_cases hx : x = frontEnd
  · subst hx
    split <;> split <;> simp_all
  · split <;> split <;> simp_all

/-- The tags after a depositor operation. -/
theorem redeposited_frontEndTag (p : StabilityPool) (depositor frontEnd : Address)
    (value stake total paid : Nat) :
    (∀ x, x ≠ depositor → ((p.redeposited depositor frontEnd value stake total paid).deposits
        x).frontEndTag = (p.deposits x).frontEndTag) ∧
      (value ≠ 0 → ((p.redeposited depositor frontEnd value stake total paid).deposits
        depositor).frontEndTag = frontEnd) := by
  unfold redeposited updateDepositAndSnapshots updateFrontEndStakeAndSnapshots setFrontEndTag
  split <;> split <;> simp_all

end StabilityPool

end Liquity
