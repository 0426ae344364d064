import Liquity.Properties.Product

/-!
# Reading the Stability Pool

The snapshots of deposits and front-end stakes lie in the past of the current product, scale and
epoch.  So the views never subtract below zero or divide by zero, a compounded deposit is at most
what was deposited, and an offset never raises a compounded value, whatever it does to scale and
epoch.
-/

open Lib

namespace Liquity

open SafeMath TroveManager

variable {d : Deployment} {s s' : System}

/-! ## Snapshots of the past -/

/-- A snapshot was taken in an earlier epoch, or in this one at a scale and product that later losses
can have led to the current ones from. -/
structure Snapshots.Past (p : StabilityPool) (snapshots : Snapshots) : Prop where
  P_pos : 0 < snapshots.P
  le : snapshots.epoch < p.currentEpoch ∨
    (snapshots.epoch = p.currentEpoch ∧ snapshots.scale ≤ p.currentScale ∧
      p.P ≤ snapshots.P * StabilityPool.SCALE_FACTOR ^ (p.currentScale - snapshots.scale))
  G_le : snapshots.G ≤ p.epochToScaleToG snapshots.epoch snapshots.scale

namespace StabilityPool

variable {p q : StabilityPool} {debt coll : Nat} {snapshots : Snapshots}

structure Readable (p : StabilityPool) : Prop where
  deposit : ∀ i, (p.deposits i).initialValue ≠ 0 → (p.depositSnapshots i).Past p
  S_le : ∀ i, (p.deposits i).initialValue ≠ 0 → (p.depositSnapshots i).S ≤
    p.epochToScaleToSum (p.depositSnapshots i).epoch (p.depositSnapshots i).scale
  stake : ∀ f, p.frontEndStakes f ≠ 0 → (p.frontEndSnapshots f).Past p
  kickbackRate : ∀ f, (p.frontEnds f).kickbackRate ≤ DECIMAL_PRECISION

/-- What the product, the scale and the epoch do in an offset. -/
structure Shrinks (p q : StabilityPool) : Prop where
  le : q.currentEpoch = p.currentEpoch + 1 ∨
    (q.currentEpoch = p.currentEpoch ∧
      ((q.currentScale = p.currentScale ∧ q.P ≤ p.P) ∨
        (q.currentScale = p.currentScale + 1 ∧ q.P ≤ p.P * SCALE_FACTOR)))

theorem Absorbs.shrinks (h : p.Absorbs debt coll q) : p.Shrinks q := by
  obtain ⟨-, gain, loss, error, r, -, -, -, hr, -, rfl⟩ := h.inversion
  have hfactor : DECIMAL_PRECISION - loss.1 ≤ DECIMAL_PRECISION := Nat.sub_le _ _
  constructor
  rcases computeNewProduct_ok hr with ⟨-, hepoch, -⟩ | ⟨-, hepoch, hscale, -, hP⟩ |
    ⟨-, hepoch, hscale, -, hP⟩
  · exact .inl hepoch
  · refine .inr ⟨hepoch, .inl ⟨hscale, ?_⟩⟩
    rw [hP]
    apply Nat.div_le_of_le_mul
    rw [Nat.mul_comm]
    exact Nat.mul_le_mul_right _ hfactor
  · refine .inr ⟨hepoch, .inr ⟨hscale, ?_⟩⟩
    rw [hP]
    apply Nat.div_le_of_le_mul
    calc p.P * (DECIMAL_PRECISION - loss.1) * SCALE_FACTOR
        ≤ p.P * DECIMAL_PRECISION * SCALE_FACTOR :=
          Nat.mul_le_mul_right _ (Nat.mul_le_mul_left _ hfactor)
      _ = DECIMAL_PRECISION * (p.P * SCALE_FACTOR) := by ring

end StabilityPool

namespace Snapshots.Past

open StabilityPool

variable {p q : StabilityPool} {snapshots : Snapshots}

theorem shrinks (h : snapshots.Past p) (hq : p.Shrinks q)
    (hG : q.epochToScaleToG = p.epochToScaleToG) : snapshots.Past q where
  P_pos := h.P_pos
  G_le := by
    rw [hG]
    exact h.G_le
  le := by
    rcases hq.le with hnext | ⟨hsame, hcases⟩
    · left
      have hle := h.le
      omega
    rcases h.le with hearlier | ⟨hepoch, hscale, hP⟩
    · left
      omega
    right
    -- after a change of scale the product is compared at the new scale
    rcases hcases with ⟨hscale', hP'⟩ | ⟨hscale', hP'⟩
    · rw [hsame, hscale']
      exact ⟨hepoch, hscale, hP'.trans hP⟩
    · refine ⟨hepoch.trans hsame.symm, by omega, ?_⟩
      rw [hscale', Nat.sub_add_comm hscale, pow_succ, ← Nat.mul_assoc]
      exact hP'.trans (Nat.mul_le_mul_right _ hP)

/-- Only the product, the scale, the epoch and the sums of LQTY matter. -/
theorem congr (h : snapshots.Past p) (hP : q.P = p.P) (hscale : q.currentScale = p.currentScale)
    (hepoch : q.currentEpoch = p.currentEpoch)
    (hG : ∀ e k, p.epochToScaleToG e k ≤ q.epochToScaleToG e k) : snapshots.Past q where
  P_pos := h.P_pos
  le := by
    rw [hP, hscale, hepoch]
    exact h.le
  G_le := h.G_le.trans (hG _ _)

theorem current (hP : 0 < p.P) (h : snapshots.P = p.P) (hscale : snapshots.scale = p.currentScale)
    (hepoch : snapshots.epoch = p.currentEpoch)
    (hG : snapshots.G = p.epochToScaleToG p.currentEpoch p.currentScale) : snapshots.Past p where
  P_pos := h ▸ hP
  le := by
    right
    rw [h, hscale, Nat.sub_self, pow_zero, Nat.mul_one]
    exact ⟨hepoch, Nat.le_refl _, Nat.le_refl _⟩
  G_le := by rw [hG, hscale, hepoch]

end Snapshots.Past

/-! ## Every state is readable -/

namespace StabilityPool

variable {p q : StabilityPool} {debt coll : Nat}

theorem Readable.absorbs (h : p.Readable) (hq : p.Absorbs debt coll q) : q.Readable := by
  have hshrinks := hq.shrinks
  obtain ⟨-, gain, loss, error, r, -, -, -, -, -, rfl⟩ := hq.inversion
  refine ⟨fun i hi => (h.deposit i hi).shrinks hshrinks rfl, fun i hi => ?_,
    fun f hf => (h.stake f hf).shrinks hshrinks rfl, h.kickbackRate⟩
  -- only the sum of the current epoch and scale is written, and it grows
  refine (h.S_le i hi).trans ?_
  dsimp only
  rw [setSum_apply]
  split
  next hek =>
    rw [hek.1, hek.2]
    exact Nat.le_add_right _ _
  next => exact Nat.le_refl _

theorem Readable.issued {issuance : Nat} (h : p.Readable) (hq : p.updateG issuance = .ok q) :
    q.Readable := by
  obtain ⟨⟨error, G, rfl⟩, hG⟩ := updateG_ok hq
  exact ⟨fun i hi => (h.deposit i hi).congr rfl rfl rfl hG, h.S_le,
    fun f hf => (h.stake f hf).congr rfl rfl rfl hG, h.kickbackRate⟩

theorem Readable.redeposited (h : p.Readable) (hP : 0 < p.P) (i f : Address)
    (value stake total paid : Nat) : (p.redeposited i f value stake total paid).Readable := by
  have hkept := redeposited_kept p i f value stake total paid
  have hpast : ∀ {snapshots : Snapshots}, snapshots.Past p →
      snapshots.Past (p.redeposited i f value stake total paid) := fun hsnapshots =>
    hsnapshots.congr hkept.P hkept.currentScale hkept.currentEpoch fun e k => by
      rw [hkept.epochToScaleToG]
  -- a deposit or stake is written with the current snapshots or not at all
  refine ⟨fun x hx => ?_, fun x hx => ?_, fun x hx => ?_, fun x => ?_⟩
  · obtain ⟨hvalue, hother, hself⟩ := redeposited_deposit p i f value stake total paid x
    rw [hvalue] at hx
    split at hx
    next heq =>
      rw [heq, hself hx]
      exact hpast (.current hP rfl rfl rfl rfl)
    next hne =>
      rw [hother hne]
      exact hpast (h.deposit x hx)
  · obtain ⟨hvalue, hother, hself⟩ := redeposited_deposit p i f value stake total paid x
    rw [hvalue] at hx
    rw [hkept.epochToScaleToSum]
    split at hx
    next heq => rw [heq, hself hx]
    next hne =>
      rw [hother hne]
      exact h.S_le x hx
  · obtain ⟨hvalue, hother, hself⟩ := redeposited_stake p i f value stake total paid x
    rw [hvalue] at hx
    split at hx
    next heq =>
      rw [heq, hself hx]
      exact hpast (.current hP rfl rfl rfl rfl)
    next hne =>
      rw [hother hne]
      exact hpast (h.stake x hx)
  · rw [hkept.frontEnds]
    exact h.kickbackRate x

theorem Ledger.Move.readable {L L' : Ledger} {label : Label} (hm : Ledger.Move d L label L')
    (hbooks : L.Consistent d) (h : L.sp.Readable) : L'.sp.Readable := by
  cases hm with
  | offset debt_ne debt_le coll_le balance habsorbs => exact h.absorbs habsorbs
  | issueLQTY hissued => exact h.issued hissued
  | @registerFrontEnd a kickbackRate unregistered hvalid =>
    refine ⟨fun i hi => (h.deposit i hi).congr rfl rfl rfl fun _ _ => Nat.le_refl _, h.S_le,
      fun f hf => (h.stake f hf).congr rfl rfl rfl fun _ _ => Nat.le_refl _, fun f => ?_⟩
    by_cases hf : f = a
    · subst hf
      simpa using hvalid
    · simpa [Function.update_of_ne hf] using h.kickbackRate f
  | redeposit => exact h.redeposited hbooks.pool.P_pos _ _ _ _ _ _
  | _ => exact h

theorem initial_readable (h : IsInitial d s) : s.stabilityPool.Readable := by
  obtain ⟨ether, timestamp, -, rfl⟩ := h
  exact ⟨fun i hi => absurd rfl hi, fun i hi => absurd rfl hi, fun f hf => absurd rfl hf,
    fun f => Nat.zero_le _⟩

theorem reachable_readable (hd : d.Wired) (h : Reachable d s) : s.stabilityPool.Readable := by
  refine ReachableWhen.ledger_invariant hd (fun L => L.sp.Readable) (fun _ => initial_readable) ?_ h
  exact fun s t L label L' _ _ hbooks hL _ hm => Ledger.Move.readable hm hbooks hL

/-! ## Views do not underflow -/

section Avoids

variable {bad : Revert → Prop} (hbad : ∀ e, IsOverflow e → ¬ bad e)

include hbad

theorem gainFromSnapshots_avoids {sums : Nat → Nat → Nat} {sumSnapshot : Nat} (stake : Nat)
    {snapshots : Snapshots} (hP : 0 < snapshots.P)
    (hsum : sumSnapshot ≤ sums snapshots.epoch snapshots.scale) :
    Avoids bad (gainFromSnapshots sums sumSnapshot stake snapshots) := by
  unfold gainFromSnapshots
  refine (avoids_checkedSub hsum).bind fun _ _ => ?_
  refine (avoids_checkedAdd (hbad _ (by decide))).bind fun _ _ => ?_
  refine (avoids_checkedDiv (by decide)).bind fun _ _ => ?_
  refine (avoids_checkedAdd (hbad _ (by decide))).bind fun _ _ => ?_
  refine (avoids_checkedMul (hbad _ (by decide))).bind fun _ _ => ?_
  refine (avoids_checkedDiv hP).bind fun _ _ => ?_
  exact avoids_checkedDiv (by decide)

theorem compoundedStake_avoids (stake : Nat) {snapshots : Snapshots} (h : snapshots.Past p) :
    Avoids bad (p.getCompoundedStakeFromSnapshots stake snapshots) := by
  have hmul : ∀ {a b}, Avoids bad (mul a b) := avoids_checkedMul (hbad _ (by decide))
  unfold getCompoundedStakeFromSnapshots
  split
  · exact avoids_ok 0
  next hepoch =>
    -- within an epoch the scale only grows
    have hscale := (h.le.resolve_left hepoch).2.1
    have hat : ∀ diff, Avoids bad (p.compoundedStakeAtScale stake snapshots.P diff) := by
      intro diff
      unfold compoundedStakeAtScale
      split
      · exact hmul.bind fun _ _ => avoids_checkedDiv h.P_pos
      · split
        · refine hmul.bind fun _ _ => ?_
          exact (avoids_checkedDiv h.P_pos).bind fun _ _ => avoids_checkedDiv (by decide)
        · exact avoids_ok 0
    refine (avoids_checkedSub hscale).bind fun _ _ => ?_
    refine (hat _).bind fun _ _ => ?_
    exact (avoids_checkedDiv (by decide)).bind fun _ _ => avoids_ok _

theorem Readable.getDepositorETHGain_avoids (h : p.Readable) (i : Address) :
    Avoids bad (p.getDepositorETHGain i) := by
  simp only [getDepositorETHGain]
  split
  · exact avoids_ok 0
  next hi => exact gainFromSnapshots_avoids hbad _ (h.deposit i hi).P_pos (h.S_le i hi)

theorem Readable.getDepositorLQTYGain_avoids (h : p.Readable) (i : Address) :
    Avoids bad (p.getDepositorLQTYGain i) := by
  simp only [getDepositorLQTYGain]
  split
  · exact avoids_ok 0
  next hi =>
    have hpast := h.deposit i hi
    refine (gainFromSnapshots_avoids hbad _ hpast.P_pos hpast.G_le).bind fun _ _ => ?_
    exact (avoids_checkedMul (hbad _ (by decide))).bind fun _ _ => avoids_checkedDiv (by decide)

theorem Readable.getFrontEndLQTYGain_avoids (h : p.Readable) (f : Address) :
    Avoids bad (p.getFrontEndLQTYGain f) := by
  simp only [getFrontEndLQTYGain]
  split
  · exact avoids_ok 0
  next hf =>
    have hpast := h.stake f hf
    refine (avoids_checkedSub (h.kickbackRate f)).bind fun _ _ => ?_
    refine (gainFromSnapshots_avoids hbad _ hpast.P_pos hpast.G_le).bind fun _ _ => ?_
    exact (avoids_checkedMul (hbad _ (by decide))).bind fun _ _ => avoids_checkedDiv (by decide)

theorem Readable.getCompoundedLUSDDeposit_avoids (h : p.Readable) (i : Address) :
    Avoids bad (p.getCompoundedLUSDDeposit i) := by
  simp only [getCompoundedLUSDDeposit]
  split
  · exact avoids_ok 0
  next hi => exact compoundedStake_avoids hbad _ (h.deposit i hi)

theorem Readable.getCompoundedFrontEndStake_avoids (h : p.Readable) (f : Address) :
    Avoids bad (p.getCompoundedFrontEndStake f) := by
  simp only [getCompoundedFrontEndStake]
  split
  · exact avoids_ok 0
  next hf => exact compoundedStake_avoids hbad _ (h.stake f hf)

end Avoids

/-- None of the views of a depositor or a front end subtracts below zero or divides by zero. -/
structure ViewsDefined (p : StabilityPool) (i : Address) : Prop where
  ETHGain : Avoids IsUnderflow (p.getDepositorETHGain i)
  LQTYGain : Avoids IsUnderflow (p.getDepositorLQTYGain i)
  frontEndLQTYGain : Avoids IsUnderflow (p.getFrontEndLQTYGain i)
  compoundedDeposit : Avoids IsUnderflow (p.getCompoundedLUSDDeposit i)
  compoundedStake : Avoids IsUnderflow (p.getCompoundedFrontEndStake i)

theorem Readable.viewsDefined (h : p.Readable) (i : Address) : p.ViewsDefined i :=
  have hbad : ∀ e, IsOverflow e → ¬ IsUnderflow e := fun _ => IsOverflow.not_isUnderflow
  ⟨h.getDepositorETHGain_avoids hbad i, h.getDepositorLQTYGain_avoids hbad i,
    h.getFrontEndLQTYGain_avoids hbad i, h.getCompoundedLUSDDeposit_avoids hbad i,
    h.getCompoundedFrontEndStake_avoids hbad i⟩

/-! ## Compounded values only fall -/

/-- A value cut to zero when it is less than a billionth of the stake. -/
def cutDust (stake value : Nat) : Nat := if value < stake / 10 ^ 9 then 0 else value

theorem cutDust_mono {stake value value' : Nat} (h : value' ≤ value) :
    cutDust stake value' ≤ cutDust stake value := by
  unfold cutDust
  split <;> split <;> omega

theorem cutDust_le (stake value : Nat) : cutDust stake value ≤ value := by
  unfold cutDust
  split <;> omega

theorem compoundedStakeAtScale_ok {stake snapshot_P scaleDiff r : Nat}
    (h : p.compoundedStakeAtScale stake snapshot_P scaleDiff = .ok r) :
    r = if scaleDiff ≤ 1 then stake * p.P / (snapshot_P * SCALE_FACTOR ^ scaleDiff) else 0 := by
  unfold compoundedStakeAtScale at h
  split at h
  next hzero =>
    simp only [bind_ok, mul_ok, div_ok] at h
    obtain ⟨_, ⟨-, rfl⟩, -, rfl⟩ := h
    simp [hzero]
  next hzero =>
    split at h
    next hone =>
      simp only [bind_ok, mul_ok, div_ok] at h
      obtain ⟨_, ⟨-, rfl⟩, _, ⟨-, rfl⟩, -, rfl⟩ := h
      simp [hone, Nat.div_div_eq_div_mul]
    next hone =>
      cases h
      rw [if_neg (by omega)]

/-- The three ways to read a stake back. -/
theorem getCompoundedStakeFromSnapshots_ok {stake r : Nat} {snapshots : Snapshots}
    (h : p.getCompoundedStakeFromSnapshots stake snapshots = .ok r) :
    (snapshots.epoch < p.currentEpoch ∧ r = 0) ∨
      (p.currentEpoch ≤ snapshots.epoch ∧ snapshots.scale ≤ p.currentScale ∧
        r = cutDust stake (if p.currentScale - snapshots.scale ≤ 1 then
          stake * p.P / (snapshots.P * SCALE_FACTOR ^ (p.currentScale - snapshots.scale)) else 0)) := by
  unfold getCompoundedStakeFromSnapshots at h
  split at h
  next hepoch =>
    cases h
    exact .inl ⟨hepoch, rfl⟩
  next hepoch =>
    simp only [bind_ok, pure_ok, LiquitySafeMath128.sub_ok, div_ok] at h
    obtain ⟨_, ⟨hscale, rfl⟩, value, hvalue, _, ⟨-, rfl⟩, rfl⟩ := h
    rw [← compoundedStakeAtScale_ok hvalue]
    exact .inr ⟨Nat.le_of_not_lt hepoch, hscale, rfl⟩

theorem compoundedStake_le {stake r : Nat} {snapshots : Snapshots} (hpast : snapshots.Past p)
    (h : p.getCompoundedStakeFromSnapshots stake snapshots = .ok r) : r ≤ stake := by
  rcases getCompoundedStakeFromSnapshots_ok h with ⟨-, hr⟩ | ⟨hepoch, hscale, hr⟩
  · omega
  · rw [hr]
    refine (cutDust_le _ _).trans ?_
    split
    · apply Nat.div_le_of_le_mul
      rw [Nat.mul_comm]
      exact Nat.mul_le_mul_right _ (hpast.le.resolve_left (Nat.not_lt.mpr hepoch)).2.2
    · exact Nat.zero_le _

/-- An offset does not raise a compounded stake: what a change of scale multiplies the product by,
the reading divides it by. -/
theorem compoundedStake_shrinks {stake r r' : Nat} {snapshots : Snapshots} (hq : p.Shrinks q)
    (hpast : snapshots.Past p)
    (h : p.getCompoundedStakeFromSnapshots stake snapshots = .ok r)
    (h' : q.getCompoundedStakeFromSnapshots stake snapshots = .ok r') : r' ≤ r := by
  rcases getCompoundedStakeFromSnapshots_ok h' with ⟨-, hr'⟩ | ⟨hepoch', hscale', hr'⟩
  · omega
  rcases getCompoundedStakeFromSnapshots_ok h with ⟨hearlier, -⟩ | ⟨hepoch, hscale, hr⟩
  · have hle := hq.le
    omega
  -- a new epoch, the same scale, or the next one
  rcases hq.le with hnext | ⟨-, ⟨hsame, hP⟩ | ⟨hnext, hP⟩⟩
  · have hle := hpast.le
    omega
  · rw [hr, hr', hsame]
    apply cutDust_mono
    split
    · exact Nat.div_le_div_right (Nat.mul_le_mul_left _ hP)
    · exact Nat.le_refl _
  · rw [hr, hr', hnext, Nat.sub_add_comm hscale]
    apply cutDust_mono
    by_cases hdiff : p.currentScale - snapshots.scale = 0
    · rw [hdiff, if_pos (Nat.le_refl 1), if_pos (Nat.zero_le 1), pow_one, pow_zero, Nat.mul_one]
      calc stake * q.P / (snapshots.P * SCALE_FACTOR)
          ≤ stake * p.P * SCALE_FACTOR / (snapshots.P * SCALE_FACTOR) := by
            rw [Nat.mul_assoc]
            exact Nat.div_le_div_right (Nat.mul_le_mul_left _ hP)
        _ = stake * p.P / snapshots.P := Nat.mul_div_mul_right _ _ (by decide)
    -- two changes of scale away it reads as zero
    · rw [if_neg (by omega)]
      exact Nat.zero_le _

/-- Compounded deposits and front-end stakes are not above what they were. -/
def CompoundedFall (p q : StabilityPool) : Prop :=
  ∀ i,
    (∀ c c', p.getCompoundedLUSDDeposit i = .ok c → q.getCompoundedLUSDDeposit i = .ok c' → c' ≤ c) ∧
    ∀ c c', p.getCompoundedFrontEndStake i = .ok c → q.getCompoundedFrontEndStake i = .ok c' → c' ≤ c

theorem Absorbs.compoundedFall (hp : p.Readable) (h : p.Absorbs debt coll q) :
    p.CompoundedFall q := by
  have hshrinks := h.shrinks
  obtain ⟨-, gain, loss, error, r, -, -, -, -, -, hq⟩ := h.inversion
  have hdeposits : q.deposits = p.deposits := by rw [hq]
  have hsnapshots : q.depositSnapshots = p.depositSnapshots := by rw [hq]
  have hstakes : q.frontEndStakes = p.frontEndStakes := by rw [hq]
  have hstakeSnapshots : q.frontEndSnapshots = p.frontEndSnapshots := by rw [hq]
  -- an offset writes no deposit, stake or snapshot
  intro i
  constructor
  · intro c c' hc hc'
    simp only [getCompoundedLUSDDeposit, hdeposits, hsnapshots] at hc hc'
    split at hc
    next hzero =>
      rw [if_pos hzero] at hc'
      cases hc
      cases hc'
      exact Nat.le_refl 0
    next hne =>
      rw [if_neg hne] at hc'
      exact compoundedStake_shrinks hshrinks (hp.deposit i hne) hc hc'
  · intro c c' hc hc'
    simp only [getCompoundedFrontEndStake, hstakes, hstakeSnapshots] at hc hc'
    split at hc
    next hzero =>
      rw [if_pos hzero] at hc'
      cases hc
      cases hc'
      exact Nat.le_refl 0
    next hne =>
      rw [if_neg hne] at hc'
      exact compoundedStake_shrinks hshrinks (hp.stake i hne) hc hc'

/-- Issuing LQTY changes no compounded value. -/
theorem Issued.compounded_eq (h : p.Issued q) (i : Address) :
    q.getCompoundedLUSDDeposit i = p.getCompoundedLUSDDeposit i ∧
      q.getCompoundedFrontEndStake i = p.getCompoundedFrontEndStake i := by
  obtain ⟨error, G, rfl⟩ := h
  exact ⟨rfl, rfl⟩

theorem Offsets.compoundedFall (hp : p.Readable) (h : Offsets debt coll p q) :
    p.CompoundedFall q := by
  rcases h with ⟨-, rfl⟩ | ⟨-, issuance, p₁, hissued, habsorbs⟩
  · refine fun i => ⟨fun c c' hc hc' => ?_, fun c c' hc hc' => ?_⟩
    · exact (Except.ok.inj (hc'.symm.trans hc)).le
    · exact (Except.ok.inj (hc'.symm.trans hc)).le
  · intro i
    have heq := (updateG_ok hissued).1.compounded_eq i
    rw [← heq.1, ← heq.2]
    exact habsorbs.compoundedFall (hp.issued hissued) i

/-- In every reachable state all views of all accounts are defined, a compounded deposit is at most
the initial deposit, and no liquidation raises a compounded deposit or front-end stake. -/
theorem reachable_views (hd : d.Wired) (h : Reachable d s) :
    s.stabilityPool.Readable ∧ (∀ i, s.stabilityPool.ViewsDefined i) ∧
      (∀ i c, s.stabilityPool.getCompoundedLUSDDeposit i = .ok c →
        c ≤ (s.stabilityPool.deposits i).initialValue) ∧
      ∀ (t : Transaction) (totals : LiquidationTotals) (s' : System), Step d s t s' →
        t.Tallies d s totals → s.stabilityPool.CompoundedFall s'.stabilityPool := by
  have hreadable := reachable_readable hd h
  refine ⟨hreadable, hreadable.viewsDefined, fun i c hc => ?_, fun t totals s' hstep htotals => ?_⟩
  · simp only [getCompoundedLUSDDeposit] at hc
    split at hc
    · cases hc
      exact Nat.zero_le _
    next hi => exact compoundedStake_le (hreadable.deposit i hi) hc
  · obtain ⟨l, hl, -⟩ := htotals
    exact (Step.settled hd h hstep hl).2.2.compoundedFall hreadable

theorem sampleOffset_views : ∃ s, Reachable sampleDeployment s ∧
    (s.stabilityPool.depositSnapshots 101).P ≠ s.stabilityPool.P ∧
    s.stabilityPool.ViewsDefined 101 := by
  obtain ⟨s, hs, hp⟩ := exists_reachable (fun _ _ => True) sampleOffset
    (fun s => (s.stabilityPool.depositSnapshots 101).P ≠ s.stabilityPool.P) (by decide +kernel)
  exact ⟨s, hs, hp, (reachable_views sampleDeployment_wired hs).2.1 101⟩

end StabilityPool

end Liquity
