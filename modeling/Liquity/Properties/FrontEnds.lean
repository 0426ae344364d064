import Liquity.Properties.Views

/-!
# Front-end stakes

A front end's stake stands for the deposits tagged with it: it shrinks with them and is read back
from its own snapshot.  It covers them as long as no reading of it rounds off more than the reading
of the deposit that goes with it, and as long as it is not cut to zero for having fallen below a
billionth.
-/

open Lib

namespace Liquity

open SafeMath TroveManager

variable {d : Deployment} {s : System}

namespace StabilityPool

open ProductSum.Pool (Offset GroupsCovered RoundsTogether)

variable {p q : StabilityPool} {debt coll : Nat} {i f : Address}

/-! ## The stakes as a pool -/

/-- The stakes of the front ends, with the running product of the deposits.  They earn no ETH. -/
def stakePool (p : StabilityPool) : ProductSum.Pool Address where
  deposit := p.frontEndStakes
  snapshot f :=
    ⟨0, (p.frontEndSnapshots f).P, (p.frontEndSnapshots f).scale, (p.frontEndSnapshots f).epoch⟩
  total := p.totalLUSDDeposits
  reserve := 0
  P := p.P
  scale := p.currentScale
  epoch := p.currentEpoch
  sum _ _ := 0
  error := 0

def tagOf (p : StabilityPool) (i : Address) : Address := (p.deposits i).frontEndTag

theorem Readable.stakePool_consistent (h : p.Readable) (hP : 0 < p.P) : p.stakePool.Consistent where
  P_pos := hP
  snapshot_P_pos f hf := (h.stake f hf.ne').P_pos
  snapshot_le f hf := by
    rcases (h.stake f hf.ne').le with hearlier | ⟨hepoch, hscale, -⟩
    · exact .inl hearlier
    · exact .inr ⟨hepoch, hscale⟩
  snapshot_S_le _ _ := Nat.zero_le _
  sum_future _ _ _ := rfl

theorem Absorbs.offset_stakePool (h : p.Absorbs debt coll q) :
    Offset DECIMAL_PRECISION debt 0 0 p.stakePool q.stakePool := by
  obtain ⟨perUnit, ho⟩ := h.offset
  obtain ⟨-, gain, loss, error, r, -, -, -, -, -, rfl⟩ := h.inversion
  exact ⟨rfl, rfl, ho.loss_le, rfl, rfl, fun _ _ => by simp [stakePool], by simp [stakePool], ho.P_pos,
    ho.moves⟩

/-- Writing a deposit writes the stake of its front end with it. -/
theorem redeposited_stakePool (p : StabilityPool) (i f : Address) (value stake total paid : Nat) :
    ∃ snapshot, (stake ≠ 0 → snapshot = p.stakePool.current) ∧
      (p.redeposited i f value stake total paid).stakePool =
        p.stakePool.redeposit f stake snapshot total 0 := by
  have hkept := redeposited_kept p i f value stake total paid
  refine ⟨(p.redeposited i f value stake total paid).stakePool.snapshot f, fun hne => ?_, ?_⟩
  · obtain ⟨-, -, hself⟩ := redeposited_stake p i f value stake total paid f
    simp only [stakePool, hself hne, ProductSum.Pool.current]
  · have hdeposit : (p.redeposited i f value stake total paid).frontEndStakes =
        Function.update p.frontEndStakes f stake := by
      funext x
      rw [(redeposited_stake p i f value stake total paid x).1, Function.update_apply]
    have hsnapshot : (p.redeposited i f value stake total paid).stakePool.snapshot =
        Function.update p.stakePool.snapshot f
          ((p.redeposited i f value stake total paid).stakePool.snapshot f) := by
      funext x
      by_cases hx : x = f
      · rw [hx, Function.update_self]
      · rw [Function.update_of_ne hx]
        simp only [stakePool, (redeposited_stake p i f value stake total paid x).2.1 hx]
    have htotal : (p.redeposited i f value stake total paid).totalLUSDDeposits = total := rfl
    unfold ProductSum.Pool.redeposit
    rw [← hsnapshot]
    simp only [stakePool, hdeposit, htotal, hkept.P, hkept.currentScale, hkept.currentEpoch]

/-! ## Readings of a stake -/

/-- The product, the scale and the epoch. -/
def product (p : StabilityPool) : NewProduct := ⟨p.P, p.currentScale, p.currentEpoch⟩

end StabilityPool

/-- A stake with these snapshots is not cut to zero at the product `r`: its epoch is over, or the
product is at least a billionth of what it was and at most one change of scale away. -/
def Snapshots.Visible (snapshots : Snapshots) (r : StabilityPool.NewProduct) : Prop :=
  snapshots.epoch < r.epoch ∨ (r.scale ≤ snapshots.scale + 1 ∧
    snapshots.P * StabilityPool.SCALE_FACTOR ^ (r.scale - snapshots.scale) ≤ r.newP * 10 ^ 9)

namespace StabilityPool

variable {p q : StabilityPool} {debt coll : Nat} {i f : Address}

theorem cutDust_of_visible {stake P D : Nat} (hD : 0 < D) (hvisible : D ≤ P * 10 ^ 9) :
    cutDust stake (stake * P / D) = stake * P / D := by
  -- the dust is a billionth of the stake, and what is left is more
  have hdust : stake / 10 ^ 9 ≤ stake * P / D := by
    have hP : 0 < P := by
      by_contra hzero
      have : P = 0 := by omega
      subst this
      omega
    calc stake / 10 ^ 9 = stake * P / (P * 10 ^ 9) := by
          rw [Nat.mul_comm stake, Nat.mul_div_mul_left _ _ hP]
      _ ≤ stake * P / D := Nat.div_le_div_left hvisible hD
  rw [cutDust, if_neg (Nat.not_lt.mpr hdust)]

/-- A visible stake reads as its exact value, rounded down. -/
theorem getCompoundedFrontEndStake_eq {c : Nat} (h : p.Readable)
    (hvisible : p.frontEndStakes f ≠ 0 → (p.frontEndSnapshots f).Visible p.product)
    (hc : p.getCompoundedFrontEndStake f = .ok c) :
    (c : ℚ) = ⌊p.stakePool.value SCALE_FACTOR f⌋ := by
  simp only [getCompoundedFrontEndStake] at hc
  split at hc
  next hzero =>
    cases hc
    rw [ProductSum.Pool.value_of_deposit_eq_zero hzero]
    simp
  next hne =>
    rcases getCompoundedStakeFromSnapshots_ok hc with ⟨hearlier, hr⟩ | ⟨hepoch, hscale, hr⟩
    · rw [ProductSum.Pool.value, if_pos (by exact hearlier), hr]
      simp
    · obtain ⟨hdiff, hle⟩ := (hvisible hne).resolve_left (Nat.not_lt.mpr hepoch)
      have hP := (h.stake f hne).P_pos
      change p.currentScale ≤ _ at hdiff
      change _ * SCALE_FACTOR ^ (p.currentScale - _) ≤ p.P * 10 ^ 9 at hle
      rw [if_pos (by omega), cutDust_of_visible (Nat.mul_pos hP (Nat.pow_pos (by decide))) hle] at hr
      have hvalue : p.stakePool.value SCALE_FACTOR f =
          ((p.frontEndStakes f * p.P : Nat) : ℚ) / ((p.frontEndSnapshots f).P *
            SCALE_FACTOR ^ (p.currentScale - (p.frontEndSnapshots f).scale) : Nat) := by
        rw [ProductSum.Pool.value, if_neg (by exact Nat.not_lt.mpr hepoch)]
        push_cast
        rfl
      rw [hvalue, hr, Rat.floor_natCast_div_natCast]
      rfl

/-! ## The invariant -/

open ProductSum.Pool (GroupsCovered RoundsTogether)

/-- Every stake is visible and covers the deposits tagged with it. -/
structure StakesCover (p : StabilityPool) : Prop where
  readable : p.Readable
  visible : ∀ f, p.frontEndStakes f ≠ 0 → (p.frontEndSnapshots f).Visible p.product
  covered : GroupsCovered SCALE_FACTOR p.tagOf p.pool p.stakePool

/-- No stake would be cut to zero at the product that an offset of `debt` leads to. -/
def StakesStayVisible (p : StabilityPool) (debt : Nat) : Prop :=
  ∀ loss r,
    computeLUSDLossPerUnitStaked debt p.totalLUSDDeposits p.lastLUSDLossError_Offset = .ok loss →
    p.computeNewProduct (DECIMAL_PRECISION - loss.1) = .ok r →
    ∀ f, p.frontEndStakes f ≠ 0 → (p.frontEndSnapshots f).Visible r

/-- What a transaction has to respect for the stakes to keep covering the deposits: no offset makes a
stake too small to be read, and no depositor operation rounds the stake down further than the
deposit while others share the stake. -/
def StakesFollow (d : Deployment) (s : System) (t : Transaction) : Prop :=
  (∀ totals, t.Tallies d s totals → totals.totalDebtToOffset ≠ 0 →
    s.stabilityPool.StakesStayVisible totals.totalDebtToOffset) ∧
  ∀ i f, t.Redeposits s i f → RoundsTogether SCALE_FACTOR s.stabilityPool.tagOf
    s.stabilityPool.pool s.stabilityPool.stakePool i f

theorem StakesCover.issued {issuance : Nat} (h : p.StakesCover) (hq : p.updateG issuance = .ok q) :
    q.StakesCover := by
  have hreadable := h.readable.issued hq
  obtain ⟨⟨error, G, rfl⟩, -⟩ := updateG_ok hq
  exact ⟨hreadable, h.visible, h.covered⟩

theorem StakesCover.absorbs (h : p.StakesCover) (hpool : p.pool.Consistent)
    (hq : p.Absorbs debt coll q) (hvisible : p.StakesStayVisible debt) : q.StakesCover := by
  obtain ⟨perUnit, ho⟩ := hq.offset
  -- in exact values an offset multiplies stakes and deposits by one factor
  have hcovered := h.covered.offset hpool (h.readable.stakePool_consistent hpool.P_pos) (by decide) ho
    hq.offset_stakePool ⟨rfl, rfl⟩ ⟨rfl, rfl⟩ ⟨rfl, rfl⟩
  refine ⟨h.readable.absorbs hq, ?_, ?_⟩
  · obtain ⟨-, gain, loss, error, r, hloss, -, -, hr, -, rfl⟩ := hq.inversion
    exact hvisible loss r hloss hr
  · obtain ⟨-, gain, loss, error, r, -, -, -, -, -, rfl⟩ := hq.inversion
    exact hcovered

theorem StakesCover.redeposited {value stake compounded compoundedStake total paid : Nat}
    (h : p.StakesCover) (hpool : p.pool.Consistent)
    (htag : (p.deposits i).initialValue ≠ 0 → (p.deposits i).frontEndTag = f)
    (hcompounded : p.getCompoundedLUSDDeposit i = .ok compounded)
    (hstake : p.getCompoundedFrontEndStake f = .ok compoundedStake)
    (hrounds : RoundsTogether SCALE_FACTOR p.tagOf p.pool p.stakePool i f)
    (hstakeeq : stake + compounded = compoundedStake + value) :
    (p.redeposited i f value stake total paid).StakesCover := by
  have hkept := redeposited_kept p i f value stake total paid
  have hproduct : (p.redeposited i f value stake total paid).product = p.product := by
    unfold product
    rw [hkept.P, hkept.currentScale, hkept.currentEpoch]
  refine ⟨h.readable.redeposited hpool.P_pos _ _ _ _ _ _, fun x hx => ?_, ?_⟩
  · rw [hproduct]
    obtain ⟨hvalue, hother, hself⟩ := redeposited_stake p i f value stake total paid x
    rw [hvalue] at hx
    split at hx
    next heq =>
      -- a stake just written is read at its own product
      rw [heq, hself hx]
      right
      dsimp only [product]
      rw [Nat.sub_self, pow_zero]
      omega
    next hne =>
      rw [hother hne]
      exact h.visible x hx
  · obtain ⟨snapshot, hsnapshot, hp⟩ := p.redeposited_pool i f value stake total paid
    obtain ⟨snapshot', hsnapshot', hp'⟩ := p.redeposited_stakePool i f value stake total paid
    obtain ⟨htags, htagged⟩ := redeposited_frontEndTag p i f value stake total paid
    rw [hp, hp']
    exact h.covered.redeposit hpool (h.readable.stakePool_consistent hpool.P_pos) hsnapshot hsnapshot'
      htag htags htagged (getCompoundedLUSDDeposit_le hcompounded)
      (getCompoundedFrontEndStake_eq h.readable (h.visible f) hstake) hrounds hstakeeq _ _

theorem initial_stakesCover (h : IsInitial d s) : s.stabilityPool.StakesCover := by
  have hreadable := initial_readable h
  obtain ⟨ether, timestamp, -, rfl⟩ := h
  refine ⟨hreadable, fun f hf => absurd rfl hf, fun g => ?_⟩
  rw [Finset.sum_eq_zero fun i _ => ProductSum.Pool.valueFor_of_deposit_eq_zero (by rfl)]
  exact ProductSum.Pool.value_nonneg

theorem reachable_stakesCover (hd : d.Wired) (h : ReachableWhen d (StakesFollow d) s) :
    s.stabilityPool.StakesCover := by
  refine ReachableWhen.ledger_invariant hd (fun L => L.sp.StakesCover) (fun _ => initial_stakesCover)
    ?_ h
  intro s t L label L' hcond _ hbooks hL hallow hm
  have hreadable := Ledger.Move.readable hm hbooks hL.readable
  cases hm with
  -- LQTY was issued since the condition was met, which changes no product
  | offset debt_ne debt_le coll_le balance habsorbs =>
    obtain ⟨⟨error, G, hsp⟩, totals, htallies, rfl⟩ := hallow
    refine hL.absorbs hbooks.pool habsorbs ?_
    rw [hsp]
    exact hcond.1 totals htallies debt_ne
  | issueLQTY hissued => exact hL.issued hissued
  | registerFrontEnd => exact ⟨hreadable, hL.visible, hL.covered⟩
  | @redeposit i f value stake compounded compoundedStake total paid balances htag hcompounded hstake
      hpaid hreserve hstakeeq htotal =>
    obtain ⟨hredeposits, error, G, hsp⟩ := hallow
    refine hL.redeposited hbooks.pool htag hcompounded hstake ?_ hstakeeq
    rw [hsp]
    exact hcond.2 i f hredeposits
  | _ => exact hL

/-! ## Withdrawals -/

/-- The compounded deposits tagged with a front end. -/
def sumCompounded (p : StabilityPool) (f : Address) : Nat :=
  ∑ i, if p.tagOf i = f then okOr (p.getCompoundedLUSDDeposit i) 0 else 0

theorem StakesCover.sumCompounded_le (h : p.StakesCover) {c : Nat}
    (hc : p.getCompoundedFrontEndStake f = .ok c) : p.sumCompounded f ≤ c := by
  -- each deposit reads at most its exact value
  have hle : ∀ i, ((if p.tagOf i = f then okOr (p.getCompoundedLUSDDeposit i) 0 else 0 : Nat) : ℚ) ≤
      p.pool.valueFor SCALE_FACTOR p.tagOf f i := by
    intro i
    unfold ProductSum.Pool.valueFor
    split
    · cases hi : p.getCompoundedLUSDDeposit i with
      | error e => simpa using ProductSum.Pool.value_nonneg
      | ok r => exact getCompoundedLUSDDeposit_le hi
    · exact Nat.cast_zero.le
  have hsum : (p.sumCompounded f : ℚ) ≤ p.stakePool.value SCALE_FACTOR f := by
    unfold sumCompounded
    rw [Nat.cast_sum]
    exact (Finset.sum_le_sum fun i _ => hle i).trans (h.covered f)
  -- the sum is an integer, so it is also below the stake rounded down
  have hfloor : (p.sumCompounded f : ℤ) ≤ ⌊p.stakePool.value SCALE_FACTOR f⌋ :=
    Int.le_floor.mpr (by exact_mod_cast hsum)
  have heq := getCompoundedFrontEndStake_eq h.readable (h.visible f) hc
  have heqInt : (c : ℤ) = ⌊p.stakePool.value SCALE_FACTOR f⌋ := by exact_mod_cast heq
  omega

/-- What the withdrawal of a whole deposit does to the deposit and to the stake it is part of. -/
def withdrawAll (depositor : Address) (p : StabilityPool) : Tx StabilityPool := do
  let compoundedLUSDDeposit ← p.getCompoundedLUSDDeposit depositor
  let frontEnd := (p.deposits depositor).frontEndTag
  let compoundedFrontEndStake ← p.getCompoundedFrontEndStake frontEnd
  let newFrontEndStake ← sub compoundedFrontEndStake compoundedLUSDDeposit
  return (p.updateFrontEndStakeAndSnapshots frontEnd newFrontEndStake).updateDepositAndSnapshots
    depositor 0

theorem withdrawAll_ok (h : p.withdrawAll i = .ok q) :
    ∃ compounded stake, p.getCompoundedLUSDDeposit i = .ok compounded ∧
      p.getCompoundedFrontEndStake (p.tagOf i) = .ok stake ∧ compounded ≤ stake ∧
      q = p.redeposited i (p.tagOf i) 0 (stake - compounded) p.totalLUSDDeposits 0 := by
  simp only [withdrawAll, bind_ok, sub_ok, pure_ok] at h
  obtain ⟨compounded, hcompounded, stake, hstake, _, ⟨hle, rfl⟩, rfl⟩ := h
  refine ⟨compounded, stake, hcompounded, hstake, hle, ?_⟩
  rw [tagOf, redeposited_self]
  rfl

/-- A `withdrawFromSP` of at least the whole deposit writes what `withdrawAll` writes, after the
issuance of LQTY; the total and the ether counter follow the payments. -/
theorem withdrawFromSP_withdrawAll (hd : d.Wired) {env : Env} (hb : d.External env.sender)
    {amount : Nat} {s' : System} (h : withdrawFromSP d env amount s = .ok s')
    (hall : ∀ c, s.stabilityPool.getCompoundedLUSDDeposit env.sender = .ok c → c ≤ amount) :
    ∃ p q, s.stabilityPool.Issued p ∧ p.withdrawAll env.sender = .ok q ∧ s'.stabilityPool = { q with
      totalLUSDDeposits := s'.stabilityPool.totalLUSDDeposits, ETH := s'.stabilityPool.ETH } := by
  simp only [withdrawFromSP, bind_ok, sub_ok] at h
  obtain ⟨-, -, -, -, s₁, h₁, reading, hreading, s₂, h₂, stake, hstake, _, ⟨hle, rfl⟩, s₃, h₃, _,
    ⟨-, rfl⟩, h₄⟩ := h
  obtain ⟨issuance, communityIssuance, sp, hsp, rfl⟩ := triggerLQTYIssuance_ok h₁
  have hissued := (updateG_ok hsp).1
  obtain ⟨token, rfl⟩ := payOutLQTYGains_ok h₂
  dsimp only at hreading hstake h₃ h₄ ⊢
  rw [← setFrontEndTag_self sp env.sender] at hreading
  have hcompounded := (readDeposit_setFrontEndTag hreading).1
  -- issuing LQTY does not change what the deposit reads
  have hamount : reading.compoundedLUSDDeposit ≤ amount := by
    obtain ⟨error, G, rfl⟩ := hissued
    exact hall _ hcompounded
  rw [LiquityMath.min_eq, Nat.min_eq_right hamount] at hle h₃ h₄
  obtain ⟨-, -, rfl⟩ := sendLUSDToDepositor_ok h₃
  obtain ⟨-, -, ether, rfl⟩ := sendETHGainToDepositor_ok hd hb h₄
  refine ⟨sp, (sp.updateFrontEndStakeAndSnapshots (sp.deposits env.sender).frontEndTag
    (stake - reading.compoundedLUSDDeposit)).updateDepositAndSnapshots env.sender 0, hissued, ?_, ?_⟩
  · simp only [withdrawAll, bind_ok, sub_ok, pure_ok]
    exact ⟨_, hcompounded, stake, hstake, _, ⟨hle, rfl⟩, rfl⟩
  · dsimp only
    rw [Nat.sub_self, updateDeposit_comm]
    rfl

/-- A deposit that is not written reads as before. -/
theorem redeposited_getCompounded_of_ne {value stake total paid : Nat} {j : Address} (hj : j ≠ i) :
    (p.redeposited i f value stake total paid).getCompoundedLUSDDeposit j =
      p.getCompoundedLUSDDeposit j := by
  have hkept := redeposited_kept p i f value stake total paid
  obtain ⟨hvalue, hother, -⟩ := redeposited_deposit p i f value stake total paid j
  rw [if_neg hj] at hvalue
  simp only [getCompoundedLUSDDeposit, getCompoundedStakeFromSnapshots, compoundedStakeAtScale, hvalue,
    hother hj, hkept.P, hkept.currentScale, hkept.currentEpoch]

theorem redeposited_getCompoundedStake_of_ne {value stake total paid : Nat} {g : Address}
    (hg : g ≠ f) :
    (p.redeposited i f value stake total paid).getCompoundedFrontEndStake g =
      p.getCompoundedFrontEndStake g := by
  have hkept := redeposited_kept p i f value stake total paid
  obtain ⟨hvalue, hother, -⟩ := redeposited_stake p i f value stake total paid g
  rw [if_neg hg] at hvalue
  simp only [getCompoundedFrontEndStake, getCompoundedStakeFromSnapshots, compoundedStakeAtScale, hvalue,
    hother hg, hkept.P, hkept.currentScale, hkept.currentEpoch]

/-- A stake reads as what was just written. -/
theorem redeposited_getCompoundedStake {value stake total paid c : Nat} (hP : 0 < p.P)
    (h : (p.redeposited i f value stake total paid).getCompoundedFrontEndStake f = .ok c) :
    c = stake := by
  have hkept := redeposited_kept p i f value stake total paid
  obtain ⟨hvalue, -, hself⟩ := redeposited_stake p i f value stake total paid f
  rw [if_pos rfl] at hvalue
  simp only [getCompoundedFrontEndStake, hvalue] at h
  split at h
  next hzero =>
    cases h
    exact hzero.symm
  next hne =>
    rw [hself hne] at h
    rcases getCompoundedStakeFromSnapshots_ok h with ⟨hearlier, -⟩ | ⟨-, -, hc⟩
    · dsimp only at hearlier
      rw [hkept.currentEpoch] at hearlier
      omega
    · dsimp only at hc
      rw [hkept.P, hkept.currentScale, Nat.sub_self, if_pos (Nat.zero_le 1), pow_zero, Nat.mul_one,
        Nat.mul_div_cancel _ hP] at hc
      rw [hc, cutDust, if_neg (Nat.not_lt.mpr (Nat.div_le_self _ _))]

/-- The stakes cover what the depositors in the list can still withdraw. -/
def CoversWithdrawals (p : StabilityPool) (depositors : List Address) : Prop :=
  ∀ f c, p.getCompoundedFrontEndStake f = .ok c →
    (depositors.map fun i => if p.tagOf i = f then okOr (p.getCompoundedLUSDDeposit i) 0 else 0).sum ≤ c

theorem StakesCover.coversWithdrawals (h : p.StakesCover) {depositors : List Address}
    (hnodup : depositors.Nodup) : p.CoversWithdrawals depositors :=
  fun _ _ hc => (sum_map_le_sum hnodup _).trans (h.sumCompounded_le hc)

theorem CoversWithdrawals.withdrawAll {rest : List Address} (h : p.CoversWithdrawals (i :: rest))
    (hP : 0 < p.P) (hi : i ∉ rest) (hq : p.withdrawAll i = .ok q) : q.CoversWithdrawals rest := by
  obtain ⟨compounded, stake, hcompounded, hstake, hle, rfl⟩ := withdrawAll_ok hq
  intro f c hc
  -- the others' tags and readings are as before
  have hrest : (rest.map fun j => if (p.redeposited i (p.tagOf i) 0 (stake - compounded)
      p.totalLUSDDeposits 0).tagOf j = f then okOr ((p.redeposited i (p.tagOf i) 0 (stake - compounded)
        p.totalLUSDDeposits 0).getCompoundedLUSDDeposit j) 0 else 0) =
      rest.map fun j => if p.tagOf j = f then okOr (p.getCompoundedLUSDDeposit j) 0 else 0 := by
    apply List.map_congr_left
    intro j hj
    have hji : j ≠ i := fun heq => hi (heq ▸ hj)
    rw [redeposited_getCompounded_of_ne hji, tagOf,
      (redeposited_frontEndTag p i _ 0 _ _ 0).1 j hji]
    rfl
  rw [hrest]
  -- only the stake of the depositor's own front end is written
  by_cases hf : f = p.tagOf i
  · subst hf
    have hsum := h (p.tagOf i) stake hstake
    rw [List.map_cons, List.sum_cons, if_pos rfl, hcompounded, okOr_ok] at hsum
    rw [redeposited_getCompoundedStake hP hc]
    omega
  · rw [redeposited_getCompoundedStake_of_ne hf] at hc
    have hsum := h f c hc
    rw [List.map_cons, List.sum_cons] at hsum
    omega

/-- Whatever the order in which depositors withdraw everything, no stake runs out. -/
theorem withdrawAll_foldlM_avoids_underflow {depositors : List Address} (hnodup : depositors.Nodup)
    (hP : 0 < p.P) (hreadable : p.Readable) (h : p.CoversWithdrawals depositors) :
    Avoids IsUnderflow (depositors.foldlM (fun p i => p.withdrawAll i) p) := by
  -- the invariant is that the stakes cover those who are still to come
  induction depositors generalizing p with
  | nil => exact avoids_ok p
  | cons i rest ih =>
    obtain ⟨hi, hnodup⟩ := List.nodup_cons.mp hnodup
    rw [List.foldlM_cons]
    refine Avoids.bind ?_ fun q hq => ?_
    · have hviews := hreadable.viewsDefined
      unfold withdrawAll
      refine (hviews i).compoundedDeposit.bind fun compounded hcompounded => ?_
      refine (hviews _).compoundedStake.bind fun stake hstake => ?_
      have hsum := h _ stake hstake
      rw [List.map_cons, List.sum_cons, tagOf, if_pos rfl, hcompounded, okOr_ok] at hsum
      exact (avoids_checkedSub (by omega)).bind fun _ _ => avoids_ok _
    · have hrest := h.withdrawAll hP hi hq
      obtain ⟨compounded, stake, -, -, -, rfl⟩ := withdrawAll_ok hq
      refine ih hnodup ?_ (hreadable.redeposited hP _ _ _ _ _ _) hrest
      rw [(redeposited_kept p i _ _ _ _ _).P]
      exact hP

/-- Every front end's stake is at least the sum of the deposits tagged with it, and depositors who
withdraw everything, in any order, never take a stake below zero. -/
theorem reachable_stakes_cover (hd : d.Wired) (h : ReachableWhen d (StakesFollow d) s) :
    (∀ f c, s.stabilityPool.getCompoundedFrontEndStake f = .ok c →
        s.stabilityPool.sumCompounded f ≤ c) ∧
      ∀ depositors : List Address, depositors.Nodup →
        Avoids IsUnderflow (depositors.foldlM (fun p i => p.withdrawAll i) s.stabilityPool) := by
  have hcover := reachable_stakesCover hd h
  have hP := (h.reachable.sound hd).books.pool.P_pos
  exact ⟨fun f c hc => hcover.sumCompounded_le hc, fun depositors hnodup =>
    withdrawAll_foldlM_avoids_underflow hnodup hP hcover.readable (hcover.coversWithdrawals hnodup)⟩

/-! ## Samples -/

/-- The product and the products at which stakes were written are at most one. -/
structure StakesInRange (p : StabilityPool) : Prop where
  P_le : p.P ≤ DECIMAL_PRECISION
  snapshot_le : ∀ f, p.frontEndStakes f ≠ 0 → (p.frontEndSnapshots f).P ≤ DECIMAL_PRECISION

theorem reachable_stakesInRange (hd : d.Wired) (h : Reachable d s) :
    s.stabilityPool.StakesInRange := by
  refine ReachableWhen.ledger_invariant hd (fun L => L.sp.StakesInRange) ?_ ?_ h
  · rintro _ ⟨ether, timestamp, -, rfl⟩
    exact ⟨Nat.le_refl _, fun f hf => absurd rfl hf⟩
  intro s t L label L' _ _ _ hL _ hm
  cases hm with
  | offset debt_ne debt_le coll_le balance habsorbs =>
    obtain ⟨-, gain, loss, error, r, -, -, -, hr, -, hq⟩ := habsorbs.inversion
    dsimp only at hq ⊢
    rw [hq]
    exact ⟨newP_le_one hL.P_le (Nat.sub_le _ _) hr, hL.snapshot_le⟩
  | issueLQTY hissued =>
    obtain ⟨⟨error, G, hq⟩, -⟩ := updateG_ok hissued
    dsimp only at hq ⊢
    rw [hq]
    exact ⟨hL.P_le, hL.snapshot_le⟩
  | registerFrontEnd => exact ⟨hL.P_le, hL.snapshot_le⟩
  | @redeposit i f value stake _ _ total paid =>
    refine ⟨(redeposited_kept L.sp i f value stake total paid).P.symm ▸ hL.P_le, fun x hx => ?_⟩
    obtain ⟨hvalue, hother, hself⟩ := redeposited_stake L.sp i f value stake total paid x
    dsimp only at hx ⊢
    rw [hvalue] at hx
    split at hx
    next heq =>
      rw [heq, hself hx]
      exact hL.P_le
    next hne =>
      rw [hother hne]
      exact hL.snapshot_le x hx
  | _ => exact hL

/-- The product after an offset of `debt`. -/
def productAfter (p : StabilityPool) (debt : Nat) : Tx NewProduct := do
  let loss ← computeLUSDLossPerUnitStaked debt p.totalLUSDDeposits p.lastLUSDLossError_Offset
  p.computeNewProduct (DECIMAL_PRECISION - loss.1)

/-- At the first scale and above a billionth, every stake is visible. -/
theorem StakesInRange.stakesStayVisible (h : p.StakesInRange)
    (hhigh : (p.productAfter debt).toOption.all fun r => decide (r.scale = 0 ∧ SCALE_FACTOR ≤ r.newP)) :
    p.StakesStayVisible debt := by
  intro loss r hloss hr f hf
  have hafter : p.productAfter debt = .ok r := by
    rw [productAfter, hloss]
    exact hr
  rw [hafter] at hhigh
  obtain ⟨hscale, hP⟩ : r.scale = 0 ∧ SCALE_FACTOR ≤ r.newP := by simpa [Except.toOption] using hhigh
  right
  rw [hscale, Nat.zero_sub, pow_zero, Nat.mul_one]
  refine ⟨Nat.zero_le _, ?_⟩
  calc (p.frontEndSnapshots f).P ≤ DECIMAL_PRECISION := h.snapshot_le f hf
    _ = SCALE_FACTOR * 10 ^ 9 := by decide
    _ ≤ r.newP * 10 ^ 9 := Nat.mul_le_mul_right _ hP

/-- Deposits of the zero tag, and offsets that leave the product above a billionth. -/
def SampleFollow (s : System) (t : Transaction) : Prop :=
  (∀ totals, t.Tallies sampleDeployment s totals →
    (s.stabilityPool.productAfter totals.totalDebtToOffset).toOption.all fun r =>
      decide (r.scale = 0 ∧ SCALE_FACTOR ≤ r.newP)) ∧
  match t.call with
  | .provideToSP _ tag =>
    ((s.stabilityPool.tagNewDeposit t.env.sender tag).deposits t.env.sender).frontEndTag = 0 ∧
      Int.fract (s.stabilityPool.stakePool.value SCALE_FACTOR 0) ≤
        Int.fract (s.stabilityPool.pool.value SCALE_FACTOR t.env.sender)
  | .withdrawFromSP .. | .withdrawETHGainToTrove .. => False
  | _ => True

instance (s : System) (t : Transaction) : Decidable (SampleFollow s t) := by
  unfold SampleFollow
  cases t.call <;> infer_instance

theorem SampleFollow.stakesFollow {t : Transaction} (hs : s.stabilityPool.StakesInRange)
    (h : SampleFollow s t) : StakesFollow sampleDeployment s t := by
  refine ⟨fun totals htallies _ => hs.stakesStayVisible (h.1 totals htallies), fun i f hredeposits => ?_⟩
  have hround := h.2
  unfold Transaction.Redeposits at hredeposits
  split at hredeposits
  next amount tag hcall =>
    rw [hcall] at hround
    obtain ⟨rfl, rfl⟩ := hredeposits
    rw [hround.1]
    exact .inl hround.2
  next hcall =>
    rw [hcall] at hround
    exact absurd hround id
  next hcall =>
    rw [hcall] at hround
    exact absurd hround id
  next => exact absurd hredeposits id

/-- Two depositors without a front end, one of whom got his LUSD from the other. -/
def sampleSharedStake : List Transaction :=
  sampleOpenings ++ [⟨⟨103, 58 * 10 ^ 16, 0, 2000 * 10 ^ 18⟩, .openTrove (10 ^ 18) (9919 * 10 ^ 17) 0 0⟩,
    ⟨⟨101, 0, 0, 2000 * 10 ^ 18⟩, .transferLUSD 104 (1400 * 10 ^ 18 + 4)⟩,
    ⟨⟨101, 0, 0, 2000 * 10 ^ 18⟩, .provideToSP (1500 * 10 ^ 18) 0⟩,
    ⟨⟨104, 0, 0, 2000 * 10 ^ 18⟩, .provideToSP (1400 * 10 ^ 18 + 4) 0⟩,
    ⟨⟨101, 0, 0, 1800 * 10 ^ 18⟩, .liquidate 102⟩]

theorem sampleSharedStake_covered : ∃ s, ReachableWhen sampleDeployment (StakesFollow sampleDeployment) s ∧
    s.stabilityPool.getCompoundedFrontEndStake 0 = .ok 1894499999999999999302 ∧
    s.stabilityPool.getCompoundedLUSDDeposit 104 = .ok 914586206896551723802 ∧
    s.stabilityPool.sumCompounded 0 ≤ 1894499999999999999302 := by
  obtain ⟨s, hs, hstake, hdeposit⟩ := exists_reachable SampleFollow sampleSharedStake
    (fun s => s.stabilityPool.getCompoundedFrontEndStake 0 = .ok 1894499999999999999302 ∧
      s.stabilityPool.getCompoundedLUSDDeposit 104 = .ok 914586206896551723802) (by decide +kernel)
  have hfollow : ReachableWhen sampleDeployment (StakesFollow sampleDeployment) s :=
    Lib.Reachable.mono_of_reachable (fun s t hr hcond => SampleFollow.stakesFollow
      (reachable_stakesInRange sampleDeployment_wired (ReachableWhen.reachable hr)) hcond) hs
  exact ⟨s, hfollow, hstake, hdeposit, (reachable_stakes_cover sampleDeployment_wired hfollow).1 0 _ hstake⟩

/-- A withdrawal of nothing rounds the common stake down by more than the deposit; after one more
offset the two depositors together can read one more than their stake. -/
theorem stake_below_deposits :
    ¬ ∀ (d : Deployment) (s : System) (f : Address) (c : Nat), d.Wired → Reachable d s →
      s.stabilityPool.getCompoundedFrontEndStake f = .ok c → s.stabilityPool.sumCompounded f ≤ c := by
  intro hall
  obtain ⟨s, hs, hstake, ⟨htag, htag'⟩, hlt⟩ := exists_reachable (fun _ _ => True)
    (sampleSharedStake ++ [⟨⟨101, 0, 0, 1800 * 10 ^ 18⟩, .withdrawFromSP 0⟩,
      ⟨⟨101, 0, 0, 1800 * 10 ^ 18⟩, .liquidate 103⟩])
    (fun s => s.stabilityPool.getCompoundedFrontEndStake 0 = .ok 897140499999999997500 ∧
      (s.stabilityPool.tagOf 101 = 0 ∧ s.stabilityPool.tagOf 104 = 0) ∧
      897140499999999997500 < okOr (s.stabilityPool.getCompoundedLUSDDeposit 101) 0 +
        okOr (s.stabilityPool.getCompoundedLUSDDeposit 104) 0) (by decide +kernel)
  have hsum := sum_map_le_sum (by decide : ([101, 104] : List Address).Nodup)
    fun i => if s.stabilityPool.tagOf i = 0 then okOr (s.stabilityPool.getCompoundedLUSDDeposit i) 0 else 0
  simp only [List.map_cons, List.map_nil, List.sum_cons, List.sum_nil, htag, htag', if_true] at hsum
  have hcovered := hall sampleDeployment s 0 _ sampleDeployment_wired hs hstake
  unfold sumCompounded at hcovered
  omega

end StabilityPool

end Liquity
