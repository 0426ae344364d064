import Liquity.Soundness

/-!
# The Stability Pool covers its deposits and gains

As long as every offset charges the deposits at least the debt that it absorbs, the pool covers all
compounded deposits and holds all ETH gains.  The charge is rounded up, but the excess of one offset
is given back by the next, which can then charge too little.
-/

open Lib

namespace Liquity

open SafeMath TroveManager

variable {d : Deployment} {s : System}

namespace StabilityPool

/-- If a transaction offsets a debt, the loss charged to the deposits covers it. -/
def OffsetsCovered (d : Deployment) (s : System) (t : Transaction) : Prop :=
  ∀ totals, t.Tallies d s totals → totals.totalDebtToOffset ≠ 0 →
    s.stabilityPool.LossCovered totals.totalDebtToOffset

instance (d : Deployment) (s : System) (t : Transaction) : Decidable (OffsetsCovered d s t) :=
  inferInstanceAs (Decidable (∀ totals, t.Tallies d s totals → (_ ≠ _ → _)))

/-! ## The pool stays covered -/

theorem initial_covered (h : IsInitial d s) :
    s.stabilityPool.pool.Covered SCALE_FACTOR DECIMAL_PRECISION := by
  have hpool := h.sound.books.pool
  obtain ⟨ether, timestamp, -, rfl⟩ := h
  refine ⟨hpool, ?_, ?_⟩
  · simp [pool, System.initial, ProductSum.Pool.value]
  · simp [pool, System.initial, ProductSum.Pool.gain]

theorem reachable_covered (hd : d.Wired) (h : ReachableWhen d (OffsetsCovered d) s) :
    s.stabilityPool.pool.Covered SCALE_FACTOR DECIMAL_PRECISION := by
  refine ReachableWhen.ledger_invariant hd
    (fun L => L.sp.pool.Covered SCALE_FACTOR DECIMAL_PRECISION) (fun _ => initial_covered) ?_ h
  intro s t L label L' hcond _ _ hL hallow hm
  cases hm with
  | offset debt_ne debt_le coll_le balance habsorbs =>
    obtain ⟨⟨error, G, hsp⟩, totals, htallies, rfl⟩ := hallow
    obtain ⟨perUnit, hoffset⟩ := habsorbs.offset
    refine hoffset.covered hL (by decide) (habsorbs.shrinksEnough ?_)
    rw [hsp]
    exact hcond totals htallies debt_ne
  | issueLQTY hissued =>
    have hpool := (updateG_ok hissued).1.pool_eq
    rw [hpool]
    exact hL
  | @redeposit i f value stake compounded compoundedStake total paid balances htag hcompounded hstake
      hpaid hreserve hstakeeq htotal =>
    obtain ⟨snapshot, hsnapshot, hpool⟩ := L.sp.redeposited_pool i f value stake total paid
    rw [hpool]
    exact hL.redeposit hsnapshot (getCompoundedLUSDDeposit_le hcompounded) htotal
      (getDepositorETHGain_le hpaid) hreserve
  | _ => exact hL

theorem sum_compounded_le (h : s.stabilityPool.pool.Covered SCALE_FACTOR DECIMAL_PRECISION) :
    ∑ i, okOr (s.stabilityPool.getCompoundedLUSDDeposit i) 0 ≤ s.stabilityPool.totalLUSDDeposits := by
  refine h.sum_reading_le fun i => ?_
  cases hi : s.stabilityPool.getCompoundedLUSDDeposit i with
  | error e => simpa using ProductSum.Pool.value_nonneg
  | ok c => exact getCompoundedLUSDDeposit_le hi

theorem sum_ETHGain_le (h : s.stabilityPool.pool.Covered SCALE_FACTOR DECIMAL_PRECISION) :
    ∑ i, okOr (s.stabilityPool.getDepositorETHGain i) 0 ≤ s.stabilityPool.ETH := by
  refine h.sum_paid_le (by decide) fun i => ?_
  cases hi : s.stabilityPool.getDepositorETHGain i with
  | error e => simpa using h.gain_nonneg i
  | ok c => exact getDepositorETHGain_le hi

/-! ## Deposits -/

/-- A payment that the pool's total and its balance cover succeeds. -/
theorem sendLUSDToDepositor_succeeds (hd : d.Wired) {i : Address} {amount : Nat} (hi : d.External i)
    (hle : amount ≤ s.stabilityPool.totalLUSDDeposits)
    (hbalance : s.stabilityPool.totalLUSDDeposits ≤ s.lusdToken.balances d.stabilityPool)
    (hsum : ∑ x, s.lusdToken.balances x < 2 ^ 256) :
    ∃ s', sendLUSDToDepositor d i amount s = .ok s' := by
  have hpool : d.stabilityPool ≠ 0 :=
    fun hzero => hd.zero_notMem (by simp [Deployment.contracts, hzero])
  unfold sendLUSDToDepositor
  split
  · exact ⟨s, rfl⟩
  · obtain ⟨t, ht⟩ := LUSDToken.transferInternal_of_le hpool hi.1 (hle.trans hbalance) hsum
    simp only [bind_ok, System.onLUSDToken_ok, System.onStabilityPool_ok, decreaseLUSD, pure_ok,
      sub_ok, LUSDToken.returnFromPool]
    exact ⟨_, _, ⟨t, ⟨(), require_ok.mpr (.inr rfl), ht⟩, rfl⟩, _, ⟨_, ⟨hle, rfl⟩, rfl⟩, rfl⟩

/-- Payments that the pool's total and its balance cover all succeed. -/
theorem sendLUSD_foldlM (hd : d.Wired) {c : Address → Nat} {depositors : List Address}
    (hexternal : ∀ i ∈ depositors, d.External i)
    (hcovered : (depositors.map c).sum ≤ s.stabilityPool.totalLUSDDeposits)
    (hbalance : s.stabilityPool.totalLUSDDeposits ≤ s.lusdToken.balances d.stabilityPool)
    (hsum : ∑ x, s.lusdToken.balances x < 2 ^ 256) :
    ∃ s', depositors.foldlM (fun s i => sendLUSDToDepositor d i (c i) s) s = .ok s' := by
  induction depositors generalizing s with
  | nil => exact ⟨s, rfl⟩
  | cons i rest ih =>
    have hi := hexternal i List.mem_cons_self
    rw [List.map_cons, List.sum_cons] at hcovered
    have hle : c i ≤ s.stabilityPool.totalLUSDDeposits := by omega
    obtain ⟨s₁, h₁⟩ := sendLUSDToDepositor_succeeds hd hi hle hbalance hsum
    obtain ⟨hpaid, -, rfl⟩ := sendLUSDToDepositor_ok h₁
    rw [List.foldlM_cons, h₁]
    refine ih (fun j hj => hexternal j (List.mem_cons_of_mem i hj)) ?_ ?_ ?_
    · simp only
      omega
    · simp only [move_source hi.ne_stabilityPool.symm]
      omega
    · simp only [sum_move hpaid]
      exact hsum

/-- All compounded deposits are covered by the recorded total, and the total by the pool's LUSD, so
depositors can withdraw everything in any order. -/
theorem reachable_deposits_covered (hd : d.Wired) (h : ReachableWhen d (OffsetsCovered d) s) :
    ∑ i, okOr (s.stabilityPool.getCompoundedLUSDDeposit i) 0 ≤ s.stabilityPool.totalLUSDDeposits ∧
      s.stabilityPool.totalLUSDDeposits ≤ s.lusdToken.balances d.stabilityPool ∧
      ∀ depositors : List Address, depositors.Nodup → (∀ i ∈ depositors, d.External i) →
        ∃ s', depositors.foldlM (fun s' i => sendLUSDToDepositor d i
          (okOr (s.stabilityPool.getCompoundedLUSDDeposit i) 0) s') s = .ok s' := by
  have hs := h.reachable.sound hd
  have hsum := sum_compounded_le (reachable_covered hd h)
  refine ⟨hsum, hs.books.deposits, fun depositors hnodup hexternal => ?_⟩
  exact sendLUSD_foldlM hd hexternal ((sum_map_le_sum hnodup _).trans hsum) hs.books.deposits
    (hs.books.sum_balances.trans_lt hs.books.supply_lt)

/-- A depositor's trove and deposit, and one liquidation against the deposit. -/
def sampleOffset : List Transaction :=
  sampleOpenings ++ [⟨⟨101, 0, 0, 2000 * 10 ^ 18⟩, .provideToSP (2011 * 10 ^ 18) 0⟩,
    ⟨⟨101, 0, 0, 1800 * 10 ^ 18⟩, .liquidate 102⟩]

theorem sampleOffset_deposits : ∃ s, ReachableWhen sampleDeployment (OffsetsCovered sampleDeployment) s ∧
    s.stabilityPool.totalLUSDDeposits = 10055 * 10 ^ 17 ∧
    ∑ i, okOr (s.stabilityPool.getCompoundedLUSDDeposit i) 0 ≤ s.stabilityPool.totalLUSDDeposits := by
  obtain ⟨s, hs, hp⟩ := exists_reachable (OffsetsCovered sampleDeployment) sampleOffset
    (fun s => s.stabilityPool.totalLUSDDeposits = 10055 * 10 ^ 17) (by decide +kernel)
  exact ⟨s, hs, hp, (reachable_deposits_covered sampleDeployment_wired hs).1⟩

/-- The second of two offsets gives back more than rounding up adds: the only depositor can read
987 more than the pool records. -/
theorem deposits_not_covered :
    ¬ ∀ (d : Deployment) (s : System), d.Wired → Reachable d s →
      ∑ i, okOr (s.stabilityPool.getCompoundedLUSDDeposit i) 0 ≤
        s.stabilityPool.totalLUSDDeposits := by
  intro hall
  obtain ⟨s, hs, hp⟩ := exists_reachable (fun _ _ => True)
    (sampleOpenings ++ [⟨⟨103, 58 * 10 ^ 16, 0, 2000 * 10 ^ 18⟩, .openTrove (10 ^ 18) (9919 * 10 ^ 17) 0 0⟩,
      ⟨⟨101, 0, 0, 2000 * 10 ^ 18⟩, .provideToSP (2011 * 10 ^ 18) 0⟩,
      ⟨⟨101, 0, 0, 1800 * 10 ^ 18⟩, .liquidate 102⟩, ⟨⟨101, 0, 0, 1800 * 10 ^ 18⟩, .liquidate 103⟩])
    (fun s => s.stabilityPool.totalLUSDDeposits <
      okOr (s.stabilityPool.getCompoundedLUSDDeposit 101) 0) (by decide +kernel)
  have hone := le_sum (fun i => okOr (s.stabilityPool.getCompoundedLUSDDeposit i) 0) 101
  have hsum := hall sampleDeployment s sampleDeployment_wired hs
  omega

/-! ## ETH gains -/

/-- All ETH gains are covered by the recorded ether, so they can be paid in any order. -/
theorem reachable_gains_covered (hd : d.Wired) (h : ReachableWhen d (OffsetsCovered d) s) :
    ∑ i, okOr (s.stabilityPool.getDepositorETHGain i) 0 ≤ s.stabilityPool.ETH ∧
      ∀ depositors : List Address, depositors.Nodup → ∃ ETH,
        depositors.foldlM (fun ETH i =>
          sub ETH (okOr (s.stabilityPool.getDepositorETHGain i) 0)) s.stabilityPool.ETH = .ok ETH := by
  have hsum := sum_ETHGain_le (reachable_covered hd h)
  exact ⟨hsum, fun depositors hnodup =>
    ⟨_, foldlM_checkedSub ((sum_map_le_sum hnodup _).trans hsum)⟩⟩

theorem sampleOffset_gains : ∃ s, ReachableWhen sampleDeployment (OffsetsCovered sampleDeployment) s ∧
    s.stabilityPool.ETH = 597 * 10 ^ 15 ∧
    ∑ i, okOr (s.stabilityPool.getDepositorETHGain i) 0 ≤ s.stabilityPool.ETH := by
  obtain ⟨s, hs, hp⟩ := exists_reachable (OffsetsCovered sampleDeployment) sampleOffset
    (fun s => s.stabilityPool.ETH = 597 * 10 ^ 15) (by decide +kernel)
  exact ⟨s, hs, hp, (reachable_gains_covered sampleDeployment_wired hs).1⟩

/-- A third liquidation after two such offsets: the depositor's deposit is read too high, and with it
the share of the new collateral. -/
theorem gains_not_covered :
    ¬ ∀ (d : Deployment) (s : System), d.Wired → Reachable d s →
      ∑ i, okOr (s.stabilityPool.getDepositorETHGain i) 0 ≤ s.stabilityPool.ETH := by
  intro hall
  obtain ⟨s, hs, hp⟩ := exists_reachable (fun _ _ => True)
    [⟨⟨101, 10 ^ 21, 0, 2000 * 10 ^ 18⟩, .openTrove (10 ^ 18) (3000 * 10 ^ 18) 0 0⟩,
      ⟨⟨102, 6 * 10 ^ 17, 0, 2000 * 10 ^ 18⟩, .openTrove (10 ^ 18) (1000 * 10 ^ 18) 0 0⟩,
      ⟨⟨103, 58 * 10 ^ 16, 0, 2000 * 10 ^ 18⟩, .openTrove (10 ^ 18) (9919 * 10 ^ 17) 0 0⟩,
      ⟨⟨101, 0, 0, 2000 * 10 ^ 18⟩, .provideToSP (2011 * 10 ^ 18) 0⟩,
      ⟨⟨101, 0, 0, 1800 * 10 ^ 18⟩, .liquidate 102⟩, ⟨⟨101, 0, 0, 1800 * 10 ^ 18⟩, .liquidate 103⟩,
      ⟨⟨104, 61 * 10 ^ 16, 0, 10 * 10 ^ 18⟩, .openTrove (10 ^ 18) (5 * 10 ^ 18) 0 0⟩,
      ⟨⟨101, 0, 0, 9 * 10 ^ 18⟩, .liquidate 104⟩]
    (fun s => s.stabilityPool.ETH < okOr (s.stabilityPool.getDepositorETHGain 101) 0)
    (by decide +kernel)
  have hone := le_sum (fun i => okOr (s.stabilityPool.getDepositorETHGain i) 0) 101
  have hsum := hall sampleDeployment s sampleDeployment_wired hs
  omega

end StabilityPool

end Liquity
