import Liquity.Properties.StabilityPool

/-!
# The running product

The product `P` stays between `SCALE_FACTOR` and one as long as no offset shrinks it so far that one
change of scale cannot bring it back.
-/

open Lib

namespace Liquity

open SafeMath TroveManager

variable {d : Deployment} {s s' : System}

namespace StabilityPool

variable {p q : StabilityPool} {debt coll : Nat}

/-! ## The product -/

/-- The loss charged per unit for a debt that does not empty the pool. -/
def lossPerUnit (p : StabilityPool) (debt : Nat) : Nat :=
  (debt * DECIMAL_PRECISION - p.lastLUSDLossError_Offset) / p.totalLUSDDeposits + 1

/-- The offset empties the pool, ends the epoch, or leaves at least one unit of the product before
any change of scale. -/
def ProductKept (p : StabilityPool) (debt : Nat) : Prop :=
  debt = p.totalLUSDDeposits ∨ p.lossPerUnit debt = DECIMAL_PRECISION ∨
    DECIMAL_PRECISION ≤ p.P * (DECIMAL_PRECISION - p.lossPerUnit debt)

instance (p : StabilityPool) (debt : Nat) : Decidable (p.ProductKept debt) :=
  inferInstanceAs (Decidable (_ ∨ _))

structure ProductInRange (p : StabilityPool) : Prop where
  scaleFactor_le : SCALE_FACTOR ≤ p.P
  le_one : p.P ≤ DECIMAL_PRECISION

/-- The product factor of an offset is zero or what the loss per unit leaves. -/
theorem lossPerUnit_of_ok {loss : Nat × Nat}
    (h : computeLUSDLossPerUnitStaked debt p.totalLUSDDeposits p.lastLUSDLossError_Offset = .ok loss) :
    (debt = p.totalLUSDDeposits ∧ loss.1 = DECIMAL_PRECISION) ∨
      (debt ≠ p.totalLUSDDeposits ∧ 0 < p.totalLUSDDeposits ∧ loss.1 = p.lossPerUnit debt) := by
  rcases computeLUSDLossPerUnitStaked_ok h with hempty | ⟨hne, -, hpos, hloss⟩
  · exact .inl hempty
  · exact .inr ⟨hne, hpos, hloss⟩

/-- The product never passes one. -/
theorem newP_le_one {factor : Nat} {r : NewProduct} (hP : p.P ≤ DECIMAL_PRECISION)
    (hfactor : factor ≤ DECIMAL_PRECISION) (h : computeNewProduct factor p = .ok r) :
    r.newP ≤ DECIMAL_PRECISION := by
  rcases computeNewProduct_ok h with ⟨-, -, -, hnewP⟩ | ⟨-, -, -, -, hnewP⟩ | ⟨-, -, -, hlt, hnewP⟩
  · exact hnewP.le
  · rw [hnewP]
    apply Nat.div_le_of_le_mul
    exact Nat.mul_le_mul hP hfactor
  · have hlt' : p.P * factor < SCALE_FACTOR * DECIMAL_PRECISION :=
      (Nat.div_lt_iff_lt_mul (by decide)).mp hlt
    rw [hnewP]
    apply Nat.div_le_of_le_mul
    calc p.P * factor * SCALE_FACTOR ≤ SCALE_FACTOR * DECIMAL_PRECISION * SCALE_FACTOR :=
          Nat.mul_le_mul_right _ hlt'.le
      _ = DECIMAL_PRECISION * DECIMAL_PRECISION := by decide

theorem Absorbs.productInRange (h : p.Absorbs debt coll q) (hp : p.ProductInRange)
    (hkept : p.ProductKept debt) : q.ProductInRange := by
  obtain ⟨-, gain, loss, error, r, hloss, -, hone, hr, -, rfl⟩ := h.inversion
  refine ⟨?_, newP_le_one hp.le_one (Nat.sub_le _ _) hr⟩
  -- the factor is zero or large enough for one change of scale
  have hcases : DECIMAL_PRECISION - loss.1 = 0 ∨
      DECIMAL_PRECISION ≤ p.P * (DECIMAL_PRECISION - loss.1) := by
    rcases lossPerUnit_of_ok hloss with ⟨-, hloss⟩ | ⟨hne, -, hloss⟩
    · exact .inl (by omega)
    · rcases hkept.resolve_left hne with hzero | hkept
      · exact .inl (by omega)
      · exact .inr (hloss ▸ hkept)
  dsimp only
  rcases computeNewProduct_ok hr with ⟨-, -, -, hnewP⟩ | ⟨-, -, -, hge, hnewP⟩ |
    ⟨hne, -, -, -, hnewP⟩
  · rw [hnewP]
    decide
  · rw [hnewP]
    exact hge
  · rw [hnewP, Nat.le_div_iff_mul_le (by decide), Nat.mul_comm]
    exact Nat.mul_le_mul_right _ (hcases.resolve_left hne)

/-! ## The assertions of an offset -/

/-- A debt within the pool is charged at most one per unit. -/
theorem lossPerUnit_le (hle : debt ≤ p.totalLUSDDeposits) {loss : Nat × Nat}
    (h : computeLUSDLossPerUnitStaked debt p.totalLUSDDeposits p.lastLUSDLossError_Offset = .ok loss) :
    loss.1 ≤ DECIMAL_PRECISION := by
  rcases lossPerUnit_of_ok h with ⟨-, hloss⟩ | ⟨hne, hpos, hloss⟩
  · exact hloss.le
  -- the quotient is below one, so rounding it up gives at most one
  · rw [hloss, lossPerUnit, Nat.succ_le_iff, Nat.div_lt_iff_lt_mul hpos]
    have hlt : debt < p.totalLUSDDeposits := lt_of_le_of_ne hle hne
    calc debt * DECIMAL_PRECISION - p.lastLUSDLossError_Offset ≤ debt * DECIMAL_PRECISION :=
          Nat.sub_le _ _
      _ < p.totalLUSDDeposits * DECIMAL_PRECISION := Nat.mul_lt_mul_of_pos_right hlt (by decide)
      _ = DECIMAL_PRECISION * p.totalLUSDDeposits := Nat.mul_comm _ _

/-- From a product in range, any factor leaves a positive product. -/
theorem newP_pos {factor : Nat} {r : NewProduct} (hp : SCALE_FACTOR ≤ p.P)
    (h : computeNewProduct factor p = .ok r) : 0 < r.newP := by
  have hscale : 0 < SCALE_FACTOR := by decide
  rcases computeNewProduct_ok h with ⟨-, -, -, hnewP⟩ | ⟨-, -, -, hge, hnewP⟩ | ⟨hne, -, -, -, hnewP⟩
  · rw [hnewP]
    decide
  · rw [hnewP]
    exact hscale.trans_le hge
  · rw [hnewP]
    -- from `SCALE_FACTOR`, the smallest factor is made up for by the change of scale
    refine Nat.div_pos ?_ (by decide)
    calc DECIMAL_PRECISION = SCALE_FACTOR * 1 * SCALE_FACTOR := by decide
      _ ≤ p.P * factor * SCALE_FACTOR :=
        Nat.mul_le_mul_right _ (Nat.mul_le_mul hp (Nat.pos_of_ne_zero hne))

theorem computeNewProduct_avoids_assertion (factor : Nat) (p : StabilityPool) :
    Avoids (· = .assertion) (computeNewProduct factor p) := by
  have hreason : ∀ message, ¬ Revert.reason message = .assertion := nofun
  unfold computeNewProduct
  -- the function has no assertion; its divisors are constants
  split
  · exact (avoids_checkedAdd (hreason _)).bind fun _ _ => avoids_ok _
  · refine (avoids_checkedMul (hreason _)).bind fun _ _ => ?_
    refine (avoids_checkedDiv (by decide)).bind fun _ _ => ?_
    split
    · refine (avoids_checkedMul (hreason _)).bind fun _ _ => ?_
      refine (avoids_checkedDiv (by decide)).bind fun _ _ => ?_
      exact (avoids_checkedAdd (hreason _)).bind fun _ _ => avoids_ok _
    · exact avoids_ok _

theorem updateRewardSumAndProduct_avoids_assertion {gain loss : Nat} (hp : SCALE_FACTOR ≤ p.P)
    (hloss : loss ≤ DECIMAL_PRECISION) :
    Avoids (· = .assertion) (p.updateRewardSumAndProduct gain loss) := by
  have hreason : ∀ message, ¬ Revert.reason message = .assertion := nofun
  unfold updateRewardSumAndProduct
  refine (avoids_assertThat hloss).bind fun _ _ => ?_
  refine (avoids_checkedSub hloss).bind fun _ _ => ?_
  refine (avoids_checkedMul (hreason _)).bind fun _ _ => ?_
  refine (avoids_checkedAdd (hreason _)).bind fun _ _ => ?_
  refine (computeNewProduct_avoids_assertion _ _).bind fun r hr => ?_
  exact (avoids_assertThat (newP_pos hp hr)).bind fun _ _ => avoids_ok _

/-! ## Reachable states -/

/-- Whatever a transaction offsets, the product is kept. -/
def OffsetsKeepProduct (d : Deployment) (s : System) (t : Transaction) : Prop :=
  ∀ totals, t.Tallies d s totals → s.stabilityPool.ProductKept totals.totalDebtToOffset

instance (d : Deployment) (s : System) (t : Transaction) : Decidable (OffsetsKeepProduct d s t) :=
  inferInstanceAs (Decidable (∀ totals, t.Tallies d s totals → _))

theorem Issued.productInRange (h : p.Issued q) (hp : p.ProductInRange) : q.ProductInRange := by
  obtain ⟨error, G, rfl⟩ := h
  exact ⟨hp.scaleFactor_le, hp.le_one⟩

theorem reachable_productInRange (hd : d.Wired) (h : ReachableWhen d (OffsetsKeepProduct d) s) :
    s.stabilityPool.ProductInRange := by
  refine ReachableWhen.ledger_invariant hd (fun L => L.sp.ProductInRange) ?_ ?_ h
  · rintro _ ⟨ether, timestamp, -, rfl⟩
    constructor <;> simp only [System.ledger, System.initial] <;> decide
  intro s t L label L' hcond _ _ hL hallow hm
  cases hm with
  | offset debt_ne debt_le coll_le balance habsorbs =>
    obtain ⟨⟨error, G, hsp⟩, totals, htallies, rfl⟩ := hallow
    refine habsorbs.productInRange hL ?_
    rw [hsp]
    exact hcond totals htallies
  | issueLQTY hissued => exact (updateG_ok hissued).1.productInRange hL
  | registerFrontEnd => exact ⟨hL.scaleFactor_le, hL.le_one⟩
  | @redeposit i f value stake _ _ total paid =>
    have hP := (redeposited_kept L.sp i f value stake total paid).P
    exact ⟨hP.symm ▸ hL.scaleFactor_le, hP.symm ▸ hL.le_one⟩
  | _ => exact hL

/-- The product is in range, and no offset within the pool's deposits can fail an assertion. -/
theorem reachable_P_range (hd : d.Wired) (h : ReachableWhen d (OffsetsKeepProduct d) s) :
    SCALE_FACTOR ≤ s.stabilityPool.P ∧ s.stabilityPool.P ≤ DECIMAL_PRECISION ∧
      ∀ debt coll rewards, debt ≤ s.stabilityPool.totalLUSDDeposits →
        s.stabilityPool.computeRewardsPerUnitStaked coll debt s.stabilityPool.totalLUSDDeposits =
          .ok rewards →
        rewards.2.updateRewardSumAndProduct rewards.1.1 rewards.1.2 ≠ .error .assertion := by
  have hrange := reachable_productInRange hd h
  refine ⟨hrange.scaleFactor_le, hrange.le_one, fun debt coll rewards hle hrewards hfail => ?_⟩
  obtain ⟨-, error, loss, hloss, -, hlosseq, hpool⟩ := computeRewardsPerUnitStaked_ok hrewards
  have hone := lossPerUnit_le hle hloss
  rw [← hlosseq] at hone
  have hP : SCALE_FACTOR ≤ rewards.2.P := by
    rw [hpool]
    exact hrange.scaleFactor_le
  exact updateRewardSumAndProduct_avoids_assertion hP hone _ hfail rfl

theorem sampleOffset_P : ∃ s,
    ReachableWhen sampleDeployment (OffsetsKeepProduct sampleDeployment) s ∧
      s.stabilityPool.totalLUSDDeposits = 10055 * 10 ^ 17 ∧ SCALE_FACTOR ≤ s.stabilityPool.P := by
  obtain ⟨s, hs, hp⟩ := exists_reachable (OffsetsKeepProduct sampleDeployment) sampleOffset
    (fun s => s.stabilityPool.totalLUSDDeposits = 10055 * 10 ^ 17) (by decide +kernel)
  exact ⟨s, hs, hp, (reachable_P_range sampleDeployment_wired hs).1⟩

/-- Two offsets that each leave 1500 in a pool of about 1000 LUSD: the first takes the product to
`SCALE_FACTOR`, the second to one, and a change of scale makes up for only part of it. -/
theorem P_below_range :
    ¬ ∀ (d : Deployment) (s : System), d.Wired → Reachable d s → SCALE_FACTOR ≤ s.stabilityPool.P := by
  intro hall
  obtain ⟨s, hs, hp⟩ := exists_reachable (fun _ _ => True)
    (sampleOpenings ++ [⟨⟨103, 6 * 10 ^ 17, 0, 2000 * 10 ^ 18⟩, .openTrove (10 ^ 18) (1000 * 10 ^ 18) 0 0⟩,
      ⟨⟨101, 0, 0, 2000 * 10 ^ 18⟩, .provideToSP (10055 * 10 ^ 17 + 1500) 0⟩,
      ⟨⟨101, 0, 0, 1800 * 10 ^ 18⟩, .liquidate 102⟩,
      ⟨⟨101, 0, 0, 1800 * 10 ^ 18⟩, .provideToSP (10055 * 10 ^ 17) 0⟩,
      ⟨⟨101, 0, 0, 1800 * 10 ^ 18⟩, .liquidate 103⟩])
    (fun s => s.stabilityPool.P = 1) (by decide +kernel)
  have hrange := hall sampleDeployment s sampleDeployment_wired hs
  rw [hp] at hrange
  exact absurd hrange (by decide)

end StabilityPool

end Liquity
