import Liquity.Properties.Views

/-!
# The epochs of the Stability Pool

The epoch changes when the loss per unit, rounded up, reaches one, which can happen before the pool
is empty.  Within an epoch a deposit can still be wiped out: two changes of scale away from its
snapshot, or once less than a billionth of it is left, it reads as zero.
-/

open Lib

namespace Liquity

open SafeMath TroveManager

variable {d : Deployment} {s s' : System}

namespace StabilityPool

variable {p q : StabilityPool} {debt coll : Nat} {snapshots : Snapshots}

/-! ## What a stake reads as -/

/-- What is left of a stake at the product `P` and the scale `scale`, before the dust cut. -/
def leftOf (stake : Nat) (snapshots : Snapshots) (P scale : Nat) : Nat :=
  stake * P / (snapshots.P * SCALE_FACTOR ^ (scale - snapshots.scale))

/-- At most one change of scale away, something of the stake is left, and at least a billionth; or
the stake is too large to be read at all. -/
def Outlasts (stake : Nat) (snapshots : Snapshots) (P scale : Nat) : Prop :=
  scale ≤ snapshots.scale + 1 ∧
    (2 ^ 256 ≤ stake * P ∨
      (0 < leftOf stake snapshots P scale ∧ stake / 10 ^ 9 ≤ leftOf stake snapshots P scale))

instance (stake : Nat) (snapshots : Snapshots) (P scale : Nat) :
    Decidable (Outlasts stake snapshots P scale) :=
  inferInstanceAs (Decidable (_ ∧ _))

theorem not_outlasts_of_mul_eq_zero {stake P scale : Nat} (h : stake * P = 0) :
    ¬ Outlasts stake snapshots P scale := by
  rintro ⟨-, hlarge | ⟨hleft, -⟩⟩
  · omega
  · rw [leftOf, h, Nat.zero_div] at hleft
    omega

/-- The value at most one change of scale away. -/
theorem compoundedStakeAtScale_eq {stake snapshot_P scaleDiff : Nat} (hP : 0 < snapshot_P)
    (hdiff : scaleDiff ≤ 1) (hfits : stake * p.P < 2 ^ 256) :
    p.compoundedStakeAtScale stake snapshot_P scaleDiff =
      .ok (stake * p.P / (snapshot_P * SCALE_FACTOR ^ scaleDiff)) := by
  have hmul : mul stake p.P = .ok (stake * p.P) := mul_ok.mpr ⟨hfits, rfl⟩
  have hdiv : div (stake * p.P) snapshot_P = .ok (stake * p.P / snapshot_P) := div_ok.mpr ⟨hP, rfl⟩
  unfold compoundedStakeAtScale
  by_cases hzero : scaleDiff = 0
  · rw [if_pos hzero, hmul, ok_bind, hdiv, hzero, pow_zero, Nat.mul_one]
  · have hone : scaleDiff = 1 := by omega
    rw [if_neg hzero, if_pos hone, hmul, ok_bind, hdiv, ok_bind, hone, pow_one,
      ← Nat.div_div_eq_div_mul]
    exact div_ok.mpr ⟨by decide, rfl⟩

/-- A stake so large that the multiplication overflows is not read. -/
theorem compoundedStakeAtScale_overflow {stake snapshot_P scaleDiff : Nat} (hdiff : scaleDiff ≤ 1)
    (hlarge : 2 ^ 256 ≤ stake * p.P) :
    p.compoundedStakeAtScale stake snapshot_P scaleDiff =
      .error (.reason "SafeMath: multiplication overflow") := by
  have hmul : mul stake p.P = .error (.reason "SafeMath: multiplication overflow") :=
    if_neg (Nat.not_lt.mpr hlarge)
  unfold compoundedStakeAtScale
  by_cases hzero : scaleDiff = 0
  · rw [if_pos hzero, hmul]
    rfl
  · rw [if_neg hzero, if_pos (by omega), hmul]
    rfl

theorem compoundedStakeAtScale_far {stake snapshot_P scaleDiff : Nat} (hdiff : 1 < scaleDiff) :
    p.compoundedStakeAtScale stake snapshot_P scaleDiff = .ok 0 := by
  unfold compoundedStakeAtScale
  rw [if_neg (by omega), if_neg (by omega)]

/-- A stake does not read as zero exactly when its epoch lasts and something is left of it. -/
theorem compoundedStake_ne_zero_iff {stake : Nat} (hpast : snapshots.Past p) :
    p.getCompoundedStakeFromSnapshots stake snapshots ≠ .ok 0 ↔
      snapshots.epoch = p.currentEpoch ∧ Outlasts stake snapshots p.P p.currentScale := by
  unfold getCompoundedStakeFromSnapshots
  rcases hpast.le with hearlier | ⟨hepoch, hscale, -⟩
  · rw [if_pos hearlier]
    exact ⟨fun h => absurd rfl h, fun ⟨hepoch, _⟩ => absurd hepoch (Nat.ne_of_lt hearlier)⟩
  have hsub : LiquitySafeMath128.sub p.currentScale snapshots.scale =
      .ok (p.currentScale - snapshots.scale) := LiquitySafeMath128.sub_ok.mpr ⟨hscale, rfl⟩
  have hdust : div stake (10 ^ 9) = .ok (stake / 10 ^ 9) := div_ok.mpr ⟨by decide, rfl⟩
  rw [if_neg (by omega), hsub, ok_bind, and_iff_right hepoch]
  unfold Outlasts
  by_cases hfar : p.currentScale ≤ snapshots.scale + 1
  · rw [and_iff_right hfar]
    by_cases hfits : stake * p.P < 2 ^ 256
    · rw [compoundedStakeAtScale_eq hpast.P_pos (by omega) hfits, ok_bind, hdust, ok_bind]
      change (Except.ok (if leftOf stake snapshots p.P p.currentScale < stake / 10 ^ 9 then 0 else
        leftOf stake snapshots p.P p.currentScale) : Tx Nat) ≠ .ok 0 ↔ _
      rw [ne_eq, Except.ok.injEq]
      split <;> omega
    · have hlarge := Nat.le_of_not_lt hfits
      rw [compoundedStakeAtScale_overflow (by omega) hlarge]
      exact ⟨fun _ => .inl hlarge, fun _ h => by cases h⟩
  -- two changes of scale away
  · rw [compoundedStakeAtScale_far (by omega), ok_bind, hdust, ok_bind]
    refine ⟨fun h => absurd ?_ h, fun h => absurd h.1 hfar⟩
    change (Except.ok (if 0 < stake / 10 ^ 9 then 0 else 0) : Tx Nat) = .ok 0
    rw [ite_self]

theorem Readable.compoundedDeposit_ne_zero_iff (h : p.Readable) (i : Address) :
    p.getCompoundedLUSDDeposit i ≠ .ok 0 ↔
      (p.depositSnapshots i).epoch = p.currentEpoch ∧
        Outlasts (p.deposits i).initialValue (p.depositSnapshots i) p.P p.currentScale := by
  unfold getCompoundedLUSDDeposit
  by_cases hzero : (p.deposits i).initialValue = 0
  · simp only [if_pos hzero]
    refine ⟨fun h => absurd rfl h, fun h => absurd h.2 (not_outlasts_of_mul_eq_zero ?_)⟩
    rw [hzero, Nat.zero_mul]
  · simp only [if_neg hzero]
    exact compoundedStake_ne_zero_iff (h.deposit i hzero)

/-! ## The deposits that outlast an offset -/

/-- The product times what the loss per unit leaves, before it is divided by one. -/
def charged (p : StabilityPool) (debt : Nat) : Nat :=
  p.P * (DECIMAL_PRECISION - p.lossPerUnit debt)

/-- The changes of scale that keep the product of a charge large enough. -/
def scaleChange (p : StabilityPool) (debt : Nat) : Nat :=
  if p.charged debt / DECIMAL_PRECISION < SCALE_FACTOR then 1 else 0

/-- The deposit of `i` is one of this epoch and outlasts the loss of an offset. -/
def Survives (p : StabilityPool) (debt : Nat) (i : Address) : Prop :=
  (p.depositSnapshots i).epoch = p.currentEpoch ∧
    Outlasts (p.deposits i).initialValue (p.depositSnapshots i)
      (p.charged debt * SCALE_FACTOR ^ p.scaleChange debt / DECIMAL_PRECISION)
      (p.currentScale + p.scaleChange debt)

instance (p : StabilityPool) (debt : Nat) (i : Address) : Decidable (p.Survives debt i) :=
  inferInstanceAs (Decidable (_ ∧ _))

/-- The offset empties the pool, there is nothing to lose, or the deposit of someone survives. -/
def DepositsKept (p : StabilityPool) (debt : Nat) : Prop :=
  debt = p.totalLUSDDeposits ∨ (∀ i, p.getCompoundedLUSDDeposit i = .ok 0) ∨ ∃ i, p.Survives debt i

/-- What is left of a deposit after an offset that does not empty the pool. -/
theorem Absorbs.survives_iff (h : p.Absorbs debt coll q) (hp : p.Readable)
    (hne : debt ≠ p.totalLUSDDeposits) (i : Address) :
    q.getCompoundedLUSDDeposit i ≠ .ok 0 ↔ p.Survives debt i := by
  rw [(hp.absorbs h).compoundedDeposit_ne_zero_iff]
  obtain ⟨-, gain, loss, error, r, hloss, -, -, hr, -, rfl⟩ := h.inversion
  obtain ⟨hempty, -⟩ | ⟨-, -, hloss⟩ := lossPerUnit_of_ok hloss
  · exact absurd hempty hne
  rw [hloss] at hr
  dsimp only
  unfold Survives
  -- the three branches of the product
  rcases computeNewProduct_ok hr with ⟨hzero, hepoch, -⟩ | ⟨-, hepoch, hscale, hge, hP⟩ |
    ⟨-, hepoch, hscale, hlt, hP⟩
  · -- a new epoch, and nothing is left of the product
    have hcharged : p.charged debt = 0 := by rw [charged, hzero, Nat.mul_zero]
    constructor
    · rintro ⟨hsame, houtlasts⟩
      by_cases hdeposit : (p.deposits i).initialValue = 0
      · exact absurd houtlasts (not_outlasts_of_mul_eq_zero (by rw [hdeposit, Nat.zero_mul]))
      · have hle := (hp.deposit i hdeposit).le
        omega
    · rintro ⟨-, houtlasts⟩
      rw [hcharged, Nat.zero_mul, Nat.zero_div] at houtlasts
      exact absurd houtlasts (not_outlasts_of_mul_eq_zero (Nat.mul_zero _))
  · have hchange : p.scaleChange debt = 0 := if_neg (Nat.not_lt.mpr hge)
    rw [hchange, pow_zero, Nat.mul_one, Nat.add_zero, charged, hepoch, hscale, hP]
  · have hchange : p.scaleChange debt = 1 := if_pos hlt
    rw [hchange, pow_one, charged, hepoch, hscale, hP]

/-! ## When the epoch ends -/

/-- The offset empties the pool, or the loss per unit stays below one. -/
def EpochExact (p : StabilityPool) (debt : Nat) : Prop :=
  debt = p.totalLUSDDeposits ∨
    p.totalLUSDDeposits < (p.totalLUSDDeposits - debt) * DECIMAL_PRECISION + p.lastLUSDLossError_Offset

/-- The rounded-up loss reaches one when what is left of the pool, with the carried error, is too
little. -/
theorem lossPerUnit_eq_one_iff (hle : debt ≤ p.totalLUSDDeposits)
    (hne : debt ≠ p.totalLUSDDeposits) (hpos : 0 < p.totalLUSDDeposits)
    (herror : p.lastLUSDLossError_Offset ≤ debt * DECIMAL_PRECISION) :
    p.lossPerUnit debt = DECIMAL_PRECISION ↔ ¬ p.EpochExact debt := by
  have hsub := Nat.sub_mul p.totalLUSDDeposits debt DECIMAL_PRECISION
  have hmul : debt * DECIMAL_PRECISION ≤ p.totalLUSDDeposits * DECIMAL_PRECISION :=
    Nat.mul_le_mul_right _ hle
  have hone : 0 < DECIMAL_PRECISION := by decide
  have hdiv : (debt * DECIMAL_PRECISION - p.lastLUSDLossError_Offset) / p.totalLUSDDeposits <
      DECIMAL_PRECISION := by
    rw [Nat.div_lt_iff_lt_mul hpos]
    have hlt : debt * DECIMAL_PRECISION < p.totalLUSDDeposits * DECIMAL_PRECISION :=
      Nat.mul_lt_mul_of_pos_right (lt_of_le_of_ne hle hne) hone
    rw [Nat.mul_comm DECIMAL_PRECISION]
    omega
  -- rounded up, the loss is one where the quotient is one unit below
  have hlast : DECIMAL_PRECISION - 1 ≤
      (debt * DECIMAL_PRECISION - p.lastLUSDLossError_Offset) / p.totalLUSDDeposits ↔
        (DECIMAL_PRECISION - 1) * p.totalLUSDDeposits ≤
          debt * DECIMAL_PRECISION - p.lastLUSDLossError_Offset := Nat.le_div_iff_mul_le hpos
  have hexpand : (DECIMAL_PRECISION - 1) * p.totalLUSDDeposits =
      p.totalLUSDDeposits * DECIMAL_PRECISION - p.totalLUSDDeposits := by
    rw [Nat.sub_mul, Nat.one_mul, Nat.mul_comm]
  rw [hexpand] at hlast
  unfold lossPerUnit EpochExact
  rw [not_or, Nat.not_lt]
  omega

/-- What an offset does to the epoch. -/
theorem Absorbs.epoch (h : p.Absorbs debt coll q) :
    (q.currentEpoch = p.currentEpoch + 1 ↔
      debt = p.totalLUSDDeposits ∨ ¬ p.EpochExact debt) ∧
      (q.totalLUSDDeposits = 0 ↔ debt = p.totalLUSDDeposits) ∧
      (q.currentEpoch = p.currentEpoch + 1 → q.P = DECIMAL_PRECISION ∧ q.currentScale = 0) := by
  obtain ⟨hle, gain, loss, error, r, hloss, -, hone, hr, -, rfl⟩ := h.inversion
  -- the new epoch is decided by the factor alone
  have hfactor : DECIMAL_PRECISION - loss.1 = 0 ↔
      debt = p.totalLUSDDeposits ∨ ¬ p.EpochExact debt := by
    rcases computeLUSDLossPerUnitStaked_ok hloss with ⟨heq, hloss⟩ | ⟨hne, herror, hpos, hloss⟩
    · rw [hloss, Nat.sub_self]
      exact ⟨fun _ => .inl heq, fun _ => rfl⟩
    · have hiff := lossPerUnit_eq_one_iff hle hne hpos herror
      rw [lossPerUnit, ← hloss] at hiff
      constructor
      · exact fun hzero => .inr (hiff.mp (by omega))
      · rintro (heq | hnot)
        · exact absurd heq hne
        · have := hiff.mpr hnot
          omega
  -- of the three branches only the first one counts the epoch up
  refine ⟨?_, ?_, ?_⟩
  · rw [← hfactor]
    rcases computeNewProduct_ok hr with ⟨hzero, hepoch, -⟩ | ⟨hne, hepoch, -⟩ | ⟨hne, hepoch, -⟩
    · exact ⟨fun _ => hzero, fun _ => hepoch⟩
    · exact ⟨fun h => absurd (hepoch.symm.trans h) (by omega), fun h => absurd h hne⟩
    · exact ⟨fun h => absurd (hepoch.symm.trans h) (by omega), fun h => absurd h hne⟩
  · dsimp only
    omega
  · intro hnext
    rcases computeNewProduct_ok hr with ⟨-, -, hscale, hP⟩ | ⟨hne, hepoch, -⟩ | ⟨hne, hepoch, -⟩
    · exact ⟨hP, hscale⟩
    · exact absurd (hepoch.symm.trans hnext) (by omega)
    · exact absurd (hepoch.symm.trans hnext) (by omega)

theorem getCompounded_of_epoch_lt {i : Address}
    (h : (q.deposits i).initialValue ≠ 0 → (q.depositSnapshots i).epoch < q.currentEpoch) :
    q.getCompoundedLUSDDeposit i = .ok 0 := by
  simp only [getCompoundedLUSDDeposit]
  split
  · rfl
  next hne => rw [getCompoundedStakeFromSnapshots, if_pos (h hne)]

/-- An offset that leaves LUSD in the pool leaves something of the deposits exactly when one of them
survives. -/
theorem Absorbs.depositsKept_iff (h : p.Absorbs debt coll q) (hp : p.Readable) :
    (q.totalLUSDDeposits ≠ 0 → (∃ i, p.getCompoundedLUSDDeposit i ≠ .ok 0) →
      ∃ i, q.getCompoundedLUSDDeposit i ≠ .ok 0) ↔ p.DepositsKept debt := by
  obtain ⟨-, htotal, -⟩ := h.epoch
  constructor
  · intro hkeeps
    by_cases hempty : debt = p.totalLUSDDeposits
    · exact .inl hempty
    by_cases hnothing : ∀ i, p.getCompoundedLUSDDeposit i = .ok 0
    · exact .inr (.inl hnothing)
    obtain ⟨i, hi⟩ := hkeeps (fun hzero => hempty (htotal.mp hzero)) (not_forall.mp hnothing)
    exact .inr (.inr ⟨i, (h.survives_iff hp hempty i).mp hi⟩)
  · rintro hkept hleft ⟨i, hi⟩
    have hempty : debt ≠ p.totalLUSDDeposits := fun heq => hleft (htotal.mpr heq)
    rcases hkept.resolve_left hempty with hnothing | ⟨j, hj⟩
    · exact absurd (hnothing i) hi
    · exact ⟨j, (h.survives_iff hp hempty j).mpr hj⟩

/-- A new epoch wipes out every deposit: all were made in an epoch that has ended. -/
theorem Absorbs.compounded_of_epoch (h : p.Absorbs debt coll q) (hp : p.Readable)
    (hnext : q.currentEpoch = p.currentEpoch + 1) (i : Address) :
    q.getCompoundedLUSDDeposit i = .ok 0 := by
  obtain ⟨-, gain, loss, error, r, -, -, -, -, -, hq⟩ := h.inversion
  have hdeposits : q.deposits = p.deposits := by rw [hq]
  have hsnapshots : q.depositSnapshots = p.depositSnapshots := by rw [hq]
  apply getCompounded_of_epoch_lt
  rw [hdeposits, hsnapshots, hnext]
  intro hne
  have hle := (hp.deposit i hne).le
  omega

/-- What an offset does to the epoch and to the deposits.  It starts a new epoch exactly when it
empties the pool, if and only if it empties the pool or leaves enough in it for the loss per unit to
stay below one.  When it leaves LUSD in the pool it does not zero all deposits, if and only if there
was nothing to lose or some deposit survives, and the survivors are the deposits that do not read as
zero.  Emptying the pool always starts a new epoch, and a new epoch wipes out every deposit. -/
theorem offset_epoch_iff (hd : d.Wired) (hr : Reachable d s) {t : Transaction}
    {totals : LiquidationTotals} (hstep : Step d s t s') (htotals : t.Tallies d s totals)
    (hoffset : totals.totalDebtToOffset ≠ 0) :
    ((s'.stabilityPool.currentEpoch = s.stabilityPool.currentEpoch + 1 ↔
        s'.stabilityPool.totalLUSDDeposits = 0) ↔
      s.stabilityPool.EpochExact totals.totalDebtToOffset) ∧
      ((s'.stabilityPool.totalLUSDDeposits ≠ 0 →
          (∃ i, s.stabilityPool.getCompoundedLUSDDeposit i ≠ .ok 0) →
          ∃ i, s'.stabilityPool.getCompoundedLUSDDeposit i ≠ .ok 0) ↔
        s.stabilityPool.DepositsKept totals.totalDebtToOffset) ∧
      (s'.stabilityPool.totalLUSDDeposits ≠ 0 →
        ∀ i, s'.stabilityPool.getCompoundedLUSDDeposit i ≠ .ok 0 ↔
          s.stabilityPool.Survives totals.totalDebtToOffset i) ∧
      (s'.stabilityPool.totalLUSDDeposits = 0 →
        s'.stabilityPool.currentEpoch = s.stabilityPool.currentEpoch + 1 ∧
          s'.stabilityPool.P = DECIMAL_PRECISION ∧ s'.stabilityPool.currentScale = 0) ∧
      (s'.stabilityPool.currentEpoch = s.stabilityPool.currentEpoch + 1 →
        ∀ i, s'.stabilityPool.getCompoundedLUSDDeposit i = .ok 0) := by
  obtain ⟨l, hl, rfl⟩ := htotals
  obtain ⟨-, -, hoffsets⟩ := Step.settled hd hr hstep hl
  obtain ⟨hzero, -⟩ | ⟨-, issuance, p₁, hissued, habsorbs⟩ := hoffsets
  · exact absurd hzero hoffset
  have hreadable := (reachable_readable hd hr).issued hissued
  -- issuing LQTY changes nothing that the epoch or a deposit depends on
  obtain ⟨⟨error, G, rfl⟩, -⟩ := updateG_ok hissued
  obtain ⟨hepoch, htotal, hnew⟩ := habsorbs.epoch
  refine ⟨?_, ?_, fun hleft i => ?_, fun hempty => ?_, fun hnext i => ?_⟩
  · rw [hepoch, htotal]
    change (_ ∨ ¬ s.stabilityPool.EpochExact _ ↔ _) ↔ _
    unfold EpochExact
    tauto
  · exact habsorbs.depositsKept_iff hreadable
  · exact habsorbs.survives_iff hreadable (fun heq => hleft (htotal.mpr heq)) i
  · have hnext := hepoch.mpr (.inl (htotal.mp hempty))
    exact ⟨hnext, hnew hnext⟩
  · exact habsorbs.compounded_of_epoch hreadable hnext i

/-- The liquidation of 102 at a price of 1800. -/
def sampleLiquidation : Transaction := ⟨⟨101, 0, 0, 1800 * 10 ^ 18⟩, .liquidate 102⟩

theorem sampleOffset_epoch : ∃ s s' totals, Reachable sampleDeployment s ∧
    Step sampleDeployment s sampleLiquidation s' ∧
    sampleLiquidation.Tallies sampleDeployment s totals ∧ totals.totalDebtToOffset ≠ 0 ∧
    s'.stabilityPool.totalLUSDDeposits = 0 ∧
    s'.stabilityPool.currentEpoch = s.stabilityPool.currentEpoch + 1 := by
  obtain ⟨s, s', hs, hstep, hne, hempty⟩ := exists_step
    (sampleOpenings ++ [⟨⟨101, 0, 0, 2000 * 10 ^ 18⟩, .provideToSP (10055 * 10 ^ 17) 0⟩])
    sampleLiquidation
    (fun s s' => (∀ totals, sampleLiquidation.Tallies sampleDeployment s totals →
      totals.totalDebtToOffset ≠ 0) ∧ s'.stabilityPool.totalLUSDDeposits = 0) (by decide +kernel)
  obtain ⟨l, hl, -⟩ := hstep.tallied sampleDeployment_wired rfl
  have htallies : sampleLiquidation.Tallies sampleDeployment s l.totals := ⟨l, congrArg some hl, rfl⟩
  have hepoch := offset_epoch_iff sampleDeployment_wired hs hstep htallies (hne _ htallies)
  exact ⟨s, s', l.totals, hs, hstep, htallies, hne _ htallies, hempty, (hepoch.2.2.2.1 hempty).1⟩

/-- An offset leaves 1006 in a pool of about 1000 LUSD: the epoch lasts, and yet the only deposit, of
which less than a billionth is left, reads as zero. -/
example : ∃ s s', Reachable sampleDeployment s ∧ Step sampleDeployment s sampleLiquidation s' ∧
    s'.stabilityPool.totalLUSDDeposits = 1006 ∧
    s'.stabilityPool.currentEpoch = s.stabilityPool.currentEpoch ∧
    (s'.stabilityPool.getCompoundedLUSDDeposit 101).toOption = some 0 :=
  exists_step
    (sampleOpenings ++ [⟨⟨101, 0, 0, 2000 * 10 ^ 18⟩, .provideToSP (10055 * 10 ^ 17 + 1006) 0⟩])
    sampleLiquidation
    (fun s s' => s'.stabilityPool.totalLUSDDeposits = 1006 ∧
      s'.stabilityPool.currentEpoch = s.stabilityPool.currentEpoch ∧
      (s'.stabilityPool.getCompoundedLUSDDeposit 101).toOption = some 0) (by decide +kernel)

/-- An offset leaves 100 in a pool of about 1000 LUSD and starts a new epoch. -/
theorem epoch_ends_early :
    ¬ ∀ (d : Deployment) (s s' : System) (t : Transaction) (totals : LiquidationTotals), d.Wired →
      Reachable d s → Step d s t s' → t.Tallies d s totals → totals.totalDebtToOffset ≠ 0 →
        (s'.stabilityPool.currentEpoch = s.stabilityPool.currentEpoch + 1 ↔
          s'.stabilityPool.totalLUSDDeposits = 0) := by
  intro hall
  obtain ⟨s, s', hs, hstep, hne, hleft, hepoch⟩ := exists_step
    (sampleOpenings ++ [⟨⟨101, 0, 0, 2000 * 10 ^ 18⟩, .provideToSP (10055 * 10 ^ 17 + 100) 0⟩])
    sampleLiquidation
    (fun s s' => (∀ totals, sampleLiquidation.Tallies sampleDeployment s totals →
      totals.totalDebtToOffset ≠ 0) ∧ s'.stabilityPool.totalLUSDDeposits = 100 ∧
      s'.stabilityPool.currentEpoch = s.stabilityPool.currentEpoch + 1) (by decide +kernel)
  obtain ⟨l, hl, -⟩ := hstep.tallied sampleDeployment_wired rfl
  have htallies : sampleLiquidation.Tallies sampleDeployment s l.totals := ⟨l, congrArg some hl, rfl⟩
  have hempty := (hall _ s s' _ _ sampleDeployment_wired hs hstep htallies (hne _ htallies)).mp hepoch
  omega

end StabilityPool

end Liquity
