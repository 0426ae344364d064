import Liquity.Execution
import Liquity.LiquityMath.Powers

/-!
# The decay of the base rate and its clock

A fee operation decays the base rate by whole minutes, and then sets the clock to the full timestamp
if at least one minute has passed.  What it forgets is less than a minute, and it has counted at least
one, so over any number of operations at least about half of the time is counted.  The cap on the
exponent of the decay takes nothing away: after 1000 years the rate is zero.
-/

open Lib

namespace Liquity

open SafeMath LiquityMath TroveManager

/-! ## The rate -/

namespace TroveManager

variable {t : TroveManager} {timestamp decayed : Nat}

/-- The value of `calcDecayedBaseRate`. -/
def decayedBaseRate (timestamp : Nat) (t : TroveManager) : Nat :=
  t.baseRate * power MINUTE_DECAY_FACTOR
    ((timestamp - t.lastFeeOperationTime) / SECONDS_IN_ONE_MINUTE) / DECIMAL_PRECISION

theorem calcDecayedBaseRate_eq (hrate : t.baseRate ≤ DECIMAL_PRECISION)
    (htime : t.lastFeeOperationTime ≤ timestamp) :
    t.calcDecayedBaseRate timestamp = .ok (t.decayedBaseRate timestamp) := by
  have hfactor : MINUTE_DECAY_FACTOR ≤ DECIMAL_PRECISION := by decide
  have hmul := Nat.mul_le_mul hrate (power_le hfactor
    ((timestamp - t.lastFeeOperationTime) / SECONDS_IN_ONE_MINUTE))
  simp only [calcDecayedBaseRate, minutesPassedSinceLastFeeOp, bind_ok, sub_ok, mul_ok, div_ok]
  exact ⟨_, ⟨_, ⟨htime, rfl⟩, by decide, rfl⟩, _, decPow_eq hfactor _, _,
    ⟨hmul.trans_lt (by decide), rfl⟩, by decide, rfl⟩

theorem decayedBaseRate_le (hrate : t.baseRate ≤ DECIMAL_PRECISION) :
    t.decayedBaseRate timestamp ≤ DECIMAL_PRECISION :=
  Nat.div_le_of_le_mul (Nat.mul_le_mul hrate (power_le (by decide) _))

/-- The rate that a redemption sets. -/
def redeemedBaseRate (decayed drawn price supply : Nat) : Nat :=
  Min.min (decayed + drawn * price / supply / BETA) DECIMAL_PRECISION

theorem calcDecayedBaseRate_ok (h : t.calcDecayedBaseRate timestamp = .ok decayed) :
    t.lastFeeOperationTime ≤ timestamp ∧
      ∃ factor, decPow MINUTE_DECAY_FACTOR
        ((timestamp - t.lastFeeOperationTime) / SECONDS_IN_ONE_MINUTE) = .ok factor ∧
        decayed = t.baseRate * factor / DECIMAL_PRECISION := by
  simp only [calcDecayedBaseRate, minutesPassedSinceLastFeeOp, bind_ok, sub_ok, mul_ok, div_ok] at h
  obtain ⟨_, ⟨_, ⟨hle, rfl⟩, -, rfl⟩, factor, hfactor, _, ⟨-, rfl⟩, -, rfl⟩ := h
  exact ⟨hle, factor, hfactor, rfl⟩

theorem power_maxMinutes : power MINUTE_DECAY_FACTOR maxMinutes = 0 := by decide +kernel

/-- Nothing is left after 1000 years, so with the cap on the exponent `_decPow` returns what it would
return without. -/
theorem decPow_uncapped (n : Nat) : decPow MINUTE_DECAY_FACTOR n =
    .ok (powBySquaring roundMul DECIMAL_PRECISION MINUTE_DECAY_FACTOR n) := by
  have hfactor : MINUTE_DECAY_FACTOR ≤ DECIMAL_PRECISION := by decide
  rw [decPow_eq hfactor]
  by_cases hcap : n ≤ maxMinutes
  · rw [power, Nat.min_eq_left hcap]
  · have hle : maxMinutes ≤ n := by omega
    have hfall := roundMul_monotone.powBySquaring_antitone hfactor hle
    have hzero := power_maxMinutes
    -- both the capped and the full power are zero
    rw [power, Nat.min_self] at hzero
    rw [hzero] at hfall
    rw [power, Nat.min_eq_right hle, hzero, Nat.le_zero.mp hfall]

end TroveManager

/-! ## Fee operations -/

/-- The two operations that decay the base rate. -/
inductive FeeOperation where
  | decayBaseRateFromBorrowing
  | updateBaseRateFromRedemption (ETHDrawn price totalLUSDSupply : Nat)

namespace FeeOperation

/-- `BorrowerOperations` makes the first, `redeemCollateral` the second. -/
def run (d : Deployment) (timestamp : Nat) : FeeOperation → TroveManager → Tx TroveManager
  | decayBaseRateFromBorrowing, t =>
    t.decayBaseRateFromBorrowing d d.borrowerOperations timestamp
  | updateBaseRateFromRedemption ETHDrawn price totalLUSDSupply, t =>
    t.updateBaseRateFromRedemption ETHDrawn price totalLUSDSupply timestamp

/-- The rate that an operation makes of the decayed one. -/
def newBaseRate : FeeOperation → Nat → Nat
  | decayBaseRateFromBorrowing, decayed => decayed
  | updateBaseRateFromRedemption ETHDrawn price totalLUSDSupply, decayed =>
    redeemedBaseRate decayed ETHDrawn price totalLUSDSupply

/-- Operations at the given times one after the other. -/
def runAll (d : Deployment) : List (Nat × FeeOperation) → TroveManager → Tx TroveManager
  | [], t => .ok t
  | (timestamp, op) :: rest, t => do
    let t ← op.run d timestamp t
    runAll d rest t

/-- The operation multiplies the stored rate by the decay of that many minutes, the whole minutes
since the last operation, and sets the clock if there is at least one. -/
structure Decays (op : FeeOperation) (timestamp minutes : Nat) (t t' : TroveManager) : Prop where
  minutes_eq : minutes = (timestamp - t.lastFeeOperationTime) / SECONDS_IN_ONE_MINUTE
  le : t.lastFeeOperationTime ≤ timestamp
  rate : ∃ factor, decPow MINUTE_DECAY_FACTOR minutes = .ok factor ∧
    t'.baseRate = op.newBaseRate (t.baseRate * factor / DECIMAL_PRECISION)
  time : t'.lastFeeOperationTime =
    if SECONDS_IN_ONE_MINUTE ≤ timestamp - t.lastFeeOperationTime then timestamp
    else t.lastFeeOperationTime

/-- A run of operations with the minutes by which each of them decays the rate. -/
inductive DecayRun (d : Deployment) :
    List (Nat × FeeOperation) → List Nat → TroveManager → TroveManager → Prop where
  | nil (t : TroveManager) : DecayRun d [] [] t t
  | cons {op : FeeOperation} {timestamp minutes : Nat} {rest : List (Nat × FeeOperation)}
      {later : List Nat} {t t₁ t' : TroveManager} (run : op.run d timestamp t = .ok t₁)
      (decays : op.Decays timestamp minutes t t₁) (rest_run : DecayRun d rest later t₁ t') :
      DecayRun d ((timestamp, op) :: rest) (minutes :: later) t t'

variable {d : Deployment} {timestamp minutes : Nat} {t t' : TroveManager} {op : FeeOperation}

theorem updateLastFeeOpTime_kept (h : updateLastFeeOpTime timestamp t = .ok t') :
    t'.baseRate = t.baseRate ∧ t'.lastFeeOperationTime =
      if SECONDS_IN_ONE_MINUTE ≤ timestamp - t.lastFeeOperationTime then timestamp
      else t.lastFeeOperationTime := by
  simp only [updateLastFeeOpTime, bind_ok, sub_ok, pure_ok] at h
  obtain ⟨_, ⟨-, rfl⟩, rfl⟩ := h
  split <;> exact ⟨rfl, rfl⟩

/-- Every operation decays the rate by the minutes since the last one, whatever it adds to it. -/
theorem run_decays (h : op.run d timestamp t = .ok t') :
    op.Decays timestamp ((timestamp - t.lastFeeOperationTime) / SECONDS_IN_ONE_MINUTE) t t' := by
  cases op with
  | decayBaseRateFromBorrowing =>
    -- stores the decayed rate as it is
    simp only [run, TroveManager.decayBaseRateFromBorrowing, bind_ok] at h
    obtain ⟨-, -, decayed, hdecayed, -, -, h⟩ := h
    obtain ⟨hle, factor, hfactor, rfl⟩ := calcDecayedBaseRate_ok hdecayed
    obtain ⟨hrate, htime⟩ := updateLastFeeOpTime_kept h
    exact ⟨rfl, hle, ⟨factor, hfactor, hrate⟩, htime⟩
  | updateBaseRateFromRedemption ETHDrawn price totalLUSDSupply =>
    -- adds the share of the supply that was redeemed
    simp only [run, TroveManager.updateBaseRateFromRedemption, bind_ok, mul_ok, div_ok, add_ok] at h
    obtain ⟨decayed, hdecayed, _, ⟨-, rfl⟩, _, ⟨-, rfl⟩, _, ⟨-, rfl⟩, _, ⟨-, rfl⟩, -, -, h⟩ := h
    obtain ⟨hle, factor, hfactor, rfl⟩ := calcDecayedBaseRate_ok hdecayed
    obtain ⟨hrate, htime⟩ := updateLastFeeOpTime_kept h
    refine ⟨rfl, hle, ⟨factor, hfactor, hrate.trans ?_⟩, htime⟩
    rw [min_eq]
    rfl

/-- The minutes of one operation against the time that it moves the clock by. -/
theorem Decays.minutes_time (h : op.Decays timestamp minutes t t') :
    t.lastFeeOperationTime + 60 * minutes ≤ t'.lastFeeOperationTime ∧
      t'.lastFeeOperationTime ≤ t.lastFeeOperationTime + 119 * minutes := by
  have hle := h.le
  have hsixty : SECONDS_IN_ONE_MINUTE = 60 := rfl
  rw [h.time, h.minutes_eq, hsixty]
  by_cases hlong : 60 ≤ timestamp - t.lastFeeOperationTime
  · -- at least one whole minute is counted, and less than one is lost
    rw [if_pos hlong]
    have hmod := Nat.mod_lt (timestamp - t.lastFeeOperationTime) (by decide : 0 < 60)
    omega
  · have hzero : (timestamp - t.lastFeeOperationTime) / 60 = 0 := by omega
    rw [if_neg hlong, hzero]
    omega

theorem DecayRun.minutes_time {ops : List (Nat × FeeOperation)} {minutes : List Nat}
    (h : DecayRun d ops minutes t t') :
    t.lastFeeOperationTime + 60 * minutes.sum ≤ t'.lastFeeOperationTime ∧
      t'.lastFeeOperationTime ≤ t.lastFeeOperationTime + 119 * minutes.sum := by
  induction h with
  | nil t => exact ⟨Nat.le_refl _, Nat.le_refl _⟩
  | cons run decays rest_run ih =>
    -- the bounds add up, as the clock of one operation is the start of the next
    have hfirst := decays.minutes_time
    rw [List.sum_cons]
    omega

theorem runAll_decayRun {ops : List (Nat × FeeOperation)} (h : runAll d ops t = .ok t') :
    ∃ minutes, DecayRun d ops minutes t t' := by
  induction ops generalizing t with
  | nil =>
    cases h
    exact ⟨[], .nil _⟩
  | cons first rest ih =>
    simp only [runAll, bind_ok] at h
    obtain ⟨t₁, hfirst, hrest⟩ := h
    obtain ⟨later, hlater⟩ := ih hrest
    exact ⟨_, .cons hfirst (run_decays hfirst) hlater⟩

/-- Within a minute of the last operation there is nothing to decay. -/
theorem Decays.within_minute (h : op.Decays timestamp minutes t t')
    (hshort : timestamp < t.lastFeeOperationTime + 60) :
    minutes = 0 ∧ t'.baseRate = op.newBaseRate t.baseRate ∧
      t'.lastFeeOperationTime = t.lastFeeOperationTime := by
  have hsixty : SECONDS_IN_ONE_MINUTE = 60 := rfl
  have hzero : minutes = 0 := by
    rw [h.minutes_eq, hsixty]
    omega
  refine ⟨hzero, ?_, ?_⟩
  · obtain ⟨factor, hfactor, hrate⟩ := h.rate
    rw [hzero, decPow_eq (by decide)] at hfactor
    -- the power of no minutes is one
    have hone : factor = DECIMAL_PRECISION := (Except.ok.inj hfactor).symm
    rw [hrate, hone, Nat.mul_div_cancel _ (by decide)]
  · rw [h.time, if_neg (by omega)]

end FeeOperation

/-- In any sequence of fee operations each decays the stored rate by a number of minutes, and these
minutes are at least about half of the time that the clock has moved and never more than all of it.
An operation within a minute of the last one applies no decay and leaves the clock alone.  The factor
of a decay is the power of all its minutes, also beyond the 1000 years at which `_decPow` caps them. -/
theorem feeOperations_minutes (d : Deployment) (t t' : TroveManager)
    (ops : List (Nat × FeeOperation)) (h : FeeOperation.runAll d ops t = .ok t') :
    (∃ minutes : List Nat, FeeOperation.DecayRun d ops minutes t t' ∧
      t.lastFeeOperationTime ≤ t'.lastFeeOperationTime ∧
      60 * minutes.sum ≤ t'.lastFeeOperationTime - t.lastFeeOperationTime ∧
      t'.lastFeeOperationTime - t.lastFeeOperationTime ≤ 119 * minutes.sum) ∧
    (∀ (op : FeeOperation) timestamp t t', op.run d timestamp t = .ok t' →
      timestamp < t.lastFeeOperationTime + 60 →
      op.Decays timestamp 0 t t' ∧ t'.baseRate = op.newBaseRate t.baseRate ∧
        t'.lastFeeOperationTime = t.lastFeeOperationTime) ∧
    ∀ n, decPow MINUTE_DECAY_FACTOR n =
      .ok (powBySquaring roundMul DECIMAL_PRECISION MINUTE_DECAY_FACTOR n) := by
  refine ⟨?_, fun op timestamp t t' hop hshort => ?_, decPow_uncapped⟩
  · obtain ⟨minutes, hrun⟩ := FeeOperation.runAll_decayRun h
    have htime := hrun.minutes_time
    exact ⟨minutes, hrun, by omega, by omega, by omega⟩
  · have hdecays := FeeOperation.run_decays hop
    obtain ⟨hzero, hrate, hclock⟩ := hdecays.within_minute hshort
    rw [hzero] at hdecays
    exact ⟨hdecays, hrate, hclock⟩

/-- A base rate of one percent at time zero. -/
def sampleFees : TroveManager := { sampleInitial.troveManager with baseRate := 10 ^ 16 }

/-- Borrowing 70 and 100 seconds after the start, and redeeming after 200 seconds. -/
def sampleFeeOperations : List (Nat × FeeOperation) :=
  [(70, .decayBaseRateFromBorrowing), (100, .decayBaseRateFromBorrowing),
    (200, .updateBaseRateFromRedemption (10 ^ 18) (2000 * 10 ^ 18) (10 ^ 22))]

theorem feeOperations_sample : ∃ (t' : TroveManager) (minutes : List Nat),
    FeeOperation.runAll sampleDeployment sampleFeeOperations sampleFees = .ok t' ∧
      FeeOperation.DecayRun sampleDeployment sampleFeeOperations minutes sampleFees t' ∧
      60 * minutes.sum ≤ 200 ∧ 200 ≤ 119 * minutes.sum := by
  obtain ⟨t', h, hclock⟩ := exists_ok (p := fun t : TroveManager => t.lastFeeOperationTime = 200)
    (x := FeeOperation.runAll sampleDeployment sampleFeeOperations sampleFees) (by decide +kernel)
  obtain ⟨⟨minutes, hrun, -, hlower, hupper⟩, -⟩ := feeOperations_minutes sampleDeployment _ _ _ h
  rw [hclock] at hlower hupper
  exact ⟨t', minutes, h, hrun, hlower, hupper⟩

end Liquity
