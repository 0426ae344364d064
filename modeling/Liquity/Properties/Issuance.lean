import Liquity.LQTY
import Liquity.LiquityMath.Powers

/-!
# The issuance of LQTY

The cumulative issuance is the supply times one minus a power that falls with time, so the issuance
is a non-decreasing function of the clock, whatever the calls in between.
-/

open Lib

namespace Liquity

open SafeMath LiquityMath

namespace CommunityIssuance

variable {d : Deployment} {start now : Nat}

/-- The LQTY that is issued in total by a given time. -/
def issuedAt (d : Deployment) (timestamp : Nat) : Nat :=
  LQTYSupplyCap * (DECIMAL_PRECISION -
    power ISSUANCE_FACTOR ((timestamp - d.deploymentTime) / SECONDS_IN_ONE_MINUTE)) / DECIMAL_PRECISION

theorem ISSUANCE_FACTOR_le : ISSUANCE_FACTOR ≤ DECIMAL_PRECISION := by decide

theorem issuedAt_mono (h : start ≤ now) : issuedAt d start ≤ issuedAt d now := by
  have hminutes : (start - d.deploymentTime) / SECONDS_IN_ONE_MINUTE ≤
      (now - d.deploymentTime) / SECONDS_IN_ONE_MINUTE :=
    Nat.div_le_div_right (Nat.sub_le_sub_right h _)
  have hpower := power_le_of_le ISSUANCE_FACTOR_le hminutes
  exact Nat.div_le_div_right (Nat.mul_le_mul_left _ (Nat.sub_le_sub_left hpower _))

theorem issuedAt_le (d : Deployment) (timestamp : Nat) : issuedAt d timestamp ≤ LQTYSupplyCap := by
  refine Nat.div_le_of_le_mul ?_
  rw [Nat.mul_comm]
  exact Nat.mul_le_mul_right _ (Nat.sub_le _ _)

/-- Nothing is issued at the time of deployment. -/
theorem issuedAt_deploymentTime (d : Deployment) : issuedAt d d.deploymentTime = 0 := by
  rw [issuedAt, Nat.sub_self, Nat.zero_div]
  decide

theorem getCumulativeIssuanceFraction_eq (h : d.deploymentTime ≤ now) :
    getCumulativeIssuanceFraction d now = .ok (DECIMAL_PRECISION -
      power ISSUANCE_FACTOR ((now - d.deploymentTime) / SECONDS_IN_ONE_MINUTE)) := by
  simp only [getCumulativeIssuanceFraction, bind_ok, sub_ok, div_ok, assertThat_ok, pure_ok]
  exact ⟨_, ⟨h, rfl⟩, _, ⟨by decide, rfl⟩, _, decPow_eq ISSUANCE_FACTOR_le _, _,
    ⟨power_le ISSUANCE_FACTOR_le _, rfl⟩, (), Nat.sub_le _ _, rfl⟩

theorem issueLQTY_eq (hstart : d.deploymentTime ≤ start) (h : start ≤ now) :
    issueLQTY d d.stabilityPool now ⟨issuedAt d start⟩ =
      .ok (issuedAt d now - issuedAt d start, ⟨issuedAt d now⟩) := by
  have hfits : LQTYSupplyCap * (DECIMAL_PRECISION -
      power ISSUANCE_FACTOR ((now - d.deploymentTime) / SECONDS_IN_ONE_MINUTE)) < 2 ^ 256 :=
    (Nat.mul_le_mul_left _ (Nat.sub_le _ _)).trans_lt (by decide)
  simp only [issueLQTY, requireCallerIsStabilityPool, bind_ok, require_ok, mul_ok, div_ok, sub_ok,
    pure_ok]
  exact ⟨(), trivial, _, getCumulativeIssuanceFraction_eq (hstart.trans h), _, ⟨hfits, rfl⟩, _,
    ⟨by decide, rfl⟩, _, ⟨issuedAt_mono h, rfl⟩, rfl⟩

/-- Calls of `issueLQTY` by the Stability Pool at the given times, with what each of them returns. -/
def issueLQTYAt (d : Deployment) : List Nat → CommunityIssuance → Tx (List Nat × CommunityIssuance)
  | [], c => .ok ([], c)
  | timestamp :: rest, c => do
    let issued ← issueLQTY d d.stabilityPool timestamp c
    let later ← issueLQTYAt d rest issued.2
    return (issued.1 :: later.1, later.2)

/-- Calls at non-decreasing times succeed, and what they return is what the total grows by. -/
theorem issueLQTYAt_ok {times later : List Nat} (hstart : d.deploymentTime ≤ start)
    (h : (start :: (times ++ later)).Pairwise (· ≤ ·)) : ∃ issuances now,
      issueLQTYAt d times ⟨issuedAt d start⟩ = .ok (issuances, ⟨issuedAt d now⟩) ∧ start ≤ now ∧
      (now :: later).Pairwise (· ≤ ·) ∧ issuedAt d start + issuances.sum = issuedAt d now := by
  induction times generalizing start with
  | nil => exact ⟨[], start, rfl, Nat.le_refl _, h, Nat.add_zero _⟩
  | cons time rest ih =>
    obtain ⟨hle, hrest⟩ := List.pairwise_cons.mp h
    have htime : start ≤ time := hle time List.mem_cons_self
    obtain ⟨issuances, now, hissued, hnow, hlater, hsum⟩ := ih (hstart.trans htime) hrest
    refine ⟨(issuedAt d time - issuedAt d start) :: issuances, now, ?_, htime.trans hnow, hlater, ?_⟩
    · simp only [issueLQTYAt, bind_ok, issueLQTY_eq hstart htime, pure_ok]
      exact ⟨_, rfl, _, hissued, rfl⟩
    · have hmono : issuedAt d start ≤ issuedAt d time := issuedAt_mono htime
      rw [List.sum_cons]
      omega

end CommunityIssuance

open CommunityIssuance in
/-- Powers of a base of at most one fall with the exponent.  Hence calls of `issueLQTY` at
non-decreasing times after the deployment never underflow: the total never falls and stays within the
supply, and the issuances add up to it. -/
theorem decPow_antitone_issuance :
    (∀ base n m, base ≤ DECIMAL_PRECISION → n ≤ m → ∃ p q, decPow base m = .ok p ∧
      decPow base n = .ok q ∧ p ≤ q ∧ q ≤ DECIMAL_PRECISION) ∧
    ∀ (d : Deployment) times later, (d.deploymentTime :: (times ++ later)).Pairwise (· ≤ ·) →
      ∃ issuances c issuances' c', issueLQTYAt d times ⟨0⟩ = .ok (issuances, c) ∧
        issueLQTYAt d later c = .ok (issuances', c') ∧
        c.totalLQTYIssued ≤ c'.totalLQTYIssued ∧ c'.totalLQTYIssued ≤ LQTYSupplyCap ∧
        issuances.sum = c.totalLQTYIssued ∧
        issuances.sum + issuances'.sum = c'.totalLQTYIssued := by
  constructor
  · intro base n m hbase hnm
    exact ⟨power base m, power base n, decPow_eq hbase m, decPow_eq hbase n,
      power_le_of_le hbase hnm, power_le hbase n⟩
  · intro d times later h
    have hzero := issuedAt_deploymentTime d
    obtain ⟨issuances, now, hissued, hnow, hlater, hsum⟩ := issueLQTYAt_ok (Nat.le_refl _) h
    rw [← List.append_nil later] at hlater
    obtain ⟨issuances', now', hissued', hnow', -, hsum'⟩ := issueLQTYAt_ok hnow hlater
    rw [hzero] at hissued hsum
    refine ⟨issuances, _, issuances', _, hissued, hissued', issuedAt_mono hnow', issuedAt_le d now',
      ?_, ?_⟩
    · dsimp only
      omega
    · dsimp only
      omega

/-- Calls one minute and a year after the deployment. -/
theorem issuance_sample : ∃ issuances c issuances' c',
    CommunityIssuance.issueLQTYAt sampleDeployment [60] ⟨0⟩ = .ok (issuances, c) ∧
    CommunityIssuance.issueLQTYAt sampleDeployment [60, 31536000] c = .ok (issuances', c') ∧
    c.totalLQTYIssued ≤ c'.totalLQTYIssued ∧ (∃ p q, decPow CommunityIssuance.ISSUANCE_FACTOR 2 = .ok p ∧
      decPow CommunityIssuance.ISSUANCE_FACTOR 1 = .ok q ∧ p ≤ q) := by
  obtain ⟨hpower, hissuance⟩ := decPow_antitone_issuance
  obtain ⟨issuances, c, issuances', c', hissued, hissued', hle, -⟩ :=
    hissuance sampleDeployment [60] [60, 31536000] (by decide)
  obtain ⟨p, q, hp, hq, hpq, -⟩ := hpower CommunityIssuance.ISSUANCE_FACTOR 1 2 (by decide) (by decide)
  exact ⟨issuances, c, issuances', c', hissued, hissued', hle, p, q, hp, hq, hpq⟩

end Liquity
