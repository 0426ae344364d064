import Liquity.Basic

/-!
# `LiquityMath` and the constants and pure helpers of `LiquityBase`
-/

open Lib

namespace Liquity

def DECIMAL_PRECISION : Nat := 10 ^ 18
/-- `LiquityBase._100pct`. -/
def pct100 : Nat := 10 ^ 18
def MCR : Nat := 11 * 10 ^ 17
def CCR : Nat := 15 * 10 ^ 17
def LUSD_GAS_COMPENSATION : Nat := 5 * 10 ^ 17
def MIN_NET_DEBT : Nat := 5 * 10 ^ 18
def PERCENT_DIVISOR : Nat := 200
def BORROWING_FEE_FLOOR : Nat := DECIMAL_PRECISION / 1000 * 5

theorem LUSD_GAS_COMPENSATION_pos : 0 < LUSD_GAS_COMPENSATION := by decide

namespace LiquityMath

open SafeMath

def NICR_PRECISION : Nat := 10 ^ 20

/-- `2**256 - 1`, the ratio of a trove without debt. -/
def maxRatio : Nat := 2 ^ 256 - 1

def min (a b : Nat) : Nat := if a < b then a else b

def max (a b : Nat) : Nat := if b ≤ a then a else b

def decMul (x y : Nat) : Tx Nat := do
  let prod_xy ← mul x y
  let rounded ← add prod_xy (DECIMAL_PRECISION / 2)
  div rounded DECIMAL_PRECISION

/-- The squaring loop of `_decPow`.  The exponent halves in every round, so it also bounds the
number of rounds. -/
def decPowLoop : (rounds x y n : Nat) → Tx Nat
  | 0, _, _, _ => .error .outOfGas
  | rounds + 1, x, y, n =>
    if 1 < n then
      if n % 2 = 0 then do
        let x' ← decMul x x
        decPowLoop rounds x' y (n / 2)
      else do
        let y' ← decMul x y
        let x' ← decMul x x
        decPowLoop rounds x' y' ((n - 1) / 2)
    else decMul x y

/-- Minutes in 1000 years, the cap on the exponent. -/
def maxMinutes : Nat := 525600000

def decPow (base minutes : Nat) : Tx Nat :=
  let n := if maxMinutes < minutes then maxMinutes else minutes
  if n = 0 then .ok DECIMAL_PRECISION else decPowLoop n base DECIMAL_PRECISION n

def computeNominalCR (coll debt : Nat) : Tx Nat :=
  if 0 < debt then do
    let scaled ← mul coll NICR_PRECISION
    div scaled debt
  else .ok maxRatio

def computeCR (coll debt price : Nat) : Tx Nat :=
  if 0 < debt then do
    let value ← mul coll price
    div value debt
  else .ok maxRatio

theorem min_eq (a b : Nat) : min a b = Min.min a b := by
  unfold min
  split <;> omega

theorem max_eq (a b : Nat) : max a b = Max.max a b := by
  unfold max
  split <;> omega

theorem computeNominalCR_ok {coll debt r : Nat} (hdebt : 0 < debt)
    (h : computeNominalCR coll debt = .ok r) : r = coll * NICR_PRECISION / debt := by
  simp only [computeNominalCR, if_pos hdebt, bind_ok, mul_ok, div_ok] at h
  obtain ⟨_, ⟨-, rfl⟩, -, rfl⟩ := h
  rfl

theorem computeCR_ok {coll debt price r : Nat} (hdebt : 0 < debt)
    (h : computeCR coll debt price = .ok r) : r = coll * price / debt := by
  simp only [computeCR, if_pos hdebt, bind_ok, mul_ok, div_ok] at h
  obtain ⟨_, ⟨-, rfl⟩, -, rfl⟩ := h
  rfl

end LiquityMath

namespace LiquityBase

open SafeMath

def getCompositeDebt (debt : Nat) : Tx Nat := add debt LUSD_GAS_COMPENSATION

def getNetDebt (debt : Nat) : Tx Nat := sub debt LUSD_GAS_COMPENSATION

def getCollGasCompensation (entireColl : Nat) : Nat := entireColl / PERCENT_DIVISOR

def requireUserAcceptsFee (fee amount maxFeePercentage : Nat) : Tx Unit := do
  let scaled ← mul fee DECIMAL_PRECISION
  let feePercentage ← div scaled amount
  require (feePercentage ≤ maxFeePercentage) "Fee exceeded provided maximum"

end LiquityBase

end Liquity
