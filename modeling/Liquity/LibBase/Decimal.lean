import Liquity.Lib.Transaction

/-!
# `Decimal` and the constants of `lib-base`

Fixed-point decimals with 18 digits over integers of any size.
-/

open Lib

namespace Liquity.LibBase

/-- A call that may throw: an `Error` with its message, or a failed `assert`. -/
abbrev Js := Tx

/-- The constructor rejects negative numbers. -/
structure Decimal where
  bigNumber : Nat
  deriving DecidableEq, Repr

namespace Decimal

def PRECISION : Nat := 18
def DIGITS : Nat := 10 ^ PRECISION

def INFINITY : Decimal := ⟨2 ^ 256 - 1⟩
def ZERO : Decimal := ⟨0⟩
def HALF : Decimal := ⟨DIGITS / 2⟩
def ONE : Decimal := ⟨DIGITS⟩

theorem DIGITS_pos : 0 < DIGITS := by decide

def roundedMul (x y : Nat) : Nat := (x * y + HALF.bigNumber) / DIGITS

def isZero (a : Decimal) : Prop := a.bigNumber = 0
def lt (a b : Decimal) : Prop := a.bigNumber < b.bigNumber
def gt (a b : Decimal) : Prop := b.bigNumber < a.bigNumber
def gte (a b : Decimal) : Prop := b.bigNumber ≤ a.bigNumber

instance (a : Decimal) : Decidable a.isZero := inferInstanceAs (Decidable (_ = _))
instance (a b : Decimal) : Decidable (a.lt b) := inferInstanceAs (Decidable (_ < _))
instance (a b : Decimal) : Decidable (a.gt b) := inferInstanceAs (Decidable (_ < _))
instance (a b : Decimal) : Decidable (a.gte b) := inferInstanceAs (Decidable (_ ≤ _))

def min (a b : Decimal) : Decimal := if a.lt b then a else b

def add (a b : Decimal) : Decimal := ⟨a.bigNumber + b.bigNumber⟩

def sub (a b : Decimal) : Js Decimal := do
  require (b.bigNumber ≤ a.bigNumber) "negatives not supported by Decimal"
  return ⟨a.bigNumber - b.bigNumber⟩

def mul (a b : Decimal) : Decimal := ⟨a.bigNumber * b.bigNumber / DIGITS⟩

def div (a divider : Decimal) : Decimal :=
  if divider.isZero then INFINITY else ⟨a.bigNumber * DIGITS / divider.bigNumber⟩

def divCeil (a divider : Decimal) : Decimal :=
  if divider.isZero then INFINITY
  else ⟨(a.bigNumber * DIGITS + (divider.bigNumber - 1)) / divider.bigNumber⟩

def mulDiv (a multiplier divider : Decimal) : Decimal :=
  if divider.isZero then INFINITY else ⟨a.bigNumber * multiplier.bigNumber / divider.bigNumber⟩

/-- The loop of `pow`.  The exponent halves in every round, so it also bounds the rounds. -/
def powLoop : (rounds x y exponent : Nat) → Nat
  | 0, x, y, _ => roundedMul x y
  | rounds + 1, x, y, exponent =>
    if 1 < exponent then
      let y := if exponent % 2 = 1 then roundedMul x y else y
      powLoop rounds (roundedMul x x) y (exponent / 2)
    else roundedMul x y

def pow (a : Decimal) (exponent : Nat) : Js Decimal := do
  -- bitwise operations are on 32 bits
  assertThat (exponent ≤ 0xffffffff)
  if exponent = 0 then return ONE
  else if exponent = 1 then return a
  else return ⟨powLoop exponent a.bigNumber DIGITS exponent⟩

@[ext]
theorem ext {a b : Decimal} (h : a.bigNumber = b.bigNumber) : a = b := by
  cases a
  cases b
  exact congrArg mk h

theorem sub_ok {a b c : Decimal} :
    a.sub b = .ok c ↔ b.bigNumber ≤ a.bigNumber ∧ ⟨a.bigNumber - b.bigNumber⟩ = c := by
  simp only [sub, bind_ok, require_ok, pure_ok, exists_const]

theorem min_bigNumber (a b : Decimal) :
    (a.min b).bigNumber = Min.min a.bigNumber b.bigNumber := by
  by_cases h : a.bigNumber < b.bigNumber
  · rw [min, if_pos (show a.lt b from h)]
    omega
  · rw [min, if_neg (show ¬ a.lt b from h)]
    omega

end Decimal

open Decimal

/-! ## `constants.ts` -/

def CRITICAL_COLLATERAL_RATIO : Decimal := ⟨DIGITS * 15 / 10⟩
def MINIMUM_COLLATERAL_RATIO : Decimal := ⟨DIGITS * 11 / 10⟩
/-- `Decimal.from(0.1)` -/
def LUSD_LIQUIDATION_RESERVE : Decimal := ⟨DIGITS / 10⟩
def LUSD_MINIMUM_NET_DEBT : Decimal := ⟨DIGITS * 5⟩
def LUSD_MINIMUM_DEBT : Decimal := LUSD_LIQUIDATION_RESERVE.add LUSD_MINIMUM_NET_DEBT
/-- `Decimal.from(0.005)` -/
def MINIMUM_BORROWING_RATE : Decimal := ⟨DIGITS * 5 / 1000⟩
/-- `Decimal.from(0.05)` -/
def MAXIMUM_BORROWING_RATE : Decimal := ⟨DIGITS * 5 / 100⟩
/-- `Decimal.from(0.005)` -/
def MINIMUM_REDEMPTION_RATE : Decimal := ⟨DIGITS * 5 / 1000⟩

end Liquity.LibBase
