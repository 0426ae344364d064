import Mathlib.Algebra.Order.AbsoluteValue.Basic
import Mathlib.Algebra.Order.Field.Rat
import Mathlib.Order.Monotone.Basic
import Mathlib.Tactic.GCongr
import Mathlib.Tactic.Linarith
import Mathlib.Tactic.Positivity
import Mathlib.Tactic.Ring

/-!
# Square and multiply with a rounded product

The loop that computes a power with logarithmically many products, for a product that need not be
associative.  As soon as the product is monotone and has a unit, powers of a base below the unit fall
with the exponent, however the product rounds.  If it rounds to the nearest, the power is off from the
exact one by at most half a unit for every factor after the first.
-/

namespace Lib

variable {α : Type}

/-- Squares `x` while it halves `n`, and multiplies `y` by `x` for every odd `n`. -/
def squareAndMultiply (mul : α → α → α) (x y : α) (n : Nat) : α :=
  if 1 < n then
    squareAndMultiply mul (mul x x) (if n % 2 = 1 then mul x y else y) (n / 2)
  else mul x y
termination_by n

/-- The power, with the exponent zero apart. -/
def powBySquaring (mul : α → α → α) (one x : α) (n : Nat) : α :=
  if n = 0 then one else squareAndMultiply mul x one n

section Steps

variable {mul : α → α → α} {x y : α} {n : Nat}

theorem squareAndMultiply_even (hmore : 1 < n) (heven : n % 2 = 0) :
    squareAndMultiply mul x y n = squareAndMultiply mul (mul x x) y (n / 2) := by
  rw [squareAndMultiply, if_pos hmore, if_neg (by omega)]

theorem squareAndMultiply_odd (hmore : 1 < n) (hodd : n % 2 = 1) :
    squareAndMultiply mul x y n = squareAndMultiply mul (mul x x) (mul x y) (n / 2) := by
  rw [squareAndMultiply, if_pos hmore, if_pos hodd]

theorem squareAndMultiply_last (hlast : ¬ 1 < n) : squareAndMultiply mul x y n = mul x y := by
  rw [squareAndMultiply, if_neg hlast]

end Steps

/-- A monotone product with a unit. -/
structure MonotoneMul [Preorder α] (mul : α → α → α) (one : α) : Prop where
  mono : ∀ {a a' b b'}, a ≤ a' → b ≤ b' → mul a b ≤ mul a' b'
  mul_one : ∀ a, mul a one = a
  one_mul : ∀ a, mul one a = a

namespace MonotoneMul

variable [Preorder α] {mul : α → α → α} {one x y z : α} {n : Nat}

theorem mul_le_right (h : MonotoneMul mul one) (hx : x ≤ one) : mul x y ≤ y := by
  calc mul x y ≤ mul one y := h.mono hx le_rfl
    _ = y := h.one_mul y

theorem squareAndMultiply_mono (h : MonotoneMul mul one) (hyz : y ≤ z) :
    squareAndMultiply mul x y n ≤ squareAndMultiply mul x z n := by
  induction n using Nat.strong_induction_on generalizing x y z with
  | _ n ih =>
    by_cases hmore : 1 < n
    · rcases Nat.mod_two_eq_zero_or_one n with heven | hodd
      · rw [squareAndMultiply_even hmore heven, squareAndMultiply_even hmore heven]
        exact ih _ (by omega) hyz
      · rw [squareAndMultiply_odd hmore hodd, squareAndMultiply_odd hmore hodd]
        exact ih _ (by omega) (h.mono le_rfl hyz)
    · rw [squareAndMultiply_last hmore, squareAndMultiply_last hmore]
      exact h.mono le_rfl hyz

/-- As long as `n + 1` is even nothing is multiplied into its accumulator, and that of `n` stays
above the current square.  At the first odd quotient both have the same exponent left. -/
theorem squareAndMultiply_succ_le (h : MonotoneMul mul one) (hx : x ≤ one) (hxz : x ≤ z)
    (hn : 0 < n) : squareAndMultiply mul x one (n + 1) ≤ squareAndMultiply mul x z n := by
  induction n using Nat.strong_induction_on generalizing x z with
  | _ n ih =>
    have hsquare : mul x x ≤ one := (h.mul_le_right hx).trans hx
    by_cases hmore : 1 < n
    · rcases Nat.mod_two_eq_zero_or_one n with heven | hodd
      · have hhalf : (n + 1) / 2 = n / 2 := by omega
        rw [squareAndMultiply_odd (by omega) (by omega), squareAndMultiply_even hmore heven,
          h.mul_one, hhalf]
        exact h.squareAndMultiply_mono hxz
      · have hhalf : (n + 1) / 2 = n / 2 + 1 := by omega
        rw [squareAndMultiply_even (by omega) (by omega), squareAndMultiply_odd hmore hodd, hhalf]
        exact ih (n / 2) (by omega) hsquare (h.mono le_rfl hxz) (by omega)
    · obtain rfl : n = 1 := by omega
      rw [squareAndMultiply_even (by decide) (by decide), squareAndMultiply_last (by decide),
        squareAndMultiply_last (by decide), h.mul_one]
      exact h.mono le_rfl hxz

theorem powBySquaring_succ_le (h : MonotoneMul mul one) (hx : x ≤ one) :
    powBySquaring mul one x (n + 1) ≤ powBySquaring mul one x n := by
  rw [powBySquaring, if_neg (Nat.succ_ne_zero n), powBySquaring]
  by_cases hzero : n = 0
  · subst hzero
    rw [if_pos rfl, squareAndMultiply_last (by decide), h.mul_one]
    exact hx
  · rw [if_neg hzero]
    exact h.squareAndMultiply_succ_le hx hx (Nat.pos_of_ne_zero hzero)

/-- Powers of a base below the unit fall with the exponent. -/
theorem powBySquaring_antitone (h : MonotoneMul mul one) (hx : x ≤ one) :
    Antitone (powBySquaring mul one x) :=
  antitone_nat_of_succ_le fun _ => h.powBySquaring_succ_le hx

end MonotoneMul

/-! ## How far a power is from the exact one -/

/-- A product of numbers of units, `one` of which make a whole, that is off from the exact one by at
most half a unit. -/
def RoundsToNearest (mul : ℕ → ℕ → ℕ) (one : ℕ) : Prop :=
  ∀ x y, 2 * |(mul x y : ℚ) * one - x * y| ≤ one

/-- `x` is off from `one * q ^ e` by at most half a unit for every product that it takes. -/
def Approximates (one : ℕ) (q : ℚ) (e x : ℕ) : Prop :=
  2 * |(x : ℚ) - one * q ^ e| ≤ (e - 1 : ℕ)

section Error

variable {mul : ℕ → ℕ → ℕ} {one x y a b n : ℕ} {q : ℚ}

theorem Approximates.zero_iff : Approximates one q 0 x ↔ x = one := by
  rw [Approximates, pow_zero, mul_one, Nat.zero_sub, Nat.cast_zero]
  constructor
  · intro h
    have hzero : |(x : ℚ) - one| = 0 := le_antisymm (by linarith) (abs_nonneg _)
    exact_mod_cast sub_eq_zero.mp (abs_eq_zero.mp hzero)
  · rintro rfl
    simp

/-- The errors of the factors add up, because neither factor exceeds the whole. -/
theorem Approximates.product (hround : RoundsToNearest mul one) (hunit : ∀ x, mul x one = x)
    (hpos : 0 < one) (hq : 0 ≤ q) (hq' : q ≤ 1) (hle : x ≤ one) (ha : 0 < a)
    (hx : Approximates one q a x) (hy : Approximates one q b y) :
    Approximates one q (a + b) (mul x y) := by
  by_cases hb : b = 0
  · subst hb
    rw [Approximates.zero_iff.mp hy, hunit]
    exact hx
  · have hone : (0 : ℚ) < one := by exact_mod_cast hpos
    have hxone : (x : ℚ) ≤ one := by exact_mod_cast hle
    have hpow : one * q ^ b ≤ one := mul_le_of_le_one_right hone.le (pow_le_one₀ hq hq')
    have hbudget : ((a + b - 1 : ℕ) : ℚ) = (a - 1 : ℕ) + (b - 1 : ℕ) + 1 := by
      exact_mod_cast (by omega : a + b - 1 = a - 1 + (b - 1) + 1)
    have hsplit : (mul x y : ℚ) * one - one * (one * q ^ (a + b)) =
        (mul x y * one - x * y) + x * (y - one * q ^ b) + one * q ^ b * (x - one * q ^ a) := by
      ring
    have hleft : x * |(y : ℚ) - one * q ^ b| ≤ one * |(y : ℚ) - one * q ^ b| := by gcongr
    have hright : one * q ^ b * |(x : ℚ) - one * q ^ a| ≤ one * |(x : ℚ) - one * q ^ a| := by gcongr
    have htriangle : |(mul x y : ℚ) * one - one * (one * q ^ (a + b))| ≤
        |(mul x y : ℚ) * one - x * y| + x * |(y : ℚ) - one * q ^ b| +
          one * q ^ b * |(x : ℚ) - one * q ^ a| := by
      rw [hsplit]
      refine (abs_add_le _ _).trans (add_le_add ((abs_add_le _ _).trans (add_le_add le_rfl ?_)) ?_)
      · rw [abs_mul, Nat.abs_cast]
      · rw [abs_mul, abs_of_nonneg (by positivity : (0 : ℚ) ≤ one * q ^ b)]
    have hfactor : |(mul x y : ℚ) * one - one * (one * q ^ (a + b))| =
        one * |(mul x y : ℚ) - one * q ^ (a + b)| := by
      rw [← abs_of_pos hone, ← abs_mul, abs_of_pos hone]
      ring_nf
    rw [Approximates, hbudget]
    refine le_of_mul_le_mul_left ?_ hone
    have hround := hround x y
    unfold Approximates at hx hy
    have hx' := mul_le_mul_of_nonneg_left hx hone.le
    have hy' := mul_le_mul_of_nonneg_left hy hone.le
    linarith

/-- The loop: `x` stands for the exponent `a`, and `y` for the part `b` of the exponent that is done. -/
theorem squareAndMultiply_approximates (h : MonotoneMul mul one) (hround : RoundsToNearest mul one)
    (hpos : 0 < one) (hq : 0 ≤ q) (hq' : q ≤ 1) (hle : x ≤ one) (ha : 0 < a) (hn : 0 < n)
    (hx : Approximates one q a x) (hy : Approximates one q b y) :
    Approximates one q (a * n + b) (squareAndMultiply mul x y n) := by
  induction n using Nat.strong_induction_on generalizing x y a b with
  | _ n ih =>
    have hsquare : mul x x ≤ one := (h.mul_le_right hle).trans hle
    have hxx := hx.product hround h.mul_one hpos hq hq' hle ha hx
    by_cases hmore : 1 < n
    · rcases Nat.mod_two_eq_zero_or_one n with heven | hodd
      · have hexponent : (a + a) * (n / 2) + b = a * n + b := by
          have htwo : 2 * (n / 2) = n := by omega
          rw [← two_mul, mul_comm 2 a, mul_assoc, htwo]
        rw [squareAndMultiply_even hmore heven, ← hexponent]
        exact ih (n / 2) (by omega) hsquare (by omega) (by omega) hxx hy
      · have hexponent : (a + a) * (n / 2) + (a + b) = a * n + b := by
          have htwo : n = 2 * (n / 2) + 1 := by omega
          nth_rewrite 2 [htwo]
          ring
        rw [squareAndMultiply_odd hmore hodd, ← hexponent]
        exact ih (n / 2) (by omega) hsquare (by omega) (by omega) hxx
          (hx.product hround h.mul_one hpos hq hq' hle ha hy)
    · obtain rfl : n = 1 := by omega
      rw [squareAndMultiply_last hmore, mul_one]
      exact hx.product hround h.mul_one hpos hq hq' hle ha hy

end Error

end Lib
