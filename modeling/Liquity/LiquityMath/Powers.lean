import Liquity.Lib.SquareAndMultiply
import Liquity.LiquityMath
import Mathlib.Tactic.FieldSimp

/-!
# Powers of a base of at most one

`_decPow` is square and multiply with a product rounded half up.  For factors of at most one nothing
overflows, and the rounded product is monotone, so the powers fall with the exponent.  Every product adds
at most half a unit of `1e-18` to the error.
-/

open Lib

namespace Liquity.LiquityMath

open SafeMath

variable {base x y n m : Nat}

/-- The product of `decMul`, rounded half up. -/
def roundMul (x y : Nat) : Nat := (x * y + DECIMAL_PRECISION / 2) / DECIMAL_PRECISION

/-- A whole number plus a half rounds back. -/
theorem mul_add_half_div {precision : Nat} (x : Nat) (h : precision / 2 < precision) :
    (x * precision + precision / 2) / precision = x := by
  rw [Nat.mul_comm, Nat.mul_add_div (Nat.zero_lt_of_lt h), Nat.div_eq_of_lt h, Nat.add_zero]

theorem roundMul_monotone : MonotoneMul roundMul DECIMAL_PRECISION where
  mono ha hb := Nat.div_le_div_right (Nat.add_le_add_right (Nat.mul_le_mul ha hb) _)
  mul_one x := mul_add_half_div x (by decide)
  one_mul x := by
    rw [roundMul, Nat.mul_comm]
    exact mul_add_half_div x (by decide)

theorem roundMul_le (hx : x ≤ DECIMAL_PRECISION) (hy : y ≤ DECIMAL_PRECISION) :
    roundMul x y ≤ DECIMAL_PRECISION :=
  (roundMul_monotone.mul_le_right hx).trans hy

/-- For factors of at most one, nothing overflows. -/
theorem decMul_eq (hx : x ≤ DECIMAL_PRECISION) (hy : y ≤ DECIMAL_PRECISION) :
    decMul x y = .ok (roundMul x y) := by
  have hle : x * y ≤ DECIMAL_PRECISION * DECIMAL_PRECISION := Nat.mul_le_mul hx hy
  have hmul : x * y < 2 ^ 256 := hle.trans_lt (by decide)
  have hadd : x * y + DECIMAL_PRECISION / 2 < 2 ^ 256 :=
    (Nat.add_le_add_right hle _).trans_lt (by decide)
  simp only [decMul, bind_ok, mul_ok, add_ok, div_ok]
  exact ⟨_, ⟨hmul, rfl⟩, _, ⟨hadd, rfl⟩, by decide, rfl⟩

theorem decPowLoop_eq {rounds : Nat} (hx : x ≤ DECIMAL_PRECISION) (hy : y ≤ DECIMAL_PRECISION)
    (hn : 0 < n) (hrounds : n ≤ rounds) :
    decPowLoop rounds x y n = .ok (squareAndMultiply roundMul x y n) := by
  induction rounds generalizing x y n with
  | zero => omega
  | succ rounds ih =>
    have hxx := roundMul_le hx hx
    unfold decPowLoop
    by_cases hmore : 1 < n
    · rw [if_pos hmore]
      rcases Nat.mod_two_eq_zero_or_one n with heven | hodd
      · rw [if_pos heven, squareAndMultiply_even hmore heven, decMul_eq hx hx]
        exact ih hxx hy (by omega) (by omega)
      · rw [if_neg (by omega), squareAndMultiply_odd hmore hodd, decMul_eq hx hy, decMul_eq hx hx]
        -- the contract drops the odd unit before it halves
        have hhalf : (n - 1) / 2 = n / 2 := by omega
        rw [hhalf]
        exact ih hxx (roundMul_le hx hy) (by omega) (by omega)
    · rw [if_neg hmore, squareAndMultiply_last hmore]
      exact decMul_eq hx hy

/-- The value of `decPow`, with the exponent capped. -/
def power (base n : Nat) : Nat := powBySquaring roundMul DECIMAL_PRECISION base (Min.min n maxMinutes)

theorem decPow_eq (hbase : base ≤ DECIMAL_PRECISION) (n : Nat) :
    decPow base n = .ok (power base n) := by
  have hcap : (if maxMinutes < n then maxMinutes else n) = Min.min n maxMinutes := by
    split <;> omega
  unfold decPow
  rw [hcap]
  dsimp only [power, powBySquaring]
  split
  · rfl
  next hzero =>
    exact decPowLoop_eq hbase (Nat.le_refl _) (Nat.pos_of_ne_zero hzero) (Nat.le_refl _)

theorem power_le_of_le (hbase : base ≤ DECIMAL_PRECISION) (hnm : n ≤ m) :
    power base m ≤ power base n :=
  roundMul_monotone.powBySquaring_antitone hbase (min_le_min_right maxMinutes hnm)

theorem power_le (hbase : base ≤ DECIMAL_PRECISION) (n : Nat) : power base n ≤ DECIMAL_PRECISION :=
  power_le_of_le hbase (Nat.zero_le n)

/-! ## Accuracy -/

theorem roundMul_nearest : RoundsToNearest roundMul DECIMAL_PRECISION := by
  intro x y
  have hdiv := Nat.div_add_mod (x * y + DECIMAL_PRECISION / 2) DECIMAL_PRECISION
  have hmod : (x * y + DECIMAL_PRECISION / 2) % DECIMAL_PRECISION < DECIMAL_PRECISION :=
    Nat.mod_lt _ (by decide)
  have hhalf : DECIMAL_PRECISION / 2 * 2 = DECIMAL_PRECISION := by decide
  change DECIMAL_PRECISION * roundMul x y + _ = _ at hdiv
  have hlow : 2 * (x * y) ≤ 2 * (DECIMAL_PRECISION * roundMul x y) + DECIMAL_PRECISION := by omega
  have hhigh : 2 * (DECIMAL_PRECISION * roundMul x y) ≤ 2 * (x * y) + DECIMAL_PRECISION := by omega
  have hlow' : 2 * ((x : ℚ) * y) ≤ 2 * (DECIMAL_PRECISION * roundMul x y) + DECIMAL_PRECISION := by
    exact_mod_cast hlow
  have hhigh' : 2 * ((DECIMAL_PRECISION : ℚ) * roundMul x y) ≤ 2 * (x * y) + DECIMAL_PRECISION := by
    exact_mod_cast hhigh
  rcases abs_cases ((roundMul x y : ℚ) * DECIMAL_PRECISION - x * y) with ⟨habs, -⟩ | ⟨habs, -⟩ <;>
  · rw [habs]
    linarith

theorem power_approximates (hbase : base ≤ DECIMAL_PRECISION) (hn : 0 < n) (hcap : n ≤ maxMinutes) :
    Approximates DECIMAL_PRECISION (base / DECIMAL_PRECISION) n (power base n) := by
  have hone : (0 : ℚ) < DECIMAL_PRECISION := by exact_mod_cast (by decide : 0 < DECIMAL_PRECISION)
  have hq : (0 : ℚ) ≤ base / DECIMAL_PRECISION := by positivity
  have hq' : (base : ℚ) / DECIMAL_PRECISION ≤ 1 := by
    rw [div_le_one hone]
    exact_mod_cast hbase
  have hfirst : Approximates DECIMAL_PRECISION (base / DECIMAL_PRECISION) 1 base := by
    simp [Approximates, mul_div_cancel₀ _ hone.ne']
  have hpower := squareAndMultiply_approximates roundMul_monotone roundMul_nearest (by decide) hq hq'
    hbase Nat.one_pos hn hfirst (Approximates.zero_iff.mpr rfl)
  rw [Nat.one_mul, Nat.add_zero] at hpower
  rwa [power, powBySquaring, Nat.min_eq_left hcap, if_neg hn.ne']

/-- The error bound in whole numbers, the power scaled up by what the roundings divide by. -/
theorem power_error (hbase : base ≤ DECIMAL_PRECISION) (hn : 0 < n) (hcap : n ≤ maxMinutes) :
    2 * |(power base n : ℤ) * DECIMAL_PRECISION ^ (n - 1) - base ^ n| ≤
      (n - 1) * DECIMAL_PRECISION ^ (n - 1) := by
  have hone : (0 : ℚ) < DECIMAL_PRECISION := by exact_mod_cast (by decide : 0 < DECIMAL_PRECISION)
  have hscale : (0 : ℚ) < (DECIMAL_PRECISION : ℚ) ^ (n - 1) := pow_pos hone _
  have hexact : (DECIMAL_PRECISION : ℚ) * (base / DECIMAL_PRECISION) ^ n * DECIMAL_PRECISION ^ (n - 1) =
      base ^ n := by
    have hsucc : (DECIMAL_PRECISION : ℚ) ^ n = DECIMAL_PRECISION ^ (n - 1) * DECIMAL_PRECISION := by
      rw [← pow_succ, Nat.sub_add_cancel hn]
    rw [div_pow, hsucc]
    field_simp
  have herror := mul_le_mul_of_nonneg_right (power_approximates hbase hn hcap) hscale.le
  rw [mul_assoc, ← abs_of_pos hscale, ← abs_mul, abs_of_pos hscale, sub_mul, hexact,
    Nat.cast_sub (show 1 ≤ n from hn), Nat.cast_one] at herror
  exact_mod_cast herror

/-- For a base of at most one, `_decPow` returns a power of at most one that is off from the exact one by
at most half a unit of `1e-18` for every factor after the first, and the exponent is capped. -/
theorem decPow_accurate (hbase : base ≤ DECIMAL_PRECISION) (n : Nat) :
    ∃ r, decPow base n = .ok r ∧ r ≤ DECIMAL_PRECISION ∧
      (1 ≤ n ∧ n ≤ maxMinutes → 2 * |(r : ℤ) * DECIMAL_PRECISION ^ (n - 1) - base ^ n| ≤
        (n - 1) * DECIMAL_PRECISION ^ (n - 1)) ∧
      (maxMinutes < n → decPow base maxMinutes = .ok r) := by
  refine ⟨power base n, decPow_eq hbase n, power_le hbase n, fun h => power_error hbase h.1 h.2,
    fun hcap => ?_⟩
  rw [decPow_eq hbase, power, power, Nat.min_self, Nat.min_eq_right hcap.le]

theorem decPow_accurate_sample :
    999037758833783000 ≤ DECIMAL_PRECISION ∧ ∃ r, decPow 999037758833783000 3 = .ok r ∧
      2 * |(r : ℤ) * DECIMAL_PRECISION ^ 2 - (999037758833783000 : ℤ) ^ 3| ≤
        2 * (DECIMAL_PRECISION : ℤ) ^ 2 := by
  have hbase : 999037758833783000 ≤ DECIMAL_PRECISION := by decide
  refine ⟨hbase, ?_⟩
  obtain ⟨r, hr, -, herror, -⟩ := decPow_accurate hbase 3
  exact ⟨r, hr, by simpa using herror ⟨by decide, by decide⟩⟩

end Liquity.LiquityMath
