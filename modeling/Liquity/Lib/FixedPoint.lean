import Mathlib.Data.Rat.Floor
import Mathlib.Tactic.FieldSimp
import Mathlib.Tactic.Ring

/-!
# Numbers with a fixed number of decimals

A quantity counted in whole units, as the rational number that it stands for, and the operation that
drops the decimals beyond the unit.  On such numbers a truncated quotient is a quotient of whole
numbers.
-/

namespace Lib

variable {scale : ℕ} {m n k : ℕ} {x : ℚ}

/-- `n` units, of which `scale` make one. -/
def ofUnits (scale : ℕ) (n : ℤ) : ℚ := n / scale

/-- Drops what is finer than a unit, towards zero. -/
def truncate (scale : ℕ) (x : ℚ) : ℚ :=
  ofUnits scale (if 0 ≤ x then ⌊x * scale⌋ else ⌈x * scale⌉)

@[simp]
theorem ofUnits_zero (scale : ℕ) : ofUnits scale 0 = 0 := by simp [ofUnits]

theorem ofUnits_add (m n : ℤ) : ofUnits scale (m + n) = ofUnits scale m + ofUnits scale n := by
  simp [ofUnits, add_div]

theorem ofUnits_sub (m n : ℤ) : ofUnits scale (m - n) = ofUnits scale m - ofUnits scale n := by
  simp [ofUnits, sub_div]

theorem ofUnits_le (hscale : 0 < scale) {m n : ℤ} :
    ofUnits scale m ≤ ofUnits scale n ↔ m ≤ n := by
  have hpos : (0 : ℚ) < scale := by exact_mod_cast hscale
  rw [ofUnits, ofUnits, div_le_div_iff_of_pos_right hpos, Int.cast_le]

theorem ofUnits_lt (hscale : 0 < scale) {m n : ℤ} :
    ofUnits scale m < ofUnits scale n ↔ m < n := by
  rw [← not_le, ofUnits_le hscale, not_le]

theorem ofUnits_inj (hscale : 0 < scale) {m n : ℤ} :
    ofUnits scale m = ofUnits scale n ↔ m = n := by
  rw [le_antisymm_iff, ofUnits_le hscale, ofUnits_le hscale, ← le_antisymm_iff]

/-- What remains of a quotient is the quotient of the whole numbers. -/
theorem truncate_of_eq (h : x * scale = (m : ℚ) / n) : truncate scale x = ofUnits scale (m / n : ℕ) := by
  have hfloor : ⌊x * scale⌋ = ((m / n : ℕ) : ℤ) := by
    rw [h, Rat.floor_natCast_div_natCast]
    rfl
  unfold truncate
  split
  · rw [hfloor]
  next hneg =>
    -- a quotient of whole numbers is only negative if there is no unit to count in
    have hnonneg : 0 ≤ x * scale := by
      rw [h]
      positivity
    have hzero : scale = 0 := by
      by_contra hne
      have hpos : (0 : ℚ) < scale := by exact_mod_cast Nat.pos_of_ne_zero hne
      exact hneg (nonneg_of_mul_nonneg_left hnonneg hpos)
    subst hzero
    simp [ofUnits]

/-- A share of a quantity, truncated. -/
theorem truncate_div (hscale : 0 < scale) (m n : ℕ) :
    truncate scale (ofUnits scale m / n) = ofUnits scale (m / n : ℕ) := by
  refine truncate_of_eq ?_
  have hne : (scale : ℚ) ≠ 0 := by exact_mod_cast hscale.ne'
  simp only [ofUnits, Int.cast_natCast]
  field_simp

/-- A quantity changed in the ratio of two others, truncated. -/
theorem truncate_mul_div (hscale : 0 < scale) (m n k : ℕ) :
    truncate scale (ofUnits scale m * ofUnits scale n / ofUnits scale k) =
      ofUnits scale (m * n / k : ℕ) := by
  refine truncate_of_eq ?_
  have hne : (scale : ℚ) ≠ 0 := by exact_mod_cast hscale.ne'
  simp only [ofUnits, Int.cast_natCast, Nat.cast_mul]
  field_simp

end Lib
