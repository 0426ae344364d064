import Mathlib.Algebra.BigOperators.Ring.Finset
import Mathlib.Algebra.Order.Field.Rat
import Mathlib.Data.Rat.Floor
import Mathlib.Tactic.FieldSimp
import Mathlib.Tactic.Linarith
import Mathlib.Tactic.Positivity
import Mathlib.Tactic.Ring
import Liquity.Lib.Balances

/-!
# Pools that shrink by a running product

Deposits into a common pool all shrink by the same factor at each loss, and earn a gain in
proportion to their current size.  Instead of touching every deposit, the pool keeps a running
product `P` and, for each epoch and scale, a running sum of gains weighted by `P`; a deposit is read
back from the snapshots taken when it was made.  `P` is an integer: when it gets too small it is
multiplied by `factor` and the scale moves on; when the pool is emptied the epoch moves on.

`value` and `gain` are the exact amounts that the rounded readings approximate from below.  The pool
covers both as long as every loss shrinks `P` by at least as much as it shrinks the pool.  Deposits
with a common tag can be held by one stake that shrinks with them; it covers them as long as its
readings round off no more than theirs.
-/

namespace Lib.ProductSum

structure Snapshot where
  S : Nat
  P : Nat
  scale : Nat
  epoch : Nat

structure Pool (α : Type) where
  deposit : α → Nat
  snapshot : α → Snapshot
  /-- What the deposits are claims on. -/
  total : Nat
  /-- What the gains are claims on. -/
  reserve : Nat
  P : Nat
  scale : Nat
  epoch : Nat
  sum : Nat → Nat → Nat
  /-- The remainder of the last gain per unit, carried to the next one. -/
  error : Nat

namespace Pool

variable {α : Type} (factor precision : Nat)

def current (p : Pool α) : Snapshot := ⟨p.sum p.epoch p.scale, p.P, p.scale, p.epoch⟩

/-- The exact value of a deposit. -/
def value (p : Pool α) (i : α) : ℚ :=
  if (p.snapshot i).epoch < p.epoch then 0
  else p.deposit i * p.P / ((p.snapshot i).P * (factor : ℚ) ^ (p.scale - (p.snapshot i).scale))

/-- The exact gain of a deposit, scaled by the precision. -/
def gain (p : Pool α) (i : α) : ℚ :=
  p.deposit i * ((p.sum (p.snapshot i).epoch (p.snapshot i).scale : ℚ) - (p.snapshot i).S +
    p.sum (p.snapshot i).epoch ((p.snapshot i).scale + 1) / factor) / (p.snapshot i).P

/-- The snapshots lie in the past and the sums of the future are empty. -/
structure Consistent (p : Pool α) : Prop where
  P_pos : 0 < p.P
  snapshot_P_pos : ∀ i, 0 < p.deposit i → 0 < (p.snapshot i).P
  snapshot_le : ∀ i, 0 < p.deposit i → (p.snapshot i).epoch < p.epoch ∨
    ((p.snapshot i).epoch = p.epoch ∧ (p.snapshot i).scale ≤ p.scale)
  snapshot_S_le : ∀ i, 0 < p.deposit i →
    (p.snapshot i).S ≤ p.sum (p.snapshot i).epoch (p.snapshot i).scale
  sum_future : ∀ e k, p.epoch < e ∨ (e = p.epoch ∧ p.scale < k) → p.sum e k = 0

/-- The pool covers every deposit and the reserve every gain. -/
structure Covered [Fintype α] (p : Pool α) : Prop extends Consistent p where
  value_le : ∑ i, p.value factor i ≤ p.total
  gain_le : ∑ i, p.gain factor i + p.error ≤ (precision : ℚ) * p.reserve

/-- A loss of `loss` that pays `paid` into the reserve, at `perUnit` for each unit deposited. -/
structure Offset (loss paid perUnit : Nat) (p p' : Pool α) : Prop where
  deposit_eq : p'.deposit = p.deposit
  snapshot_eq : p'.snapshot = p.snapshot
  loss_le : loss ≤ p.total
  total_eq : p'.total = p.total - loss
  reserve_eq : p'.reserve = p.reserve + paid
  sum_eq : ∀ e k, p'.sum e k =
    if e = p.epoch ∧ k = p.scale then p.sum e k + perUnit * p.P else p.sum e k
  error_eq : perUnit * p.total + p'.error = paid * precision + p.error
  P_pos : 0 < p'.P
  /-- The epoch moves on, or the scale stays or moves on by one. -/
  moves : (p'.epoch = p.epoch + 1) ∨
    (p'.epoch = p.epoch ∧ (p'.scale = p.scale ∨ p'.scale = p.scale + 1))

/-- The product shrinks by at least as much as the pool. -/
def ShrinksEnough (loss : Nat) (p p' : Pool α) : Prop :=
  p'.epoch = p.epoch → p'.P * p.total ≤ p.P * (p.total - loss) * factor ^ (p'.scale - p.scale)

/-- Replacing a deposit. -/
def redeposit [DecidableEq α] (p : Pool α) (i : α) (v : Nat) (s : Snapshot) (total reserve : Nat) :
    Pool α :=
  { p with
    deposit := Function.update p.deposit i v
    snapshot := Function.update p.snapshot i s
    total, reserve }

variable {factor precision} {p p' : Pool α} {loss paid perUnit : Nat} {i : α}

theorem value_nonneg : 0 ≤ p.value factor i := by
  unfold value
  split <;> positivity

theorem value_of_deposit_eq_zero (h : p.deposit i = 0) : p.value factor i = 0 := by
  simp [value, h]

theorem gain_of_deposit_eq_zero (h : p.deposit i = 0) : p.gain factor i = 0 := by
  simp [gain, h]

theorem Consistent.gain_nonneg (h : p.Consistent) (i : α) : 0 ≤ p.gain factor i := by
  -- a deposit of zero has no snapshot to speak of
  by_cases hi : p.deposit i = 0
  · rw [gain_of_deposit_eq_zero hi]
  · have hS : ((p.snapshot i).S : ℚ) ≤ p.sum (p.snapshot i).epoch (p.snapshot i).scale := by
      exact_mod_cast h.snapshot_S_le i (Nat.pos_of_ne_zero hi)
    have hfirst := sub_nonneg.mpr hS
    unfold gain
    positivity

/-- Rounded readings of all deposits together are covered. -/
theorem Covered.sum_reading_le [Fintype α] {c : α → Nat} (h : p.Covered factor precision)
    (hc : ∀ i, (c i : ℚ) ≤ p.value factor i) : ∑ i, c i ≤ p.total := by
  have hsum : ∑ i, (c i : ℚ) ≤ p.total := (Finset.sum_le_sum fun i _ => hc i).trans h.value_le
  exact_mod_cast hsum

/-- Rounded gains of all deposits together are covered. -/
theorem Covered.sum_paid_le [Fintype α] {g : α → Nat} (h : p.Covered factor precision)
    (hprecision : 0 < precision) (hg : ∀ i, (precision : ℚ) * g i ≤ p.gain factor i) :
    ∑ i, g i ≤ p.reserve := by
  have herror : (0 : ℚ) ≤ p.error := by positivity
  have hcovered := h.gain_le
  have hsum : (precision : ℚ) * ∑ i, (g i : ℚ) ≤ precision * p.reserve := by
    rw [Finset.mul_sum]
    have hle := Finset.sum_le_sum fun i (_ : i ∈ Finset.univ) => hg i
    linarith
  have hpos : (0 : ℚ) < precision := by exact_mod_cast hprecision
  exact_mod_cast le_of_mul_le_mul_left hsum hpos

/-- A single rounded reading is covered. -/
theorem Covered.reading_le [Fintype α] {c : Nat} (h : p.Covered factor precision)
    (hc : (c : ℚ) ≤ p.value factor i) : c ≤ p.total := by
  have hone : p.value factor i ≤ ∑ j, p.value factor j :=
    Finset.single_le_sum (fun j _ => value_nonneg) (Finset.mem_univ i)
  exact_mod_cast (hc.trans hone).trans h.value_le

/-- A single rounded gain is covered. -/
theorem Covered.paid_le [Fintype α] {g : Nat} (h : p.Covered factor precision)
    (hprecision : 0 < precision) (hg : (precision : ℚ) * g ≤ p.gain factor i) : g ≤ p.reserve := by
  have hone : p.gain factor i ≤ ∑ j, p.gain factor j :=
    Finset.single_le_sum (fun j _ => h.gain_nonneg j) (Finset.mem_univ i)
  have herror : (0 : ℚ) ≤ p.error := by positivity
  have hgain := h.gain_le
  have hpos : (0 : ℚ) < precision := by exact_mod_cast hprecision
  have hle : (precision : ℚ) * g ≤ precision * p.reserve := by linarith
  exact_mod_cast le_of_mul_le_mul_left hle hpos

/-- What is added to the reserve alone is nobody's gain. -/
theorem Covered.addReserve [Fintype α] (h : p.Covered factor precision) (amount : Nat) :
    Covered factor precision { p with reserve := p.reserve + amount } where
  toConsistent := { h.toConsistent with }
  value_le := h.value_le
  gain_le := by
    have hgain := h.gain_le
    have hextra : (0 : ℚ) ≤ precision * amount := by positivity
    change ∑ i, p.gain factor i + (p.error : ℚ) ≤ precision * ((p.reserve + amount : Nat) : ℚ)
    push_cast
    linarith

/-! ## Losses -/

namespace Offset

variable (ho : Offset precision loss paid perUnit p p')

include ho

theorem consistent (h : p.Consistent) : p'.Consistent where
  P_pos := ho.P_pos
  snapshot_P_pos i hi := by
    rw [ho.snapshot_eq]
    exact h.snapshot_P_pos i (ho.deposit_eq ▸ hi)
  snapshot_le i hi := by
    rw [ho.snapshot_eq]
    have hle := h.snapshot_le i (ho.deposit_eq ▸ hi)
    have hm := ho.moves
    omega
  snapshot_S_le i hi := by
    have hle := h.snapshot_S_le i (ho.deposit_eq ▸ hi)
    rw [ho.snapshot_eq, ho.sum_eq]
    split
    · exact hle.trans (Nat.le_add_right _ _)
    · exact hle
  sum_future e k hek := by
    have hm := ho.moves
    rw [ho.sum_eq, if_neg (by omega)]
    exact h.sum_future e k (by omega)

/-- A deposit's value shrinks like the product. -/
theorem value_eq (h : p.Consistent) (hfactor : 0 < factor) (hepoch : p'.epoch = p.epoch) :
    p'.value factor i =
      p.value factor i * (p'.P / (p.P * (factor : ℚ) ^ (p'.scale - p.scale))) := by
  by_cases hi : p.deposit i = 0
  · rw [value_of_deposit_eq_zero hi, value_of_deposit_eq_zero (by rw [ho.deposit_eq, hi]), zero_mul]
  have hi : 0 < p.deposit i := Nat.pos_of_ne_zero hi
  have hP : (p.P : ℚ) ≠ 0 := by exact_mod_cast h.P_pos.ne'
  have hsP : ((p.snapshot i).P : ℚ) ≠ 0 := by exact_mod_cast (h.snapshot_P_pos i hi).ne'
  have hf : (factor : ℚ) ≠ 0 := by exact_mod_cast hfactor.ne'
  simp only [value, ho.deposit_eq, ho.snapshot_eq, hepoch]
  split
  next => simp
  next he =>
    have hle := h.snapshot_le i hi
    have hm := ho.moves
    -- the exponents add up, because the scale only grows
    have hexp : p'.scale - (p.snapshot i).scale =
        (p.scale - (p.snapshot i).scale) + (p'.scale - p.scale) := by omega
    rw [hexp, pow_add]
    field_simp

theorem value_eq_zero_of_epoch (h : p.Consistent) (hepoch : p'.epoch ≠ p.epoch) :
    p'.value factor i = 0 := by
  by_cases hi : p.deposit i = 0
  · exact value_of_deposit_eq_zero (by rw [ho.deposit_eq, hi])
  -- the epoch only grows, so the snapshot is now in an earlier one
  · have hle := h.snapshot_le i (Nat.pos_of_ne_zero hi)
    have hm := ho.moves
    rw [value, ho.snapshot_eq, if_pos (by omega)]

/-- A deposit gains `perUnit` for each unit of its value. -/
theorem gain_le (h : p.Consistent) (hfactor : 0 < factor) :
    p'.gain factor i ≤ p.gain factor i + perUnit * p.value factor i := by
  by_cases hi : p.deposit i = 0
  · rw [gain_of_deposit_eq_zero hi, gain_of_deposit_eq_zero (by rw [ho.deposit_eq, hi]),
      value_of_deposit_eq_zero hi]
    simp
  have hi : 0 < p.deposit i := Nat.pos_of_ne_zero hi
  have hsP : ((p.snapshot i).P : ℚ) ≠ 0 := by exact_mod_cast (h.snapshot_P_pos i hi).ne'
  have hf : (factor : ℚ) ≠ 0 := by exact_mod_cast hfactor.ne'
  have hnonneg : 0 ≤ (perUnit : ℚ) * p.value factor i :=
    mul_nonneg (by positivity) value_nonneg
  simp only [gain, ho.deposit_eq, ho.snapshot_eq, ho.sum_eq]
  rcases h.snapshot_le i hi with he | ⟨he, hk⟩
  · -- the deposit was wiped out in an earlier epoch
    rw [if_neg (by omega), if_neg (by omega)]
    linarith
  -- the sum that is written counts for this deposit in full, a part of it, or not at all
  · rcases Nat.lt_trichotomy (p.snapshot i).scale p.scale with hlt | heq | hgt
    · by_cases hnext : (p.snapshot i).scale + 1 = p.scale
      · have hexp : p.scale - (p.snapshot i).scale = 1 := by omega
        rw [if_neg (by omega), if_pos ⟨he, hnext⟩, value, if_neg (by omega), hexp]
        push_cast
        apply le_of_eq
        field_simp
        ring
      · rw [if_neg (by omega), if_neg (by omega)]
        linarith
    · have hexp : p.scale - (p.snapshot i).scale = 0 := by omega
      rw [if_pos ⟨he, heq⟩, if_neg (by omega), value, if_neg (by omega), hexp]
      push_cast
      apply le_of_eq
      field_simp
      ring
    · omega

variable [Fintype α]

theorem sum_value_le (h : p.Covered factor precision) (hfactor : 0 < factor)
    (hshrinks : ShrinksEnough factor loss p p') : ∑ i, p'.value factor i ≤ p'.total := by
  by_cases hepoch : p'.epoch = p.epoch
  -- all values are multiplied by one factor
  · have hP : (0 : ℚ) < p.P := by exact_mod_cast h.P_pos
    have hf : (0 : ℚ) < (factor : ℚ) ^ (p'.scale - p.scale) := by positivity
    have hbound := hshrinks hepoch
    rw [ho.total_eq]
    have hboundQ : (p'.P : ℚ) * p.total ≤
        p.P * ((p.total - loss : Nat) : ℚ) * (factor : ℚ) ^ (p'.scale - p.scale) := by
      exact_mod_cast hbound
    simp only [ho.value_eq h.toConsistent hfactor hepoch, ← Finset.sum_mul]
    calc (∑ i, p.value factor i) * (p'.P / (p.P * (factor : ℚ) ^ (p'.scale - p.scale)))
        ≤ p.total * (p'.P / (p.P * (factor : ℚ) ^ (p'.scale - p.scale))) :=
          mul_le_mul_of_nonneg_right h.value_le (by positivity)
      _ = p'.P * p.total / (p.P * (factor : ℚ) ^ (p'.scale - p.scale)) := by ring
      _ ≤ ((p.total - loss : Nat) : ℚ) := by
          rw [div_le_iff₀ (by positivity)]
          linarith
  · simp only [ho.value_eq_zero_of_epoch h.toConsistent hepoch, Finset.sum_const_zero]
    positivity

theorem sum_gain_le (h : p.Covered factor precision) (hfactor : 0 < factor) :
    ∑ i, p'.gain factor i + p'.error ≤ (precision : ℚ) * p'.reserve := by
  have herror : (perUnit : ℚ) * p.total + p'.error = paid * precision + p.error := by
    exact_mod_cast ho.error_eq
  -- each deposit gains for its value, which is at most its part of the total
  have hsum : ∑ i, p'.gain factor i ≤ ∑ i, p.gain factor i + perUnit * ∑ i, p.value factor i := by
    rw [Finset.mul_sum, ← Finset.sum_add_distrib]
    exact Finset.sum_le_sum fun i _ => ho.gain_le h.toConsistent hfactor
  have hvalue : (perUnit : ℚ) * ∑ i, p.value factor i ≤ perUnit * p.total :=
    mul_le_mul_of_nonneg_left h.value_le (by positivity)
  have hgain := h.gain_le
  rw [ho.reserve_eq]
  push_cast
  linarith

/-- A loss that shrinks the product enough keeps the pool covered. -/
theorem covered (h : p.Covered factor precision) (hfactor : 0 < factor)
    (hshrinks : ShrinksEnough factor loss p p') : p'.Covered factor precision where
  toConsistent := ho.consistent h.toConsistent
  value_le := ho.sum_value_le h hfactor hshrinks
  gain_le := ho.sum_gain_le h hfactor

end Offset

/-! ## Deposits -/

section Deposits

variable [DecidableEq α] {v total : Nat} {s : Snapshot}

theorem redeposit_value_of_ne {j : α} (hj : j ≠ i) (reserve : Nat) :
    (p.redeposit i v s total reserve).value factor j = p.value factor j := by
  simp [value, redeposit, Function.update_of_ne hj]

theorem redeposit_gain_of_ne {j : α} (hj : j ≠ i) (reserve : Nat) :
    (p.redeposit i v s total reserve).gain factor j = p.gain factor j := by
  simp [gain, redeposit, Function.update_of_ne hj]

/-- A fresh deposit is worth what was put in. -/
theorem redeposit_value (h : p.Consistent) (hs : v ≠ 0 → s = p.current) (reserve : Nat) :
    (p.redeposit i v s total reserve).value factor i = v := by
  by_cases hv : v = 0
  · rw [value_of_deposit_eq_zero (by simp [redeposit, hv]), hv, Nat.cast_zero]
  · have hP : (p.P : ℚ) ≠ 0 := by exact_mod_cast h.P_pos.ne'
    simp [value, redeposit, hs hv, current, hP]

/-- A fresh deposit has no gain yet. -/
theorem redeposit_gain (h : p.Consistent) (hs : v ≠ 0 → s = p.current) (reserve : Nat) :
    (p.redeposit i v s total reserve).gain factor i = 0 := by
  by_cases hv : v = 0
  · exact gain_of_deposit_eq_zero (by simp [redeposit, hv])
  · have hfuture := h.sum_future p.epoch (p.scale + 1) (.inr ⟨rfl, Nat.lt_succ_self _⟩)
    simp [gain, redeposit, hs hv, current, hfuture]

theorem Consistent.redeposit (h : p.Consistent) (hs : v ≠ 0 → s = p.current) (reserve : Nat) :
    (p.redeposit i v s total reserve).Consistent where
  P_pos := h.P_pos
  snapshot_P_pos j hj := by
    by_cases hji : j = i
    · subst hji
      have hv : v ≠ 0 := by simpa [Pool.redeposit, Nat.pos_iff_ne_zero] using hj
      simpa [Pool.redeposit, hs hv, current] using h.P_pos
    · simp only [Pool.redeposit, Function.update_of_ne hji] at hj ⊢
      exact h.snapshot_P_pos j hj
  snapshot_le j hj := by
    by_cases hji : j = i
    · subst hji
      have hv : v ≠ 0 := by simpa [Pool.redeposit, Nat.pos_iff_ne_zero] using hj
      right
      simp [Pool.redeposit, hs hv, current]
    · simp only [Pool.redeposit, Function.update_of_ne hji] at hj ⊢
      exact h.snapshot_le j hj
  snapshot_S_le j hj := by
    by_cases hji : j = i
    · subst hji
      have hv : v ≠ 0 := by simpa [Pool.redeposit, Nat.pos_iff_ne_zero] using hj
      simp [Pool.redeposit, hs hv, current]
    · simp only [Pool.redeposit, Function.update_of_ne hji] at hj ⊢
      exact h.snapshot_S_le j hj
  sum_future := h.sum_future

/-- Replacing a deposit, read back as `compounded`, while `paid` of its gain leaves the reserve. -/
theorem Covered.redeposit [Fintype α] {compounded : Nat} (h : p.Covered factor precision)
    (hs : v ≠ 0 → s = p.current) (hcompounded : (compounded : ℚ) ≤ p.value factor i)
    (htotal : total + compounded = p.total + v)
    (hpaid : (precision : ℚ) * paid ≤ p.gain factor i) (hreserve : paid ≤ p.reserve) :
    (p.redeposit i v s total (p.reserve - paid)).Covered factor precision where
  toConsistent := h.toConsistent.redeposit hs _
  value_le := by
    have hsum : ∑ j, (p.redeposit i v s total (p.reserve - paid)).value factor j +
        p.value factor i = ∑ j, p.value factor j + v := by
      rw [sum_add_eq_of_ne i fun j hj => redeposit_value_of_ne hj _, redeposit_value h.toConsistent hs]
    have hle := h.value_le
    have htotalQ : (total : ℚ) + compounded = p.total + v := by exact_mod_cast htotal
    change _ ≤ (total : ℚ)
    linarith
  gain_le := by
    have hsum : ∑ j, (p.redeposit i v s total (p.reserve - paid)).gain factor j +
        p.gain factor i = ∑ j, p.gain factor j := by
      rw [sum_add_eq_of_ne i fun j hj => redeposit_gain_of_ne hj _, redeposit_gain h.toConsistent hs,
        add_zero]
    have hle := h.gain_le
    change _ + (p.error : ℚ) ≤ precision * ((p.reserve - paid : Nat) : ℚ)
    rw [Nat.cast_sub hreserve, mul_sub]
    linarith

end Deposits

/-! ## Deposits grouped by a tag -/

section Groups

variable {β : Type} {tag tag' : α → β} {stakes stakes' : Pool β} {f : β}

/-- Reading a stake may drop no larger part of a unit than reading the deposit does, unless nobody
else is in the group. -/
def RoundsTogether (factor : Nat) (tag : α → β) (p : Pool α) (stakes : Pool β) (i : α) (f : β) :
    Prop :=
  Int.fract (stakes.value factor f) ≤ Int.fract (p.value factor i) ∨
    ∀ j, j ≠ i → tag j = f → p.deposit j = 0

/-- What the readings leave for the other members of the group. -/
theorem RoundsTogether.rest_le {compounded : Nat} {rest : ℚ}
    (h : RoundsTogether factor tag p stakes i f)
    (hcompounded : (compounded : ℚ) ≤ p.value factor i)
    (hcovered : rest + p.value factor i ≤ stakes.value factor f)
    (hrest : (∀ j, j ≠ i → tag j = f → p.deposit j = 0) → rest = 0) :
    rest + compounded ≤ ⌊stakes.value factor f⌋ := by
  have hfloor : (compounded : ℚ) ≤ ⌊p.value factor i⌋ := by
    have hle : (compounded : ℤ) ≤ ⌊p.value factor i⌋ := Int.le_floor.mpr (by exact_mod_cast hcompounded)
    exact_mod_cast hle
  -- what the stake rounds off is at most what the deposit rounds off
  rcases h with hfract | halone
  · have hstake := Int.self_sub_floor (stakes.value factor f)
    have hvalue := Int.self_sub_floor (p.value factor i)
    linarith
  · rw [hrest halone, zero_add]
    rw [hrest halone, zero_add] at hcovered
    exact hfloor.trans (by exact_mod_cast Int.floor_le_floor hcovered)

variable [DecidableEq β]

/-- The value of a deposit, counted for the group `g`. -/
def valueFor (factor : Nat) (tag : α → β) (p : Pool α) (g : β) (i : α) : ℚ :=
  if tag i = g then p.value factor i else 0

theorem valueFor_of_deposit_eq_zero {g : β} (h : p.deposit i = 0) :
    p.valueFor factor tag g i = 0 := by
  rw [valueFor, value_of_deposit_eq_zero h, ite_self]

theorem valueFor_eq {g : β} (h : p.deposit i ≠ 0 → tag i = f) :
    p.valueFor factor tag g i = if g = f then p.value factor i else 0 := by
  by_cases hi : p.deposit i = 0
  · rw [valueFor_of_deposit_eq_zero hi, value_of_deposit_eq_zero hi, ite_self]
  · rw [valueFor, h hi]
    exact if_congr eq_comm rfl rfl

variable [Fintype α]

/-- The stake of every group is worth at least the deposits tagged with it. -/
def GroupsCovered (factor : Nat) (tag : α → β) (p : Pool α) (stakes : Pool β) : Prop :=
  ∀ g, ∑ i, p.valueFor factor tag g i ≤ stakes.value factor g

-- deposits and stakes are multiplied by the same factor, whatever it is
theorem GroupsCovered.offset {loss' paid' perUnit' : Nat} (h : GroupsCovered factor tag p stakes)
    (hp : p.Consistent) (hstakes : stakes.Consistent) (hfactor : 0 < factor)
    (ho : Offset precision loss paid perUnit p p')
    (ho' : Offset precision loss' paid' perUnit' stakes stakes')
    (hP : stakes.P = p.P ∧ stakes'.P = p'.P) (hscale : stakes.scale = p.scale ∧ stakes'.scale = p'.scale)
    (hepoch : stakes.epoch = p.epoch ∧ stakes'.epoch = p'.epoch) :
    GroupsCovered factor tag p' stakes' := by
  intro g
  -- a new epoch wipes out stakes and deposits alike
  by_cases hsame : p'.epoch = p.epoch
  · have hsame' : stakes'.epoch = stakes.epoch := by rw [hepoch.1, hepoch.2, hsame]
    have hshrunk : ∀ i, p'.valueFor factor tag g i =
        p.valueFor factor tag g i * (p'.P / (p.P * (factor : ℚ) ^ (p'.scale - p.scale))) := by
      intro i
      unfold valueFor
      rw [ho.value_eq hp hfactor hsame]
      split
      · rfl
      · rw [zero_mul]
    rw [ho'.value_eq hstakes hfactor hsame', hP.1, hP.2, hscale.1, hscale.2,
      Finset.sum_congr rfl fun i _ => hshrunk i, ← Finset.sum_mul]
    exact mul_le_mul_of_nonneg_right (h g) (by positivity)
  · have hzero : ∀ i, p'.valueFor factor tag g i = 0 := by
      intro i
      rw [valueFor, ho.value_eq_zero_of_epoch hp hsame, ite_self]
    rw [Finset.sum_congr rfl fun i _ => hzero i, Finset.sum_const_zero]
    exact value_nonneg

/-- Replacing a deposit and, by the same amount, the stake of its group, both at their readings. -/
theorem GroupsCovered.redeposit [DecidableEq α] {compounded compoundedStake v v' total total' : Nat}
    {s s' : Snapshot} (h : GroupsCovered factor tag p stakes) (hp : p.Consistent)
    (hstakes : stakes.Consistent) (hs : v ≠ 0 → s = p.current) (hs' : v' ≠ 0 → s' = stakes.current)
    (htag : p.deposit i ≠ 0 → tag i = f) (htag' : ∀ j, j ≠ i → tag' j = tag j)
    (hnew : v ≠ 0 → tag' i = f) (hcompounded : (compounded : ℚ) ≤ p.value factor i)
    (hstake : (compoundedStake : ℚ) = ⌊stakes.value factor f⌋)
    (hrounds : RoundsTogether factor tag p stakes i f)
    (hv : v' + compounded = compoundedStake + v) (reserve reserve' : Nat) :
    GroupsCovered factor tag' (p.redeposit i v s total reserve)
      (stakes.redeposit f v' s' total' reserve') := by
  intro g
  -- only the contribution of the depositor changes
  have hsum := sum_add_eq_of_ne i fun j hj =>
    show (p.redeposit i v s total reserve).valueFor factor tag' g j = p.valueFor factor tag g j by
      unfold valueFor
      rw [htag' j hj, redeposit_value_of_ne hj]
  rw [valueFor_eq htag, valueFor_eq (f := f) (by simpa [Pool.redeposit] using hnew),
    redeposit_value hp hs] at hsum
  -- a stake of another group is not written
  by_cases hg : g = f
  · rw [if_pos hg, if_pos hg] at hsum
    subst hg
    rw [redeposit_value hstakes hs']
    have halone : (∀ j, j ≠ i → tag j = g → p.deposit j = 0) →
        ∑ j, p.valueFor factor tag g j - p.value factor i = 0 := by
      intro halone
      rw [sub_eq_zero, Finset.sum_eq_single i, valueFor_eq htag, if_pos rfl]
      · intro j _ hj
        unfold valueFor
        split
        next hjg => exact value_of_deposit_eq_zero (halone j hj hjg)
        next => rfl
      · exact fun hi => absurd (Finset.mem_univ i) hi
    have hrest := hrounds.rest_le hcompounded (by linarith [h g]) halone
    have hvQ : (v' : ℚ) + compounded = compoundedStake + v := by exact_mod_cast hv
    linarith
  · rw [if_neg hg, if_neg hg, add_zero, add_zero] at hsum
    rw [hsum, redeposit_value_of_ne hg]
    exact h g

end Groups

end Pool

end Lib.ProductSum
