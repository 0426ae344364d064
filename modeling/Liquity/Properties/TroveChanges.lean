import Liquity.LibBase.Trove
import Mathlib.Tactic.Ring

/-!
# Changes of a trove

What `whatChanged` finds between two troves turns the one into the other, up to one unit of debt when
a fee is removed and added again.
-/

open Lib

namespace Liquity.LibBase

open Decimal

def DebtChange.amount : DebtChange → Decimal
  | .borrowLUSD amount => amount
  | .repayLUSD amount => amount

def CollateralChange.amount : CollateralChange → Decimal
  | .depositCollateral amount => amount
  | .withdrawCollateral amount => amount

namespace Trove

variable {a b : Trove} {r : Decimal}

/-! ## Fees -/

/-- Removing a fee rounds up and adding it rounds down, which is at most a unit apart. -/
theorem applyFee_unapplyFee (hr : r.bigNumber ≤ DIGITS) (increase : Decimal) :
    increase.bigNumber ≤ (applyFee r (unapplyFee r increase)).bigNumber ∧
      (applyFee r (unapplyFee r increase)).bigNumber ≤ increase.bigNumber + 1 ∧
      (r = ZERO → applyFee r (unapplyFee r increase) = increase) := by
  have hpos := DIGITS_pos
  have hunapply : (unapplyFee r increase).bigNumber =
      (increase.bigNumber * DIGITS + (DIGITS + r.bigNumber - 1)) / (DIGITS + r.bigNumber) := by
    have hnonzero : ¬ (ONE.add r).isZero := by
      show DIGITS + r.bigNumber ≠ 0
      omega
    rw [unapplyFee, divCeil, if_neg hnonzero]
    rfl
  have happly : (applyFee r (unapplyFee r increase)).bigNumber =
      (unapplyFee r increase).bigNumber * (DIGITS + r.bigNumber) / DIGITS := rfl
  -- the product of the quotient that was rounded up and its divisor
  have hle : increase.bigNumber * DIGITS ≤
      (unapplyFee r increase).bigNumber * (DIGITS + r.bigNumber) := by
    have hdiv := Nat.lt_div_mul_add (a := increase.bigNumber * DIGITS + (DIGITS + r.bigNumber - 1))
      (b := DIGITS + r.bigNumber) (by omega)
    rw [← hunapply] at hdiv
    omega
  have hlt : (unapplyFee r increase).bigNumber * (DIGITS + r.bigNumber) ≤
      increase.bigNumber * DIGITS + (DIGITS + r.bigNumber - 1) := by
    rw [hunapply]
    exact Nat.div_mul_le_self _ _
  refine ⟨?_, ?_, ?_⟩
  · rw [happly, Nat.le_div_iff_mul_le hpos]
    exact hle
  · rw [happly]
    apply Nat.le_of_lt_succ
    rw [Nat.div_lt_iff_lt_mul hpos, Nat.succ_mul, Nat.succ_mul]
    omega
  · rintro rfl
    apply Decimal.ext
    have hzero : ZERO.bigNumber = 0 := rfl
    rw [hzero, Nat.add_zero] at hle hlt
    rw [happly, hzero, Nat.add_zero, Nat.mul_div_cancel _ hpos]
    have hmul : (unapplyFee ZERO increase).bigNumber * DIGITS < (increase.bigNumber + 1) * DIGITS := by
      rw [Nat.succ_mul]
      omega
    have hge := Nat.le_of_mul_le_mul_right hle hpos
    have hlt := Nat.lt_of_mul_lt_mul_right hmul
    omega

theorem unapplyFee_pos {increase : Decimal} (hr : r.bigNumber ≤ DIGITS)
    (h : 0 < increase.bigNumber) : ¬ (unapplyFee r increase).isZero := by
  intro hzero
  have hback := (applyFee_unapplyFee hr increase).1
  have happly : (applyFee r (unapplyFee r increase)).bigNumber =
      (unapplyFee r increase).bigNumber * (DIGITS + r.bigNumber) / DIGITS := rfl
  have hzero : (unapplyFee r increase).bigNumber = 0 := hzero
  rw [happly, hzero, Nat.zero_mul, Nat.zero_div] at hback
  omega

/-! ## Adjustments -/

theorem monus_bigNumber (x y : Decimal) : (monus x y).bigNumber = x.bigNumber - y.bigNumber := by
  unfold monus
  split
  next => rfl
  next h =>
    have h : ¬ y.bigNumber < x.bigNumber := h
    show 0 = x.bigNumber - y.bigNumber
    omega

/-- A debt that is what was asked for, or a unit more where it grew with a fee. -/
def DebtReached (a b : Trove) (r debt : Decimal) : Prop :=
  b.debt.bigNumber ≤ debt.bigNumber ∧ debt.bigNumber ≤ b.debt.bigNumber + 1 ∧
    (r = ZERO ∨ b.debt.bigNumber ≤ a.debt.bigNumber → debt = b.debt)

theorem debtReached_self (a b : Trove) (r : Decimal) : DebtReached a b r b.debt :=
  ⟨Nat.le_refl _, Nat.le_succ _, fun _ => rfl⟩

theorem sub_eq {x y : Decimal} (h : y.bigNumber ≤ x.bigNumber) :
    x.sub y = .ok ⟨x.bigNumber - y.bigNumber⟩ :=
  sub_ok.mpr ⟨h, rfl⟩

/-- The debt after an adjustment that sets nothing to zero. -/
def debtAfter (a : Trove) (change : Option DebtChange) (r : Decimal) : Decimal :=
  (a.applyAdjustment ⟨none, change⟩ none r).debt

/-- The collateral after an adjustment that sets nothing to zero. -/
def collateralAfter (a : Trove) (change : Option CollateralChange) : Decimal :=
  (a.applyAdjustment ⟨change, none⟩ none ZERO).collateral

theorem applyAdjustment_none (a : Trove) (params : TroveAdjustmentParams) (r : Decimal) :
    a.applyAdjustment params none r =
      ⟨a.collateralAfter params.collateralChange, a.debtAfter params.debtChange r⟩ := rfl

theorem debtChange_reaches (hr : r.bigNumber ≤ DIGITS) (hne : a.debt ≠ b.debt) :
    ∃ change, a.debtChange b r = .ok change ∧ ¬ change.amount.isZero ∧
      DebtReached a b r (a.debtAfter (some change) r) := by
  have hne : a.debt.bigNumber ≠ b.debt.bigNumber := fun h => hne (Decimal.ext h)
  unfold debtChange
  by_cases hgt : b.debt.gt a.debt
  · have hlt : a.debt.bigNumber < b.debt.bigNumber := hgt
    let increase : Decimal := ⟨b.debt.bigNumber - a.debt.bigNumber⟩
    have hincrease : increase.bigNumber = b.debt.bigNumber - a.debt.bigNumber := rfl
    rw [if_pos hgt, sub_eq (Nat.le_of_lt hlt), ok_bind]
    have hpos : 0 < increase.bigNumber := by omega
    refine ⟨.borrowLUSD (unapplyFee r increase), rfl, unapplyFee_pos hr hpos, ?_⟩
    have hfee := applyFee_unapplyFee hr increase
    have hafter : (a.debtAfter (some (.borrowLUSD (unapplyFee r increase))) r).bigNumber =
        a.debt.bigNumber + (applyFee r (unapplyFee r increase)).bigNumber :=
      monus_bigNumber _ _
    refine ⟨by omega, by omega, ?_⟩
    rintro (hzero | hle)
    · apply Decimal.ext
      rw [hafter, hfee.2.2 hzero]
      omega
    · omega
  · have hle : b.debt.bigNumber ≤ a.debt.bigNumber := Nat.le_of_not_lt hgt
    let decrease : Decimal := ⟨a.debt.bigNumber - b.debt.bigNumber⟩
    have hdecrease : decrease.bigNumber = a.debt.bigNumber - b.debt.bigNumber := rfl
    rw [if_neg hgt, sub_eq hle, ok_bind]
    refine ⟨.repayLUSD decrease, rfl, ?_, ?_⟩
    · show ¬ decrease.bigNumber = 0
      omega
    · have hafter : (a.debtAfter (some (.repayLUSD decrease)) r).bigNumber =
          a.debt.bigNumber + 0 - decrease.bigNumber :=
        monus_bigNumber _ _
      have hexact : a.debtAfter (some (.repayLUSD decrease)) r = b.debt := by
        apply Decimal.ext
        omega
      rw [hexact]
      exact debtReached_self a b r

theorem collateralChange_reaches (hne : a.collateral ≠ b.collateral) :
    ∃ change, a.collateralChange b = .ok change ∧ ¬ change.amount.isZero ∧
      a.collateralAfter (some change) = b.collateral := by
  have hne : a.collateral.bigNumber ≠ b.collateral.bigNumber := fun h => hne (Decimal.ext h)
  unfold collateralChange
  by_cases hgt : b.collateral.gt a.collateral
  · have hlt : a.collateral.bigNumber < b.collateral.bigNumber := hgt
    let increase : Decimal := ⟨b.collateral.bigNumber - a.collateral.bigNumber⟩
    have hincrease : increase.bigNumber = b.collateral.bigNumber - a.collateral.bigNumber := rfl
    rw [if_pos hgt, sub_eq (Nat.le_of_lt hlt), ok_bind]
    refine ⟨.depositCollateral increase, rfl, ?_, ?_⟩
    · show ¬ increase.bigNumber = 0
      omega
    · have hafter : (a.collateralAfter (some (.depositCollateral increase))).bigNumber =
          a.collateral.bigNumber + increase.bigNumber := monus_bigNumber _ _
      apply Decimal.ext
      omega
  · have hle : b.collateral.bigNumber ≤ a.collateral.bigNumber := Nat.le_of_not_lt hgt
    let decrease : Decimal := ⟨a.collateral.bigNumber - b.collateral.bigNumber⟩
    have hdecrease : decrease.bigNumber = a.collateral.bigNumber - b.collateral.bigNumber := rfl
    rw [if_neg hgt, sub_eq hle, ok_bind]
    refine ⟨.withdrawCollateral decrease, rfl, ?_, ?_⟩
    · show ¬ decrease.bigNumber = 0
      omega
    · have hafter : (a.collateralAfter (some (.withdrawCollateral decrease))).bigNumber =
          a.collateral.bigNumber + 0 - decrease.bigNumber := monus_bigNumber _ _
      apply Decimal.ext
      omega

/-- What is set to zero is what the adjustment brings to zero anyway. -/
theorem applyAdjustment_zeroed {params : TroveAdjustmentParams} {setToZero : Option SetToZero}
    (hdebt : setToZero = some .debt → (a.applyAdjustment params none r).debt = ZERO)
    (hcollateral : setToZero = some .collateral →
      (a.applyAdjustment params none r).collateral = ZERO) :
    a.applyAdjustment params setToZero r = a.applyAdjustment params none r := by
  cases setToZero with
  | none => rfl
  | some field =>
    cases field with
    | debt =>
      rw [applyAdjustment_none] at hdebt ⊢
      rw [show a.debtAfter params.debtChange r = ZERO from hdebt rfl]
      rfl
    | collateral =>
      rw [applyAdjustment_none] at hcollateral ⊢
      rw [show a.collateralAfter params.collateralChange = ZERO from hcollateral rfl]
      rfl

/-- The parameters of an adjustment as the SDK hands them out: at least one, and none of them zero. -/
def NonZeroParams (params : TroveAdjustmentParams) : Prop :=
  params.entries ≠ [] ∧ ∀ e ∈ params.entries, ∃ amount, e.2 = some amount ∧ ¬ amount.isZero

/-- Such parameters are their own normal form. -/
theorem normalizeTroveAdjustment_entries {params : TroveAdjustmentParams} (h : NonZeroParams params) :
    normalizeTroveAdjustment params.entries = .ok params := by
  have hdefined : ∀ e ∈ params.entries.filterMap fun e => e.2.map fun v => (e.1, v), ¬ e.2.isZero := by
    intro e he
    obtain ⟨entry, hentry, hmap⟩ := List.mem_filterMap.mp he
    obtain ⟨amount, hamount, hne⟩ := h.2 entry hentry
    rw [hamount] at hmap
    cases hmap
    exact hne
  unfold normalizeTroveAdjustment
  dsimp only
  rw [List.filter_eq_self.mpr fun e he => decide_eq_true (hdefined e he)]
  obtain ⟨collateralChange, debtChange⟩ := params
  rcases debtChange with _ | _ | _ <;> rcases collateralChange with _ | _ | _
  case none.none => exact absurd rfl h.1
  all_goals rfl

/-- An adjustment to non-zero parameters comes back from `adjustTo` and goes through `adjust`. -/
theorem adjust_adjustTo {params : TroveAdjustmentParams} {setToZero : Option SetToZero}
    (hchange : a.whatChanged b r = .ok (some (.adjustment params setToZero)))
    (h : NonZeroParams params) :
    a.adjustTo b r = .ok params ∧ a.adjust params.entries r = .ok (a.applyAdjustment params none r) := by
  constructor
  · rw [adjustTo, hchange]
    rfl
  · rw [adjust, normalizeTroveAdjustment_entries h]
    rfl

/-- An adjustment that has the collateral and the debt of the other trove. -/
structure Reaches (a b : Trove) (r : Decimal) (params : TroveAdjustmentParams) : Prop where
  nonZero : NonZeroParams params
  collateral : a.collateralAfter params.collateralChange = b.collateral
  debt : DebtReached a b r (a.debtAfter params.debtChange r)

theorem collateralAfter_none (a : Trove) : a.collateralAfter none = a.collateral := by
  apply Decimal.ext
  show (monus (a.collateral.add ZERO) ZERO).bigNumber = a.collateral.bigNumber
  rw [monus_bigNumber]
  rfl

theorem debtAfter_none (a : Trove) (r : Decimal) : a.debtAfter none r = a.debt := by
  apply Decimal.ext
  show (monus (a.debt.add ZERO) ZERO).bigNumber = a.debt.bigNumber
  rw [monus_bigNumber]
  rfl

theorem NonZeroParams.of_debt {debtChange : DebtChange} (h : ¬ debtChange.amount.isZero) :
    NonZeroParams ⟨none, some debtChange⟩ := by
  refine ⟨List.cons_ne_nil _ _, ?_⟩
  intro e he
  rw [List.mem_singleton.mp he]
  cases debtChange <;> exact ⟨_, rfl, h⟩

theorem NonZeroParams.of_collateral {collateralChange : CollateralChange}
    (h : ¬ collateralChange.amount.isZero) : NonZeroParams ⟨some collateralChange, none⟩ := by
  refine ⟨List.cons_ne_nil _ _, ?_⟩
  intro e he
  rw [List.mem_singleton.mp he]
  cases collateralChange <;> exact ⟨_, rfl, h⟩

theorem NonZeroParams.of_both {collateralChange : CollateralChange} {debtChange : DebtChange}
    (hcollateral : ¬ collateralChange.amount.isZero) (hdebt : ¬ debtChange.amount.isZero) :
    NonZeroParams ⟨some collateralChange, some debtChange⟩ := by
  refine ⟨List.cons_ne_nil _ _, ?_⟩
  intro e he
  rcases List.mem_append.mp he with he | he
  · exact (of_debt hdebt).2 e he
  · exact (of_collateral hcollateral).2 e he

/-- The change that is found is an adjustment with these parameters, or the trove is opened or closed. -/
theorem whatChanged_cases (ha : a.isEmpty ∨ LUSD_LIQUIDATION_RESERVE.bigNumber ≤ a.debt.bigNumber)
    (hr : r.bigNumber ≤ DIGITS) :
    (a = b ∧ a.whatChanged b r = .ok none) ∨
    (a.isEmpty ∧ a.whatChanged b r = .ok (some (.invalidCreation b .missingLiquidationReserve))) ∨
    (a.isEmpty ∧ LUSD_LIQUIDATION_RESERVE.bigNumber ≤ b.debt.bigNumber ∧
      a.whatChanged b r = .ok (some (.creation ⟨b.collateral,
        unapplyFee r ⟨b.debt.bigNumber - LUSD_LIQUIDATION_RESERVE.bigNumber⟩⟩))) ∨
    (¬ a.isEmpty ∧ b.isEmpty ∧ ∃ params, a.whatChanged b r = .ok (some (.closure params))) ∨
    ∃ params setToZero, a.whatChanged b r = .ok (some (.adjustment params setToZero)) ∧
      Reaches a b r params ∧ (setToZero = some .debt → b.debt = ZERO) ∧
      (setToZero = some .collateral → b.collateral = ZERO) := by
  have hnetDebt : ∀ t : Trove, LUSD_LIQUIDATION_RESERVE.bigNumber ≤ t.debt.bigNumber →
      t.netDebt = .ok ⟨t.debt.bigNumber - LUSD_LIQUIDATION_RESERVE.bigNumber⟩ := by
    intro t ht
    have hreserve : ¬ t.debt.lt LUSD_LIQUIDATION_RESERVE := Nat.not_lt.mpr ht
    rw [netDebt, require, if_pos hreserve, ok_bind, sub_eq ht]
  have hzeroed : ∀ (value : Decimal) (field field' : SetToZero),
      zeroed value field = some field' → field' = field ∧ value = ZERO := by
    intro value field field' h
    unfold zeroed at h
    split at h
    next hzero => exact ⟨(Option.some.inj h).symm, Decimal.ext hzero⟩
    next => cases h
  unfold whatChanged
  by_cases hsame : a.collateral = b.collateral ∧ a.debt = b.debt
  · rw [if_pos hsame]
    left
    obtain ⟨collateral, debt⟩ := a
    obtain ⟨hcollateral, hdebt⟩ := hsame
    subst hcollateral hdebt
    exact ⟨rfl, rfl⟩
  rw [if_neg hsame]
  right
  by_cases hempty : a.isEmpty
  · rw [if_pos hempty]
    by_cases hlt : b.debt.lt LUSD_LIQUIDATION_RESERVE
    · rw [if_pos hlt]
      exact .inl ⟨hempty, rfl⟩
    · rw [if_neg hlt, hnetDebt b (Nat.not_lt.mp hlt), ok_bind]
      exact .inr (.inl ⟨hempty, Nat.not_lt.mp hlt, rfl⟩)
  rw [if_neg hempty]
  right; right
  by_cases hclosed : b.isEmpty
  · rw [if_pos hclosed, hnetDebt a (ha.resolve_left hempty), ok_bind]
    exact .inl ⟨hempty, hclosed, _, rfl⟩
  rw [if_neg hclosed]
  right
  by_cases hcollateral : a.collateral = b.collateral
  · obtain ⟨change, hchange, hne, hdebt⟩ :=
      debtChange_reaches hr fun hdebt => hsame ⟨hcollateral, hdebt⟩
    rw [if_pos hcollateral, hchange, ok_bind]
    refine ⟨_, _, rfl, ⟨.of_debt hne, (collateralAfter_none a).trans hcollateral, hdebt⟩, ?_, ?_⟩
    · exact fun h => (hzeroed _ _ _ h).2
    · exact fun h => absurd (hzeroed _ _ _ h).1 (by decide)
  rw [if_neg hcollateral]
  obtain ⟨collateralChange, hcollateralChange, hcollateralne, hcollateralAfter⟩ :=
    collateralChange_reaches hcollateral
  by_cases hdebt : a.debt = b.debt
  · rw [if_pos hdebt, hcollateralChange, ok_bind]
    refine ⟨_, _, rfl, ⟨.of_collateral hcollateralne, hcollateralAfter, ?_⟩, ?_, ?_⟩
    · show DebtReached a b r (a.debtAfter none r)
      rw [debtAfter_none, hdebt]
      exact debtReached_self a b r
    · exact fun h => absurd (hzeroed _ _ _ h).1 (by decide)
    · exact fun h => (hzeroed _ _ _ h).2
  · obtain ⟨debtChange, hdebtChange, hdebtne, hdebtAfter⟩ := debtChange_reaches hr hdebt
    rw [if_neg hdebt, hdebtChange, ok_bind, hcollateralChange, ok_bind]
    refine ⟨_, _, rfl, ⟨.of_both hcollateralne hdebtne, hcollateralAfter, hdebtAfter⟩, ?_, ?_⟩
    · intro h
      rcases Option.or_eq_some_iff.mp h with h | ⟨-, h⟩
      · exact (hzeroed _ _ _ h).2
      · exact absurd (hzeroed _ _ _ h).1 (by decide)
    · intro h
      rcases Option.or_eq_some_iff.mp h with h | ⟨-, h⟩
      · exact absurd (hzeroed _ _ _ h).1 (by decide)
      · exact (hzeroed _ _ _ h).2

/-- The change between two troves leads from the one to the other, and an adjustment does so through
its parameters alone. -/
theorem apply_whatChanged (a b : Trove) (r : Decimal)
    (ha : a.isEmpty ∨ LUSD_LIQUIDATION_RESERVE.bigNumber ≤ a.debt.bigNumber)
    (hr : r.bigNumber ≤ DIGITS) :
    ∃ change result, a.whatChanged b r = .ok change ∧ a.apply change r = .ok result ∧
      result.collateral = b.collateral ∧
      b.debt.bigNumber ≤ result.debt.bigNumber ∧
      result.debt.bigNumber ≤ b.debt.bigNumber + 1 ∧
      (r = ZERO ∨ b.debt.bigNumber ≤ a.debt.bigNumber → result.debt = b.debt) ∧
      ∀ params setToZero, change = some (.adjustment params setToZero) →
        (∀ e ∈ params.entries, ∃ amount, e.2 = some amount ∧ ¬ amount.isZero) ∧
        a.adjustTo b r = .ok params ∧ a.adjust params.entries r = .ok result := by
  rcases whatChanged_cases (b := b) ha hr with
    ⟨rfl, h⟩ | ⟨hempty, h⟩ | ⟨hempty, hreserve, h⟩ | ⟨hopen, hclosed, params, h⟩ |
      ⟨params, setToZero, h, hreach, hdebt, hcollateral⟩
  · exact ⟨none, a, h, rfl, rfl, Nat.le_refl _, Nat.le_succ _, fun _ => rfl, by simp⟩
  · refine ⟨_, b, h, ?_, rfl, Nat.le_refl _, Nat.le_succ _, fun _ => rfl, by simp⟩
    rw [apply, require, if_pos hempty]
    rfl
  · obtain ⟨hle, hlt, hexact⟩ := applyFee_unapplyFee hr
      ⟨b.debt.bigNumber - LUSD_LIQUIDATION_RESERVE.bigNumber⟩
    refine ⟨_, ⟨b.collateral, LUSD_LIQUIDATION_RESERVE.add (applyFee r (unapplyFee r
      ⟨b.debt.bigNumber - LUSD_LIQUIDATION_RESERVE.bigNumber⟩))⟩, h, ?_, rfl, ?_, ?_, ?_, by simp⟩
    · rw [apply, require, if_pos hempty]
      rfl
    · show _ ≤ LUSD_LIQUIDATION_RESERVE.bigNumber + _
      dsimp only at hle
      omega
    · show LUSD_LIQUIDATION_RESERVE.bigNumber + _ ≤ _
      dsimp only at hlt
      omega
    · rintro (hzero | hgrow)
      · apply Decimal.ext
        show LUSD_LIQUIDATION_RESERVE.bigNumber + (applyFee r _).bigNumber = _
        rw [hexact hzero]
        show LUSD_LIQUIDATION_RESERVE.bigNumber + (_ - _) = _
        omega
      · -- the debt of an opened trove grows from nothing
        have hnone : a.debt.bigNumber = 0 := hempty.2
        have hpos : 0 < LUSD_LIQUIDATION_RESERVE.bigNumber := by decide
        omega
  · have hb : b = emptyTrove := by
      obtain ⟨⟨collateral⟩, ⟨debt⟩⟩ := b
      obtain ⟨hcollateral, hdebt⟩ := hclosed
      have hcollateral : collateral = 0 := hcollateral
      have hdebt : debt = 0 := hdebt
      subst hcollateral hdebt
      rfl
    subst hb
    refine ⟨_, emptyTrove, h, ?_, rfl, Nat.le_refl _, Nat.le_succ _, fun _ => rfl, by simp⟩
    rw [apply, require, if_pos hopen]
    rfl
  · have hresult : a.applyAdjustment params setToZero r = a.applyAdjustment params none r := by
      apply applyAdjustment_zeroed
      · intro hset
        have hb := hdebt hset
        rw [applyAdjustment_none, ← hb]
        refine hreach.debt.2.2 (.inr ?_)
        rw [hb]
        exact Nat.zero_le _
      · intro hset
        rw [applyAdjustment_none, ← hcollateral hset]
        exact hreach.collateral
    obtain ⟨hto, hadjust⟩ := adjust_adjustTo h hreach.nonZero
    refine ⟨_, _, h, rfl, ?_, ?_, ?_, ?_, ?_⟩
    all_goals rw [hresult, applyAdjustment_none]
    · exact hreach.collateral
    · exact hreach.debt.1
    · exact hreach.debt.2.1
    · exact hreach.debt.2.2
    · intro params' setToZero' heq
      cases heq
      exact ⟨hreach.nonZero.2, hto, hadjust⟩

/-- A trove that pays back some debt and gets more collateral. -/
theorem apply_whatChanged_sample :
    ∃ change result,
      Trove.whatChanged ⟨⟨10 * DIGITS⟩, ⟨3000 * DIGITS⟩⟩ ⟨⟨11 * DIGITS⟩, ⟨2500 * DIGITS⟩⟩
          MINIMUM_BORROWING_RATE = .ok change ∧
        Trove.apply ⟨⟨10 * DIGITS⟩, ⟨3000 * DIGITS⟩⟩ change MINIMUM_BORROWING_RATE = .ok result ∧
        result.collateral = ⟨11 * DIGITS⟩ ∧ result.debt = ⟨2500 * DIGITS⟩ := by
  obtain ⟨change, result, hchange, hresult, hcollateral, -, -, hdebt, -⟩ :=
    apply_whatChanged ⟨⟨10 * DIGITS⟩, ⟨3000 * DIGITS⟩⟩ ⟨⟨11 * DIGITS⟩, ⟨2500 * DIGITS⟩⟩
      MINIMUM_BORROWING_RATE (.inr (by decide)) (by decide)
  exact ⟨change, result, hchange, hresult, hcollateral, hdebt (.inr (by decide))⟩

end Trove

end Liquity.LibBase
