import Liquity.Properties.DefaultPool
import Liquity.Properties.Liquidations

/-!
# The list of troves stays sorted

The list is ordered by nominal collateral ratios, which a redistribution changes for every trove at
once.  Shares in proportion to the collateral would keep the order; the shares are rounded, so two
troves whose ratios are closer than the rounding can change places.  Opening, adjusting, closing,
liquidating, redeeming and applying rewards keep the order.  While the list is sorted, the last trove
has the lowest ratio up to ties in the rounded ratio.
-/

open Lib

namespace Liquity

open SafeMath LiquityMath TroveManager

variable {d : Deployment} {s s' : System}

/-! ## Ratios -/

/-- Quotients are ordered like the fractions they round down. -/
theorem div_le_div_of_cross {m n k l : Nat} (hn : 0 < n) (hl : 0 < l) (h : m * l ≤ k * n) :
    m / n ≤ k / l := by
  -- cancel `n` from both sides
  rw [Nat.le_div_iff_mul_le hl]
  refine Nat.le_of_mul_le_mul_right ?_ hn
  calc m / n * l * n = m / n * n * l := Nat.mul_right_comm ..
    _ ≤ m * l := Nat.mul_le_mul_right _ (Nat.div_mul_le_self _ _)
    _ ≤ k * n := h

/-- Different quotients come from fractions in the same order. -/
theorem cross_of_div_lt_div {m n k l : Nat} (hn : 0 < n) (h : m / n < k / l) : m * l ≤ k * n := by
  calc m * l ≤ k / l * n * l := Nat.mul_le_mul_right _ (Nat.lt_mul_of_div_lt h hn).le
    _ = k / l * l * n := Nat.mul_right_comm ..
    _ ≤ k * n := Nat.mul_le_mul_right _ (Nat.div_mul_le_self _ _)

/-- An entry put between neighbours that bound it keeps a list sorted. -/
theorem pairwise_insert {α : Type} {f : α → Nat} {u v : List α} {b : α}
    (h : (u ++ v).Pairwise fun x y => f y ≤ f x) (hlast : ∀ y ∈ u.getLast?, f b ≤ f y)
    (hhead : ∀ y ∈ v.head?, f y ≤ f b) : (u ++ b :: v).Pairwise fun x y => f y ≤ f x := by
  obtain ⟨hu, hv, huv⟩ := List.pairwise_append.mp h
  -- everything before the gap is at least the last entry there, everything after at most the first
  have hbefore : ∀ x ∈ u, f b ≤ f x := by
    intro x hx
    rcases List.eq_nil_or_concat' u with rfl | ⟨w, y, rfl⟩
    · simp at hx
    · have hy : f b ≤ f y := hlast y (by simp)
      rcases List.mem_append.mp hx with hxw | hxy
      · exact hy.trans ((List.pairwise_append.mp hu).2.2 x hxw y (by simp))
      · rw [List.mem_singleton.mp hxy]
        exact hy
  have hafter : ∀ x ∈ v, f x ≤ f b := by
    intro x hx
    cases v with
    | nil => simp at hx
    | cons y w =>
      have hy : f y ≤ f b := hhead y (by simp)
      rcases List.mem_cons.mp hx with rfl | hxw
      · exact hy
      · exact ((List.pairwise_cons.mp hv).1 x hxw).trans hy
  refine List.pairwise_append.mpr ⟨hu, List.pairwise_cons.mpr ⟨hafter, hv⟩, fun x hx y hy => ?_⟩
  rcases List.mem_cons.mp hy with rfl | hyv
  · exact hbefore x hx
  · exact huv x hx y hyv

namespace TroveManager

variable {t t' : TroveManager} {a b x : Address} {order : List Address}

/-- The collateral of a trove with its pending reward. -/
def entireColl (t : TroveManager) (b : Address) : Nat := (t.troves b).coll + t.pendingETH b

/-- The debt of a trove with its pending reward. -/
def entireDebt (t : TroveManager) (b : Address) : Nat := (t.troves b).debt + t.pendingLUSDDebt b

/-- The nominal collateral ratio, without checks. -/
def nominalICR (t : TroveManager) (b : Address) : Nat :=
  t.entireColl b * NICR_PRECISION / t.entireDebt b

theorem getCurrentTroveAmounts_ok {amounts : Nat × Nat} (hb : (t.troves b).status = .active)
    (h : t.getCurrentTroveAmounts b = .ok amounts) : amounts = (t.entireColl b, t.entireDebt b) := by
  simp only [getCurrentTroveAmounts, bind_ok, pure_ok, add_ok] at h
  obtain ⟨pe, hpe, pd, hpd, _, ⟨-, rfl⟩, _, ⟨-, rfl⟩, rfl⟩ := h
  rw [(getPendingETHReward_ok hb hpe).2, (getPendingLUSDDebtReward_ok hb hpd).2]
  rfl

theorem getNominalICR_eq {r : Nat} (hb : (t.troves b).status = .active) (hdebt : 0 < t.entireDebt b)
    (h : t.getNominalICR b = .ok r) : r = t.nominalICR b := by
  obtain ⟨amounts, hamounts, h⟩ := bind_ok.mp h
  rw [getCurrentTroveAmounts_ok hb hamounts] at h
  exact computeNominalCR_ok hdebt h

theorem getCurrentICR_eq {price r : Nat} (hb : (t.troves b).status = .active)
    (hdebt : 0 < t.entireDebt b) (h : t.getCurrentICR b price = .ok r) :
    r = t.entireColl b * price / t.entireDebt b := by
  obtain ⟨amounts, hamounts, h⟩ := bind_ok.mp h
  rw [getCurrentTroveAmounts_ok hb hamounts] at h
  exact computeCR_ok hdebt h

/-- Applying its rewards changes neither amount of a trove. -/
theorem entire_applied (t : TroveManager) (b x : Address) :
    (t.applied b).entireColl x = t.entireColl x ∧ (t.applied b).entireDebt x = t.entireDebt x := by
  -- the reward moves from the pending part to the stored one
  by_cases hx : x = b
  · subst hx
    simp [entireColl, entireDebt, pendingETH, pendingLUSDDebt, applied]
  · simp [entireColl, entireDebt, pendingETH, pendingLUSDDebt, applied, Function.update_of_ne hx]

/-- A trove just opened has nothing pending. -/
theorem entire_register {coll debt stake : Nat} :
    (t.register b coll debt stake).entireColl b = coll ∧
      (t.register b coll debt stake).entireDebt b = debt := by
  simp [entireColl, entireDebt, pendingETH, pendingLUSDDebt, register]

theorem entire_register_of_ne {coll debt stake : Nat} (hx : x ≠ b) :
    (t.register b coll debt stake).entireColl x = t.entireColl x ∧
      (t.register b coll debt stake).entireDebt x = t.entireDebt x := by
  simp [entireColl, entireDebt, pendingETH, pendingLUSDDebt, register, Function.update_of_ne hx]

/-- An adjusted trove whose snapshots are current has nothing pending, whatever its new stake. -/
theorem entire_adjusted {coll debt stake : Nat} (hE : t.L_ETH ≤ (t.rewardSnapshots b).ETH)
    (hD : t.L_LUSDDebt ≤ (t.rewardSnapshots b).LUSDDebt) :
    (t.adjusted b coll debt stake).entireColl b = coll ∧
      (t.adjusted b coll debt stake).entireDebt b = debt := by
  simp [entireColl, entireDebt, pendingETH, pendingLUSDDebt, adjusted, Nat.sub_eq_zero_of_le hE,
    Nat.sub_eq_zero_of_le hD]

theorem entire_adjusted_of_ne {coll debt stake : Nat} (hx : x ≠ b) :
    (t.adjusted b coll debt stake).entireColl x = t.entireColl x ∧
      (t.adjusted b coll debt stake).entireDebt x = t.entireDebt x := by
  simp [entireColl, entireDebt, pendingETH, pendingLUSDDebt, adjusted, Function.update_of_ne hx]

end TroveManager

theorem SameTrove.entire_eq {t t' : TroveManager} {x : Address} (h : SameTrove t t' x)
    (hE : t'.L_ETH = t.L_ETH) (hD : t'.L_LUSDDebt = t.L_LUSDDebt) :
    t'.entireColl x = t.entireColl x ∧ t'.entireDebt x = t.entireDebt x := by
  simp only [entireColl, entireDebt, pendingETH, pendingLUSDDebt, h.coll, h.debt, h.stake, h.snapshot,
    hE, hD, and_self]

/-! ## Moves that keep the order -/

namespace Ledger

variable {L L' : Ledger} {label : Label} {b : Address}

theorem Consistent.entireDebt_pos (h : L.Consistent d) (hb : (L.tm.troves b).status = .active) :
    0 < L.tm.entireDebt b :=
  (debt_pos_of_minDebt (h.minDebt b hb)).trans_le (Nat.le_add_right _ _)

/-- No trove is behind one with a lower nominal ratio. -/
def Sorted (L : Ledger) : Prop := L.order.Pairwise fun a b => L.tm.nominalICR b ≤ L.tm.nominalICR a

/-- The ratios of the troves in the list decide. -/
theorem Sorted.congr {t : TroveManager} {order : List Address} (h : L.Sorted)
    (hsub : order.Sublist L.order)
    (heq : ∀ x ∈ order, t.entireColl x = L.tm.entireColl x ∧ t.entireDebt x = L.tm.entireDebt x) :
    order.Pairwise fun a b => t.nominalICR b ≤ t.nominalICR a := by
  refine (List.Pairwise.sublist hsub h).imp_of_mem fun ha hb hab => ?_
  unfold nominalICR at hab ⊢
  rw [(heq _ ha).1, (heq _ ha).2, (heq _ hb).1, (heq _ hb).2]
  exact hab

/-- Closing a trove. -/
theorem Sorted.unregister (h : L.Sorted) (hbooks : L.Consistent d) (b : Address) (status : Status) :
    (L.order.erase b).Pairwise fun x y => (L.tm.unregister b status).nominalICR y ≤
      (L.tm.unregister b status).nominalICR x := by
  refine h.congr List.erase_sublist fun x hx => ?_
  have hxb : x ≠ b := by
    rintro rfl
    exact hbooks.registered.order_nodup.not_mem_erase hx
  exact (sameTrove_unregister hxb).1.entire_eq rfl rfl

/-- Putting a trove where its ratio fits. -/
theorem Sorted.insert {t : TroveManager} {u v : List Address} {NICR coll debt : Nat} (h : L.Sorted)
    (hbooks : L.Consistent d) (horder : (u ++ v).Sublist L.order) (hb : b ∉ u ++ v)
    (hfits : SortedTroves.Fits L.tm.getNominalICR NICR u v)
    (hother : ∀ x, x ≠ b → t.entireColl x = L.tm.entireColl x ∧ t.entireDebt x = L.tm.entireDebt x)
    (hself : t.entireColl b = coll ∧ t.entireDebt b = debt) (hdebt : 0 < debt)
    (hratio : computeNominalCR coll debt = .ok NICR) :
    (u ++ b :: v).Pairwise fun x y => t.nominalICR y ≤ t.nominalICR x := by
  have hne : ∀ x ∈ u ++ v, x ≠ b := fun x hx heq => hb (heq ▸ hx)
  have hkept : ∀ x ∈ u ++ v, t.nominalICR x = L.tm.nominalICR x := by
    intro x hx
    unfold nominalICR
    rw [(hother x (hne x hx)).1, (hother x (hne x hx)).2]
  have hnew : t.nominalICR b = NICR := by
    rw [computeNominalCR_ok hdebt hratio, nominalICR, hself.1, hself.2]
  have hread : ∀ x ∈ u ++ v, ∀ r, L.tm.getNominalICR x = .ok r → r = t.nominalICR x := by
    intro x hx r hr
    have hactive := (hbooks.registered.mem_order x).mp (horder.subset hx)
    rw [hkept x hx]
    exact getNominalICR_eq hactive (hbooks.entireDebt_pos hactive) hr
  -- `Fits` compares the new ratio with those of the two neighbours only
  refine pairwise_insert (h.congr horder fun x hx => hother x (hne x hx)) (fun y hy => ?_) fun y hy => ?_
  · have hmem : y ∈ u ++ v := List.mem_append_left _ (List.mem_of_getLast? hy)
    obtain ⟨r, hr, hle⟩ := hfits.1 y hy
    rw [hnew, ← hread y hmem r hr]
    exact hle
  · have hmem : y ∈ u ++ v := List.mem_append_right _ (List.mem_of_head? hy)
    obtain ⟨r, hr, hle⟩ := hfits.2 y hy
    rw [hnew, ← hread y hmem r hr]
    exact hle

/-- Every move but a redistribution keeps the list sorted, if the troves it gives new stakes have no
debt pending. -/
theorem Move.sorted (hm : Move d L label L') (hbooks : L.Consistent d) (hcovered : L.RewardsCovered)
    (h : L.Sorted)
    (hrestake : ∀ b coll, label = .restake b coll → (L.tm.troves b).status = .active →
      (L.tm.rewardSnapshots b).ETH = L.tm.L_ETH →
        (L.tm.rewardSnapshots b).LUSDDebt = L.tm.L_LUSDDebt)
    (hredistribute : ∀ debt, label ≠ .redistribute debt) : L'.Sorted := by
  have hnotMem : ∀ b, b ∉ L.order.erase b := fun b => hbooks.registered.order_nodup.not_mem_erase
  cases hm with
  -- a new trove is put where its ratio fits
  | @openTrove b coll amount fee stake NICR u v hinactive hb0 hmin hratio hpos hstake horder hfits =>
    have hb : b ∉ u ++ v := by
      rw [← horder, hbooks.registered.mem_order]
      exact hinactive
    have hdebt : 0 < amount + fee + LUSD_GAS_COMPENSATION :=
      LUSD_GAS_COMPENSATION_pos.trans_le (Nat.le_add_left _ _)
    exact h.insert hbooks (horder ▸ List.Sublist.refl _) hb hfits
      (fun x hx => entire_register_of_ne hx) entire_register hdebt hratio
  -- the amounts with their rewards are what they were
  | @applyRewards b => exact h.congr (List.Sublist.refl _) fun x _ => entire_applied L.tm b x
  -- taken out and put back; nothing may be pending, because the new stake would change it
  | @adjust b coll debt stake NICR activeETH activeDebt totalSupply balances u v hactive hsettled
      hETHeq hdebteq hsupplyeq hsupplylt hsumeq hgp hsp hmin hratio hpos hstake horder hfits =>
    have hcurrent := Nat.le_antisymm (hcovered.ETH.snapshot_le b) hsettled
    exact h.insert hbooks (horder ▸ List.erase_sublist) (horder ▸ hnotMem b) hfits
      (fun x hx => entire_adjusted_of_ne hx)
      (entire_adjusted hsettled (hrestake b _ rfl hactive hcurrent).ge) (debt_pos_of_minDebt hmin) hratio
  | @redeemPartially b LUSDLot ETHLot stake NICR u v hactive hsettled hLUSDle hETHle hmin hratio hpos
      hstake horder hfits =>
    have hcurrent := Nat.le_antisymm (hcovered.ETH.snapshot_le b) hsettled
    exact h.insert hbooks (horder ▸ List.erase_sublist) (horder ▸ hnotMem b) hfits
      (fun x hx => entire_adjusted_of_ne hx)
      (entire_adjusted hsettled (hrestake b _ rfl hactive hcurrent).ge) (debt_pos_of_minDebt hmin) hratio
  | closeTrove => exact h.unregister hbooks _ _
  | liquidate => exact h.unregister hbooks _ _
  | redeemFully => exact h.unregister hbooks _ _
  | @redistribute debt => exact absurd rfl (hredistribute debt)
  | _ => exact h

end Ledger

/-! ## Redistributions -/

namespace TroveManager

variable {t t' : TroveManager} {a b x : Address} {perETH perDebt : Nat}

/-- What a stake is given when its accumulator grows by `rate`, after rounding. -/
def share (stake accrued rate : Nat) : Nat :=
  stake * (accrued + rate) / DECIMAL_PRECISION - stake * accrued / DECIMAL_PRECISION

def ETHShare (t : TroveManager) (rate : Nat) (b : Address) : Nat :=
  share (t.troves b).stake (t.L_ETH - (t.rewardSnapshots b).ETH) rate

def LUSDDebtShare (t : TroveManager) (rate : Nat) (b : Address) : Nat :=
  share (t.troves b).stake (t.L_LUSDDebt - (t.rewardSnapshots b).LUSDDebt) rate

theorem add_share (stake accrued rate : Nat) : stake * accrued / DECIMAL_PRECISION +
    share stake accrued rate = stake * (accrued + rate) / DECIMAL_PRECISION := by
  refine Nat.add_sub_cancel' (Nat.div_le_div_right (Nat.mul_le_mul_left _ (Nat.le_add_right _ _)))

/-- A share is less than one unit away from what the stake is due. -/
theorem share_bounds (stake accrued rate : Nat) :
    share stake accrued rate * DECIMAL_PRECISION ≤ stake * rate + DECIMAL_PRECISION ∧
      stake * rate ≤ share stake accrued rate * DECIMAL_PRECISION + DECIMAL_PRECISION := by
  have hpos : 0 < DECIMAL_PRECISION := by decide
  -- both quotients lie within one unit of the exact values
  have hsum := add_share stake accrued rate
  have hlow := Nat.div_mul_le_self (stake * accrued) DECIMAL_PRECISION
  have hhigh := Nat.lt_div_mul_add (a := stake * accrued) hpos
  have hlow' := Nat.div_mul_le_self (stake * (accrued + rate)) DECIMAL_PRECISION
  have hhigh' := Nat.lt_div_mul_add (a := stake * (accrued + rate)) hpos
  rw [← hsum, Nat.add_mul] at hlow' hhigh'
  rw [Nat.mul_add] at hlow' hhigh'
  omega

/-- The shares of `a`, which is ahead, are no worse in proportion to its collateral than those of
`b`. -/
structure SharesEven (t : TroveManager) (perETH perDebt : Nat) (a b : Address) : Prop where
  ratio : t.entireColl b * t.entireDebt a ≤ t.entireColl a * t.entireDebt b
  ETH : t.ETHShare perETH b * t.entireColl a ≤ t.ETHShare perETH a * t.entireColl b
  LUSDDebt : t.LUSDDebtShare perDebt a * t.entireColl b ≤ t.LUSDDebtShare perDebt b * t.entireColl a

/-- What the stakes are due leaves the ratios of `a` and `b` in order, even when every share is
rounded by a whole unit to the disadvantage of `a`. -/
def RatiosApart (t : TroveManager) (perETH perDebt : Nat) (a b : Address) : Prop :=
  (t.entireColl b * DECIMAL_PRECISION + (t.troves b).stake * perETH + DECIMAL_PRECISION) *
      (t.entireDebt a * DECIMAL_PRECISION + (t.troves a).stake * perDebt + DECIMAL_PRECISION) ≤
    (t.entireColl a * DECIMAL_PRECISION + (t.troves a).stake * perETH - DECIMAL_PRECISION) *
      (t.entireDebt b * DECIMAL_PRECISION + (t.troves b).stake * perDebt - DECIMAL_PRECISION)

/-- A redistribution at these rates cannot put `b` before `a`. -/
def KeepsPair (t : TroveManager) (perETH perDebt : Nat) (a b : Address) : Prop :=
  t.SharesEven perETH perDebt a b ∨ t.RatiosApart perETH perDebt a b

instance (t : TroveManager) (perETH perDebt : Nat) (a b : Address) :
    Decidable (t.SharesEven perETH perDebt a b) :=
  decidable_of_iff (_ ∧ _ ∧ _) ⟨fun h => ⟨h.1, h.2.1, h.2.2⟩, fun h => ⟨h.ratio, h.ETH, h.LUSDDebt⟩⟩

instance (t : TroveManager) (perETH perDebt : Nat) (a b : Address) :
    Decidable (t.KeepsPair perETH perDebt a b) :=
  inferInstanceAs (Decidable (_ ∨ _ ≤ _))

theorem SharesEven.cross (h : t.SharesEven perETH perDebt a b) (ha : 0 < t.entireColl a)
    (hb : 0 < t.entireColl b) :
    (t.entireColl b + t.ETHShare perETH b) * (t.entireDebt a + t.LUSDDebtShare perDebt a) ≤
      (t.entireColl a + t.ETHShare perETH a) * (t.entireDebt b + t.LUSDDebtShare perDebt b) := by
  obtain ⟨hratio, hETH, hdebt⟩ := h
  generalize t.entireColl a = A at *
  generalize t.entireColl b = B at *
  generalize t.ETHShare perETH a = e at *
  generalize t.ETHShare perETH b = e' at *
  generalize t.LUSDDebtShare perDebt a = δ at *
  generalize t.LUSDDebtShare perDebt b = δ' at *
  -- cross-multiply with the collateral of both, which the condition is in proportion to
  have hcoll : (B + e') * A ≤ (A + e) * B := by
    rw [Nat.add_mul, Nat.add_mul, Nat.mul_comm B A]
    exact Nat.add_le_add_left hETH _
  have hdebts : (t.entireDebt a + δ) * B ≤ (t.entireDebt b + δ') * A := by
    rw [Nat.add_mul, Nat.add_mul, Nat.mul_comm (t.entireDebt a), Nat.mul_comm (t.entireDebt b)]
    exact Nat.add_le_add hratio hdebt
  refine Nat.le_of_mul_le_mul_right ?_ (Nat.mul_pos ha hb)
  calc (B + e') * (t.entireDebt a + δ) * (A * B)
      = (B + e') * A * ((t.entireDebt a + δ) * B) := by ring
    _ ≤ (A + e) * B * ((t.entireDebt b + δ') * A) := Nat.mul_le_mul hcoll hdebts
    _ = (A + e) * (t.entireDebt b + δ') * (A * B) := by ring

theorem RatiosApart.cross (h : t.RatiosApart perETH perDebt a b) :
    (t.entireColl b + t.ETHShare perETH b) * (t.entireDebt a + t.LUSDDebtShare perDebt a) ≤
      (t.entireColl a + t.ETHShare perETH a) * (t.entireDebt b + t.LUSDDebtShare perDebt b) := by
  -- scaled up, every share is within one unit of what the stake is due
  have hcollb := (share_bounds (t.troves b).stake (t.L_ETH - (t.rewardSnapshots b).ETH) perETH).1
  have hdebta := (share_bounds (t.troves a).stake (t.L_LUSDDebt - (t.rewardSnapshots a).LUSDDebt)
    perDebt).1
  have hcolla := (share_bounds (t.troves a).stake (t.L_ETH - (t.rewardSnapshots a).ETH) perETH).2
  have hdebtb := (share_bounds (t.troves b).stake (t.L_LUSDDebt - (t.rewardSnapshots b).LUSDDebt)
    perDebt).2
  refine Nat.le_of_mul_le_mul_right ?_ (by decide : 0 < DECIMAL_PRECISION * DECIMAL_PRECISION)
  calc (t.entireColl b + t.ETHShare perETH b) * (t.entireDebt a + t.LUSDDebtShare perDebt a) *
        (DECIMAL_PRECISION * DECIMAL_PRECISION)
      = (t.entireColl b + t.ETHShare perETH b) * DECIMAL_PRECISION *
          ((t.entireDebt a + t.LUSDDebtShare perDebt a) * DECIMAL_PRECISION) := by ring
    _ ≤ (t.entireColl b * DECIMAL_PRECISION + (t.troves b).stake * perETH + DECIMAL_PRECISION) *
          (t.entireDebt a * DECIMAL_PRECISION + (t.troves a).stake * perDebt + DECIMAL_PRECISION) := by
        refine Nat.mul_le_mul ?_ ?_
        · rw [Nat.add_mul, Nat.add_assoc]
          exact Nat.add_le_add_left hcollb _
        · rw [Nat.add_mul, Nat.add_assoc]
          exact Nat.add_le_add_left hdebta _
    _ ≤ (t.entireColl a * DECIMAL_PRECISION + (t.troves a).stake * perETH - DECIMAL_PRECISION) *
          (t.entireDebt b * DECIMAL_PRECISION + (t.troves b).stake * perDebt - DECIMAL_PRECISION) := h
    _ ≤ (t.entireColl a + t.ETHShare perETH a) * DECIMAL_PRECISION *
          ((t.entireDebt b + t.LUSDDebtShare perDebt b) * DECIMAL_PRECISION) := by
        refine Nat.mul_le_mul ?_ ?_
        · rw [Nat.add_mul, Nat.sub_le_iff_le_add, Nat.add_assoc]
          exact Nat.add_le_add_left hcolla _
        · rw [Nat.add_mul, Nat.sub_le_iff_le_add, Nat.add_assoc]
          exact Nat.add_le_add_left hdebtb _
    _ = (t.entireColl a + t.ETHShare perETH a) * (t.entireDebt b + t.LUSDDebtShare perDebt b) *
          (DECIMAL_PRECISION * DECIMAL_PRECISION) := by ring

theorem KeepsPair.cross (h : t.KeepsPair perETH perDebt a b) (ha : 0 < t.entireColl a)
    (hb : 0 < t.entireColl b) :
    (t.entireColl b + t.ETHShare perETH b) * (t.entireDebt a + t.LUSDDebtShare perDebt a) ≤
      (t.entireColl a + t.ETHShare perETH a) * (t.entireDebt b + t.LUSDDebtShare perDebt b) := by
  rcases h with heven | hapart
  · exact heven.cross ha hb
  · exact hapart.cross

/-- The amounts of a trove after the accumulators have grown. -/
theorem entire_redistributed (htroves : t'.troves = t.troves)
    (hsnapshots : t'.rewardSnapshots = t.rewardSnapshots) (hE : t'.L_ETH = t.L_ETH + perETH)
    (hD : t'.L_LUSDDebt = t.L_LUSDDebt + perDebt) (hleE : (t.rewardSnapshots x).ETH ≤ t.L_ETH)
    (hleD : (t.rewardSnapshots x).LUSDDebt ≤ t.L_LUSDDebt) :
    t'.entireColl x = t.entireColl x + t.ETHShare perETH x ∧
      t'.entireDebt x = t.entireDebt x + t.LUSDDebtShare perDebt x := by
  constructor
  · rw [entireColl, entireColl, Nat.add_assoc, pendingETH, pendingETH, ETHShare, add_share, htroves,
      hsnapshots, hE, Nat.sub_add_comm hleE]
  · rw [entireDebt, entireDebt, Nat.add_assoc, pendingLUSDDebt, pendingLUSDDebt, LUSDDebtShare,
      add_share, htroves, hsnapshots, hD, Nat.sub_add_comm hleD]

end TroveManager

/-! ## Transactions -/

/-- Where a liquidation has something to redistribute, it cannot put any of the remaining troves
before one that is ahead of it. -/
def TroveManager.LoopState.KeepsPairs (l : LoopState) : Prop :=
  l.totals.totalDebtToRedistribute ≠ 0 →
    l.system.sortedTroves.toList.Pairwise (l.system.troveManager.KeepsPair
      (rewardRate l.totals.totalCollToRedistribute l.system.troveManager.lastETHError_Redistribution
        l.system.troveManager.totalStakes)
      (rewardRate l.totals.totalDebtToRedistribute
        l.system.troveManager.lastLUSDDebtError_Redistribution l.system.troveManager.totalStakes))

instance (l : LoopState) : Decidable l.KeepsPairs := inferInstanceAs (Decidable (_ → List.Pairwise _ _))

instance (d : Deployment) (env : Env) (call : Call) (s : System) (p : LoopState → Prop)
    [DecidablePred p] : Decidable (∀ l, call.tally d env s = some (.ok l) → p l) :=
  match call.tally d env s with
  | some (.ok l) => decidable_of_iff (p l) ⟨fun hl l' heq => by cases heq; exact hl, fun hall => hall l rfl⟩
  | some (.error _) => .isTrue nofun
  | none => .isTrue nofun

/-- The troves that a transaction gives new stakes have no debt pending alone, and its liquidations
redistribute in a way that cannot change the order. -/
def KeepsOrder (d : Deployment) (s : System) (t : Transaction) : Prop :=
  RestakesSettled s t ∧
    ∀ l, t.call.tally d t.env { s with timestamp := t.env.timestamp } = some (.ok l) → l.KeepsPairs

/-- What the loop of a liquidation leaves is sorted: it makes plain moves only. -/
theorem Tally.sorted (hd : d.Wired) (hs : Sound d s .none) {LUSDInStabPool : Nat} {l : LoopState}
    (htally : Tally d PlainOnly s LUSDInStabPool l) (hcovered : (s.ledger .none).RewardsCovered)
    (h : (s.ledger .none).Sorted) :
    (l.system.ledger l.totals.inFlight).RewardsCovered ∧
      (l.system.ledger l.totals.inFlight).Sorted := by
  refine htally.evolves.run.invariant hd (fun L => L.RewardsCovered ∧ L.Sorted) ?_ hs.books
    ⟨hcovered, h⟩
  rintro L label L' hbooks ⟨hcovered, hL⟩ rfl hm
  exact ⟨hm.rewardsCovered hbooks hcovered nofun, hm.sorted hbooks hcovered hL nofun nofun⟩

/-- A liquidation keeps the list sorted. -/
theorem Step.sorted_of_tally (hd : d.Wired) (hr : Reachable d s)
    (hcovered : (s.ledger .none).RewardsCovered) (h : (s.ledger .none).Sorted) {t : Transaction}
    {l : LoopState} (hl : t.call.tally d t.env { s with timestamp := t.env.timestamp } = some (.ok l))
    (hpairs : l.KeepsPairs) (hstep : Step d s t s') : (s'.ledger .none).Sorted := by
  obtain ⟨htally, hsettles, -⟩ := Step.settled hd hr hstep hl
  obtain ⟨l', hl', hsettle⟩ := hstep.tallied hd hl
  cases hl'
  have hredistributes := settleLiquidation_redistributes hd hstep.1.external hsettle
  have hs₀ : Sound d { s with timestamp := t.env.timestamp } .none := { hr.sound hd with }
  obtain ⟨hcovered, hsorted⟩ := htally.sorted hd hs₀ hcovered h
  have hbooks := htally.evolves.run.consistent hd hs₀.books
  have horder : (s'.ledger .none).order = (l.system.ledger l.totals.inFlight).order := by
    change s'.sortedTroves.toList = l.system.sortedTroves.toList
    rw [hsettles.sortedTroves]
  -- the loop is plain moves; what is left is the redistribution that settles it
  by_cases hzero : l.totals.totalDebtToRedistribute = 0
  · -- nothing is redistributed
    obtain ⟨hE, hD⟩ := hredistributes.none hzero
    refine hsorted.congr (horder ▸ List.Sublist.refl _) fun x _ => ?_
    refine SameTrove.entire_eq ⟨?_, ?_, ?_, ?_⟩ hE hD
    · exact congrArg (fun troves : Address → Trove => (troves x).coll) hsettles.troves
    · exact congrArg (fun troves : Address → Trove => (troves x).debt) hsettles.troves
    · exact congrArg (fun troves : Address → Trove => (troves x).stake) hsettles.troves
    · exact congrFun hsettles.rewardSnapshots x
  · obtain ⟨hE, hD⟩ := hredistributes.some hzero
    have hentire : ∀ x, (s'.ledger .none).tm.entireColl x = l.system.troveManager.entireColl x + _ ∧
        (s'.ledger .none).tm.entireDebt x = l.system.troveManager.entireDebt x + _ := fun x =>
      entire_redistributed (t := l.system.troveManager) (x := x) hsettles.troves hsettles.rewardSnapshots
        hE hD (hcovered.ETH.snapshot_le x) (hcovered.LUSDDebt.snapshot_le x)
    unfold Ledger.Sorted
    rw [horder]
    refine (hpairs hzero).imp_of_mem fun {a b} ha hb hab => ?_
    have hactive := hbooks.registered.mem_order
    have hcoll : ∀ x, (l.system.troveManager.troves x).status = .active →
        0 < l.system.troveManager.entireColl x := fun x hx =>
      (hbooks.coll_pos x hx).trans_le (Nat.le_add_right _ _)
    have hdebt : ∀ x, (l.system.troveManager.troves x).status = .active →
        0 < l.system.troveManager.entireDebt x := fun x hx => hbooks.entireDebt_pos hx
    have hacta := (hactive a).mp ha
    have hactb := (hactive b).mp hb
    -- the condition gives the order of the exact ratios, rounding keeps it
    have hcross := hab.cross (hcoll a hacta) (hcoll b hactb)
    unfold nominalICR
    rw [(hentire a).1, (hentire a).2, (hentire b).1, (hentire b).2]
    refine div_le_div_of_cross ((hdebt b hactb).trans_le (Nat.le_add_right _ _))
      ((hdebt a hacta).trans_le (Nat.le_add_right _ _)) ?_
    rw [Nat.mul_right_comm, Nat.mul_right_comm (_ + _) NICR_PRECISION]
    exact Nat.mul_le_mul_right _ hcross

/-- A transaction that liquidates nothing keeps the list sorted. -/
theorem Step.sorted_of_not_tally (hd : d.Wired) (hr : Reachable d s)
    (hcovered : (s.ledger .none).RewardsCovered) (h : (s.ledger .none).Sorted) {t : Transaction}
    (hl : ∀ l, t.call.tally d t.env { s with timestamp := t.env.timestamp } ≠ some (.ok l))
    (hsettled : RestakesSettled s t) (hstep : Step d s t s') : (s'.ledger .none).Sorted := by
  have hs := hr.sound hd
  refine ((step_evolves hd hs hstep).run.invariant hd (fun L => L.RewardsCovered ∧ L.Sorted) ?_
    hs.books ⟨hcovered, h⟩).2
  rintro L label L' hbooks ⟨hcovered, hL⟩ hallow hm
  have hrestake := RestakesSettled.restake hsettled hallow
  refine ⟨hm.rewardsCovered hbooks hcovered hrestake, hm.sorted hbooks hcovered hL hrestake ?_⟩
  rintro debt rfl
  obtain ⟨totals, ⟨l, htally, -⟩, -⟩ := hallow
  exact hl l htally

theorem Step.sorted (hd : d.Wired) (hr : Reachable d s) (hcovered : (s.ledger .none).RewardsCovered)
    (h : (s.ledger .none).Sorted) {t : Transaction} (hcond : KeepsOrder d s t)
    (hstep : Step d s t s') : (s'.ledger .none).Sorted := by
  by_cases hl : ∃ l, t.call.tally d t.env { s with timestamp := t.env.timestamp } = some (.ok l)
  · obtain ⟨l, hl⟩ := hl
    exact hstep.sorted_of_tally hd hr hcovered h hl (hcond.2 l hl)
  · exact hstep.sorted_of_not_tally hd hr hcovered h (not_exists.mp hl) hcond.1

theorem reachable_sorted (hd : d.Wired) (h : ReachableWhen d (KeepsOrder d) s) :
    (s.ledger .none).Sorted := by
  refine Lib.Reachable.invariant (fun s => (s.ledger .none).Sorted) ?_ ?_ h
  · intro s hinit
    have horder : (s.ledger .none).order = [] := by
      obtain ⟨ether, timestamp, -, rfl⟩ := hinit
      exact (SortedTroves.isList_initial d.maxSize).toList_eq
    unfold Ledger.Sorted
    rw [horder]
    exact List.Pairwise.nil
  · intro s t s' hr hs hcond hstep
    have hcovered := reachable_rewardsCovered hd (Lib.Reachable.mono (fun _ _ hcond => hcond.1) hr)
    exact hstep.sorted hd (ReachableWhen.reachable hr) hcovered hs hcond

/-- From head to tail, no trove has a higher nominal ratio than one ahead of it. -/
theorem reachable_list_sorted (hd : d.Wired) (h : ReachableWhen d (KeepsOrder d) s) :
    s.sortedTroves.toList.Pairwise fun a b => ∀ NICR NICR',
      s.troveManager.getNominalICR a = .ok NICR → s.troveManager.getNominalICR b = .ok NICR' →
        NICR' ≤ NICR := by
  have hbooks := (h.reachable.sound hd).books
  refine (reachable_sorted hd h).imp_of_mem fun {a b} ha hb hab NICR NICR' hNICR hNICR' => ?_
  have hacta := (hbooks.registered.mem_order a).mp ha
  have hactb := (hbooks.registered.mem_order b).mp hb
  rw [getNominalICR_eq hacta (hbooks.entireDebt_pos hacta) hNICR,
    getNominalICR_eq hactb (hbooks.entireDebt_pos hactb) hNICR']
  exact hab

/-- A liquidation that two troves share. -/
def sampleShared : List Transaction :=
  sampleOpenings ++ [⟨⟨103, 5 * 10 ^ 18, 0, 2000 * 10 ^ 18⟩, .openTrove (10 ^ 18) (1000 * 10 ^ 18) 0 0⟩,
    ⟨⟨101, 0, 0, 1800 * 10 ^ 18⟩, .liquidate 102⟩]

/-- A run of calls that give no trove a new stake, each of which keeps the order. -/
theorem exists_keepsOrder (transactions : List Transaction) (p : System → Prop) [DecidablePred p]
    (h : (run sampleDeployment (fun s t => t.call.keepsStakes = true ∧
      ∀ l, t.call.tally sampleDeployment t.env { s with timestamp := t.env.timestamp } =
        some (.ok l) → l.KeepsPairs) transactions sampleInitial).any (fun s => decide (p s)) = true) :
    ∃ s, ReachableWhen sampleDeployment (KeepsOrder sampleDeployment) s ∧ p s := by
  obtain ⟨s, hs, hp⟩ := exists_reachable _ transactions p h
  exact ⟨s, Lib.Reachable.mono (fun _ _ hcond => ⟨Call.keepsStakes.restakesSettled hcond.1, hcond.2⟩) hs, hp⟩

theorem sampleShared_sorted : ∃ s, ReachableWhen sampleDeployment (KeepsOrder sampleDeployment) s ∧
    s.sortedTroves.toList = [103, 101] ∧
    s.troveManager.getNominalICR 103 = .ok 387792143212332173 ∧
    s.troveManager.getNominalICR 101 = .ok 282107167081166628 ∧
    282107167081166628 ≤ 387792143212332173 := by
  obtain ⟨s, hs, hlist, h₁, h₂⟩ := exists_keepsOrder sampleShared
    (fun s => s.sortedTroves.toList = [103, 101] ∧
      s.troveManager.getNominalICR 103 = .ok 387792143212332173 ∧
      s.troveManager.getNominalICR 101 = .ok 282107167081166628) (by decide +kernel)
  have hsorted := reachable_list_sorted sampleDeployment_wired hs
  rw [hlist] at hsorted
  exact ⟨s, hs, hlist, h₁, h₂, (List.pairwise_pair.mp hsorted) _ _ h₁ h₂⟩

/-- Two troves with almost the same ratio share a redistribution, and the one ahead loses more by
rounding. -/
theorem list_not_sorted :
    ¬ ∀ (d : Deployment) (s : System), d.Wired → Reachable d s →
      s.sortedTroves.toList.Pairwise fun a b => ∀ NICR NICR',
        s.troveManager.getNominalICR a = .ok NICR → s.troveManager.getNominalICR b = .ok NICR' →
          NICR' ≤ NICR := by
  intro hall
  obtain ⟨s, hs, hlist, h₁, h₂⟩ := exists_reachable (fun _ _ => True)
    [⟨⟨101, 2 * 10 ^ 16, 0, 2000 * 10 ^ 18⟩, .openTrove (10 ^ 18) (11 * 10 ^ 18) 0 0⟩,
      ⟨⟨103, 10 ^ 16 + 20, 0, 2000 * 10 ^ 18⟩, .openTrove (10 ^ 18) 5251243781094539000 0 0⟩,
      ⟨⟨102, 10 ^ 16, 0, 2000 * 10 ^ 18⟩, .openTrove (10 ^ 18) (8 * 10 ^ 18) 0 0⟩,
      ⟨⟨101, 0, 0, 900 * 10 ^ 18⟩, .liquidate 102⟩]
    (fun s => s.sortedTroves.toList = [101, 103] ∧
      s.troveManager.getNominalICR 101 = .ok 154411054208136054 ∧
      s.troveManager.getNominalICR 103 = .ok 154411054208136056) (by decide +kernel)
  have hsorted := hall sampleDeployment s sampleDeployment_wired hs
  rw [hlist] at hsorted
  exact absurd ((List.pairwise_pair.mp hsorted) _ _ h₁ h₂) (by decide)

/-! ## The last trove -/

/-- Of the troves with the nominal ratio of the last one, none has a lower exact ratio. -/
def System.TailLowest (s : System) : Prop :=
  ∀ b ∈ s.sortedTroves.toList,
    s.troveManager.nominalICR b = s.troveManager.nominalICR s.sortedTroves.getLast →
      s.troveManager.entireColl s.sortedTroves.getLast * s.troveManager.entireDebt b ≤
        s.troveManager.entireColl b * s.troveManager.entireDebt s.sortedTroves.getLast

instance (s : System) : Decidable s.TailLowest := List.decidableBAll _ _

/-- In a sorted list, the last entry has the lowest nominal ratio. -/
theorem nominalICR_getLast_le (hs : Sound d s .none) (hsorted : (s.ledger .none).Sorted) {b : Address}
    (hb : b ∈ s.sortedTroves.toList) :
    s.sortedTroves.getLast ∈ s.sortedTroves.toList ∧
      s.troveManager.nominalICR s.sortedTroves.getLast ≤ s.troveManager.nominalICR b := by
  have htail : s.sortedTroves.getLast = s.sortedTroves.toList.getLastD 0 := hs.list.tail_eq
  have hpairs : s.sortedTroves.toList.Pairwise fun a b =>
      s.troveManager.nominalICR b ≤ s.troveManager.nominalICR a := hsorted
  rw [htail]
  rcases List.eq_nil_or_concat' s.sortedTroves.toList with hnil | ⟨w, y, hw⟩
  · rw [hnil] at hb
    simp at hb
  · rw [hw] at hb hpairs ⊢
    have hlast : (w ++ [y]).getLastD 0 = y := by simp
    rw [hlast]
    refine ⟨by simp, ?_⟩
    rcases List.mem_append.mp hb with hbw | hby
    · exact (List.pairwise_append.mp hpairs).2.2 b hbw y (by simp)
    · rw [List.mem_singleton.mp hby]

/-- The ratio of the last trove bounds all others, up to ties. -/
theorem tail_cross (hs : Sound d s .none) (hsorted : (s.ledger .none).Sorted) (hties : s.TailLowest)
    {b : Address} (hb : b ∈ s.sortedTroves.toList) :
    s.troveManager.entireColl s.sortedTroves.getLast * s.troveManager.entireDebt b ≤
      s.troveManager.entireColl b * s.troveManager.entireDebt s.sortedTroves.getLast := by
  obtain ⟨hmem, hle⟩ := nominalICR_getLast_le hs hsorted hb
  have hactive := (hs.books.registered.mem_order _).mp hmem
  -- a lower rounded ratio comes from a lower exact one; in a tie the hypothesis decides
  rcases hle.lt_or_eq with hlt | heq
  · have hcross := cross_of_div_lt_div (hs.books.entireDebt_pos hactive) hlt
    rw [Nat.mul_right_comm, Nat.mul_right_comm _ NICR_PRECISION] at hcross
    exact Nat.le_of_mul_le_mul_right hcross (by decide)
  · exact hties b hb heq.symm

/-- If the last trove has the minimum ratio at some price, so has every open trove. -/
theorem reachable_tail_MCR (hd : d.Wired) (h : ReachableWhen d (KeepsOrder d) s)
    (hties : s.TailLowest) :
    ∀ price ICR, 0 < price →
      s.troveManager.getCurrentICR s.sortedTroves.getLast price = .ok ICR → MCR ≤ ICR →
      ∀ b, (s.troveManager.troves b).status = .active → ∀ ICR',
        s.troveManager.getCurrentICR b price = .ok ICR' → MCR ≤ ICR' := by
  intro price ICR _ hICR hMCR b hb ICR' hICR'
  have hs := h.reachable.sound hd
  have hsorted := reachable_sorted hd h
  have hmem := (hs.books.registered.mem_order b).mpr hb
  have hlast := (hs.books.registered.mem_order _).mp (nominalICR_getLast_le hs hsorted hmem).1
  have hdebt := hs.books.entireDebt_pos hb
  have hdebt' := hs.books.entireDebt_pos hlast
  rw [getCurrentICR_eq hlast hdebt' hICR] at hMCR
  rw [getCurrentICR_eq hb hdebt hICR']
  refine hMCR.trans (div_le_div_of_cross hdebt' hdebt ?_)
  rw [Nat.mul_right_comm, Nat.mul_right_comm _ price]
  exact Nat.mul_le_mul_right _ (tail_cross hs hsorted hties hmem)

theorem sampleShared_tail : ∃ s, ReachableWhen sampleDeployment (KeepsOrder sampleDeployment) s ∧
    s.TailLowest ∧ s.sortedTroves.getLast = 101 ∧
    (∀ ICR, s.troveManager.getCurrentICR 103 (500 * 10 ^ 18) = .ok ICR → MCR ≤ ICR) := by
  obtain ⟨s, hs, hties, hlast, hICR, hactive⟩ := exists_keepsOrder sampleShared
    (fun s => s.TailLowest ∧ s.sortedTroves.getLast = 101 ∧
      s.troveManager.getCurrentICR 101 (500 * 10 ^ 18) = .ok 1410535835405833144 ∧
      (s.troveManager.troves 103).status = .active) (by decide +kernel)
  refine ⟨s, hs, hties, hlast, ?_⟩
  exact reachable_tail_MCR sampleDeployment_wired hs hties (500 * 10 ^ 18) _ (by decide)
    (hlast.symm ▸ hICR) (by decide) 103 hactive

/-- Two troves with equal nominal ratios, of which the one with a unit more debt is ahead: at a
price of 635.525 the last trove has exactly the minimum ratio and the other one less. -/
theorem tail_above_MCR :
    ¬ ∀ (d : Deployment) (s : System), d.Wired → Reachable d s → ∀ price ICR, 0 < price →
      s.troveManager.getCurrentICR s.sortedTroves.getLast price = .ok ICR → MCR ≤ ICR →
      ∀ b, (s.troveManager.troves b).status = .active → ∀ ICR',
        s.troveManager.getCurrentICR b price = .ok ICR' → MCR ≤ ICR' := by
  intro hall
  obtain ⟨s, hs, h₁, h₂, hactive⟩ := exists_reachable (fun _ _ => True)
    [⟨⟨101, 2 * 10 ^ 16, 0, 2000 * 10 ^ 18⟩, .openTrove (10 ^ 18) (11 * 10 ^ 18) 0 0⟩,
      ⟨⟨102, 2 * 10 ^ 16, 0, 2000 * 10 ^ 18⟩, .openTrove (10 ^ 18) (11 * 10 ^ 18 + 1) 0 0⟩]
    (fun s => s.troveManager.getCurrentICR s.sortedTroves.getLast (635525 * 10 ^ 15) =
        .ok (11 * 10 ^ 17) ∧
      s.troveManager.getCurrentICR 102 (635525 * 10 ^ 15) = .ok 1099999999999999999 ∧
      (s.troveManager.troves 102).status = .active) (by decide +kernel)
  have hMCR := hall sampleDeployment s sampleDeployment_wired hs (635525 * 10 ^ 15) _ (by decide) h₁
    (by decide) 102 hactive _ h₂
  exact absurd hMCR (by decide)

end Liquity
