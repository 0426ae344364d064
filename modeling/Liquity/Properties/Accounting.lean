import Liquity.Soundness

/-!
# Accounting

What holds of the books in every reachable state: LUSD in circulation is debt, the Active Pool is
exactly the stored troves, the registry of troves is consistent, and every trove has its minimum debt
and its gas reserve.
-/

open Lib

namespace Liquity

open SafeMath LiquityBase TroveManager

variable {d : Deployment} {s : System}

/-! ## Sums over the active troves -/

def TroveManager.activeTroves (t : TroveManager) : Finset Address :=
  Finset.univ.filter fun b => (t.troves b).status = .active

namespace TroveManager

variable {t : TroveManager} {order : List Address}

/-- Closed troves hold nothing, so they do not count. -/
theorem sum_activeTroves {g : Trove → Nat} (h : t.Registered order)
    (hg : ∀ trove, trove.coll = 0 ∧ trove.debt = 0 ∧ trove.stake = 0 → g trove = 0) :
    ∑ b ∈ t.activeTroves, g (t.troves b) = ∑ b, g (t.troves b) := by
  refine Finset.sum_subset (Finset.subset_univ _) fun b _ hb => hg _ (h.inactive b ?_)
  simpa [activeTroves] using hb

theorem card_activeTroves (h : t.Registered order) : t.activeTroves.card = order.length := by
  have heq : t.activeTroves = order.toFinset := by
    ext b
    simp [activeTroves, h.mem_order]
  rw [heq, List.toFinset_card_of_nodup h.order_nodup]

end TroveManager

/-! ## Supply and debt -/

/-- LUSD in circulation is the debt of the system and is held by the accounts, so the redeemer's
balance never exceeds the system debt that a redemption computes. -/
theorem reachable_supply_eq_debt (hd : d.Wired) (h : Reachable d s) :
    s.lusdToken.totalSupply = s.activePool.LUSDDebt + s.defaultPool.LUSDDebt ∧
      ∑ a, s.lusdToken.balances a = s.lusdToken.totalSupply ∧
      ∃ totalLUSDSupplyAtStart, s.getEntireSystemDebt = .ok totalLUSDSupplyAtStart ∧
        ∀ redeemer, assertThat (s.lusdToken.balances redeemer ≤ totalLUSDSupplyAtStart) = .ok () := by
  have hbooks := (h.sound hd).books
  have hsupply : s.lusdToken.totalSupply = s.activePool.LUSDDebt + s.defaultPool.LUSDDebt :=
    hbooks.supply
  have hlt : s.lusdToken.totalSupply < 2 ^ 256 := hbooks.supply_lt
  refine ⟨hsupply, hbooks.sum_balances, s.lusdToken.totalSupply, ?_, fun redeemer => ?_⟩
  · rw [hsupply] at hlt ⊢
    exact add_ok.mpr ⟨hlt, rfl⟩
  · exact assertThat_ok.mpr (hbooks.balance_le redeemer)

theorem sampleOpenings_supply : ∃ s, Reachable sampleDeployment s ∧
    s.lusdToken.totalSupply = 4021 * 10 ^ 18 ∧
    s.lusdToken.totalSupply = s.activePool.LUSDDebt + s.defaultPool.LUSDDebt := by
  obtain ⟨s, hs, hp⟩ := exists_reachable (fun _ _ => True) sampleOpenings
    (fun s => s.lusdToken.totalSupply = 4021 * 10 ^ 18) (by decide +kernel)
  exact ⟨s, hs, hp, (reachable_supply_eq_debt sampleDeployment_wired hs).1⟩

/-! ## The Active Pool -/

/-- The values of a liquidation split the entire collateral and debt of the trove exactly. -/
structure LiquidationValues.SplitsTrove (v : LiquidationValues) (t : TroveManager) (b : Address) :
    Prop where
  entire : ∃ entire, t.getEntireDebtAndColl b = .ok entire ∧ v.entireTroveColl = entire.coll ∧
    v.entireTroveDebt = entire.debt
  coll : v.entireTroveColl =
    v.collGasCompensation + v.collToSendToSP + v.collToRedistribute + v.collSurplus
  debt : v.entireTroveDebt = v.debtToOffset + v.debtToRedistribute

theorem fullLiquidationValues_splitsTrove {t : TroveManager} {b : Address}
    {entire : EntireDebtAndColl} {vals : OffsetAndRedistribution}
    (hentire : t.getEntireDebtAndColl b = .ok entire)
    (hgas : getCollGasCompensation entire.coll ≤ entire.coll)
    (hcoll : vals.collToSendToSP + vals.collToRedistribute =
      entire.coll - getCollGasCompensation entire.coll)
    (hdebt : vals.debtToOffset + vals.debtToRedistribute = entire.debt) :
    (fullLiquidationValues entire vals).SplitsTrove t b := by
  refine ⟨⟨entire, hentire, rfl, rfl⟩, ?_, hdebt.symm⟩
  simp only [fullLiquidationValues]
  omega

theorem getOffsetAndRedistributionVals_sum {debt coll LUSDInStabPool : Nat}
    {vals : OffsetAndRedistribution}
    (h : getOffsetAndRedistributionVals debt coll LUSDInStabPool = .ok vals) :
    vals.collToSendToSP + vals.collToRedistribute = coll ∧
      vals.debtToOffset + vals.debtToRedistribute = debt := by
  unfold getOffsetAndRedistributionVals at h
  split at h
  · simp only [bind_ok, pure_ok, sub_ok] at h
    obtain ⟨_, -, toSP, -, _, ⟨hdebt, rfl⟩, _, ⟨hcoll, rfl⟩, rfl⟩ := h
    exact ⟨Nat.add_sub_cancel' hcoll, Nat.add_sub_cancel' hdebt⟩
  · cases h
    exact ⟨Nat.zero_add _, Nat.zero_add _⟩

theorem liquidateNormalMode_splitsTrove {b : Address} {LUSDInStabPool : Nat}
    {r : LiquidationValues × System} (h : liquidateNormalMode d b LUSDInStabPool s = .ok r) :
    r.1.SplitsTrove s.troveManager b := by
  simp only [liquidateNormalMode, bind_ok, pure_ok, sub_ok] at h
  obtain ⟨entire, hentire, _, ⟨hgas, rfl⟩, vals, hvals, s₁, -, rfl⟩ := h
  obtain ⟨hcoll, hdebt⟩ := getOffsetAndRedistributionVals_sum hvals
  exact fullLiquidationValues_splitsTrove hentire hgas hcoll hdebt

/-- In Recovery Mode a trove may also be passed over, with nothing changed. -/
theorem liquidateRecoveryMode_splitsTrove {b : Address} {ICR LUSDInStabPool TCR price : Nat}
    {r : LiquidationValues × System}
    (h : liquidateRecoveryMode d b ICR LUSDInStabPool TCR price s = .ok r) :
    r = (.zero, s) ∨ r.1.SplitsTrove s.troveManager b := by
  unfold liquidateRecoveryMode at h
  split at h
  · cases h
    exact .inl rfl
  simp only [bind_ok, sub_ok] at h
  obtain ⟨entire, hentire, _, ⟨hgas, rfl⟩, h⟩ := h
  split at h
  · simp only [bind_ok, pure_ok] at h
    obtain ⟨s₁, -, rfl⟩ := h
    exact .inr (fullLiquidationValues_splitsTrove hentire hgas (Nat.zero_add _) (Nat.zero_add _))
  split at h
  · simp only [bind_ok, pure_ok] at h
    obtain ⟨vals, hvals, s₁, -, rfl⟩ := h
    obtain ⟨hcoll, hdebt⟩ := getOffsetAndRedistributionVals_sum hvals
    exact .inr (fullLiquidationValues_splitsTrove hentire hgas hcoll hdebt)
  split at h
  · simp only [bind_ok, pure_ok, getCappedOffsetVals, sub_ok] at h
    obtain ⟨-, -, _, ⟨_, -, _, -, _, ⟨hcapped, rfl⟩, _, ⟨hsurplus, rfl⟩, rfl⟩, s₁, -, s₂, -, rfl⟩ := h
    refine .inr ⟨⟨entire, hentire, rfl, rfl⟩, ?_, rfl⟩
    simp only
    omega
  · cases h
    exact .inl rfl

/-- The Active Pool records exactly the stored collateral and debt of the active troves, and every
liquidation, at whatever point of a call it happens, splits its trove exactly. -/
theorem reachable_activePool_eq (hd : d.Wired) (h : Reachable d s) :
    s.activePool.ETH =
        ∑ b ∈ s.troveManager.activeTroves, (s.troveManager.troves b).coll ∧
      s.activePool.LUSDDebt =
        ∑ b ∈ s.troveManager.activeTroves, (s.troveManager.troves b).debt ∧
      (∀ s₁ b LUSDInStabPool r, liquidateNormalMode d b LUSDInStabPool s₁ = .ok r →
        r.1.SplitsTrove s₁.troveManager b) ∧
      ∀ s₁ b ICR LUSDInStabPool TCR price r,
        liquidateRecoveryMode d b ICR LUSDInStabPool TCR price s₁ = .ok r →
          r = (.zero, s₁) ∨ r.1.SplitsTrove s₁.troveManager b := by
  have hs := h.sound hd
  refine ⟨?_, ?_, fun _ _ _ _ => liquidateNormalMode_splitsTrove,
    fun _ _ _ _ _ _ _ => liquidateRecoveryMode_splitsTrove⟩
  · rw [sum_activeTroves hs.registered fun _ hzero => hzero.1]
    exact hs.books.activeETH.trans (Nat.add_zero _)
  · rw [sum_activeTroves hs.registered fun _ hzero => hzero.2.1]
    exact hs.books.activeDebt.trans (Nat.add_zero _)

theorem sampleOpenings_activePool : ∃ s, Reachable sampleDeployment s ∧
    s.activePool.ETH = 106 * 10 ^ 17 ∧
    s.activePool.ETH = ∑ b ∈ s.troveManager.activeTroves, (s.troveManager.troves b).coll := by
  obtain ⟨s, hs, hp⟩ := exists_reachable (fun _ _ => True) sampleOpenings
    (fun s => s.activePool.ETH = 106 * 10 ^ 17) (by decide +kernel)
  exact ⟨s, hs, hp, (reachable_activePool_eq sampleDeployment_wired hs).1⟩

/-! ## The registry -/

/-- Status, list and array of owners agree, and closed troves are empty. -/
theorem reachable_registry (hd : d.Wired) (h : Reachable d s) :
    (∀ b, ((s.troveManager.troves b).status = .active ↔ s.sortedTroves.contains b = true) ∧
      ((s.troveManager.troves b).status = .active ↔ b ∈ s.sortedTroves.toList) ∧
      ((s.troveManager.troves b).status = .active ↔ s.troveManager.troveOwners.count b = 1 ∧
        s.troveManager.troveOwners[(s.troveManager.troves b).arrayIndex]? = some b) ∧
      ((s.troveManager.troves b).status ≠ .active → b ∉ s.troveManager.troveOwners ∧
        (s.troveManager.troves b).coll = 0 ∧ (s.troveManager.troves b).debt = 0 ∧
        (s.troveManager.troves b).stake = 0)) ∧
      s.troveManager.troveOwners.length = s.sortedTroves.getSize ∧
      s.troveManager.totalStakes =
        ∑ b ∈ s.troveManager.activeTroves, (s.troveManager.troves b).stake := by
  have hs := h.sound hd
  have ht := hs.registered
  refine ⟨fun b => ⟨?_, (ht.mem_order b).symm, ?_, fun hb => ⟨?_, ht.inactive b hb⟩⟩, ?_, ?_⟩
  · rw [← ht.mem_order, hs.list.contains_iff]
  · constructor
    · intro hb
      have hmem := (ht.mem_owners b).mpr hb
      exact ⟨List.count_eq_one_of_mem ht.owners_nodup hmem, ht.index b hmem⟩
    · rintro ⟨hcount, -⟩
      exact (ht.mem_owners b).mp (List.count_pos_iff.mp (by omega))
  · exact fun hmem => hb ((ht.mem_owners b).mp hmem)
  · rw [ht.length_owners]
    exact hs.list.size_eq.symm
  · rw [ht.totalStakes_eq, sum_activeTroves ht fun _ hzero => hzero.2.2]

theorem sampleOpenings_registry : ∃ s, Reachable sampleDeployment s ∧
    s.troveManager.troveOwners = [101, 102] ∧
    s.troveManager.troveOwners.length = s.sortedTroves.getSize := by
  obtain ⟨s, hs, hp⟩ := exists_reachable (fun _ _ => True) sampleOpenings
    (fun s => s.troveManager.troveOwners = [101, 102]) (by decide +kernel)
  exact ⟨s, hs, hp, (reachable_registry sampleDeployment_wired hs).2.1⟩

/-! ## Minimum debt and gas reserve -/

/-- Every active trove has the minimum debt and its gas reserve in the gas pool, so net debts can be
computed, and the gas pool can pay or burn the reserves of any number of active troves. -/
theorem reachable_minDebt_gasPool (hd : d.Wired) (h : Reachable d s) :
    (∀ b, (s.troveManager.troves b).status = .active →
        MIN_NET_DEBT + LUSD_GAS_COMPENSATION ≤ (s.troveManager.troves b).debt ∧
        ∃ netDebt, getNetDebt (s.troveManager.troves b).debt = .ok netDebt) ∧
      LUSD_GAS_COMPENSATION * s.troveManager.activeTroves.card ≤ s.lusdToken.balances d.gasPool ∧
      ∀ n ≤ s.troveManager.activeTroves.card,
        (∀ liquidator, liquidator ≠ 0 → ∃ token,
          LUSDToken.returnFromPool d d.troveManager d.gasPool liquidator (LUSD_GAS_COMPENSATION * n)
            s.lusdToken = .ok token) ∧
        (∃ token, LUSDToken.burn d d.borrowerOperations d.gasPool (LUSD_GAS_COMPENSATION * n)
          s.lusdToken = .ok token) ∧
        ∃ token, LUSDToken.burn d d.troveManager d.gasPool (LUSD_GAS_COMPENSATION * n) s.lusdToken =
          .ok token := by
  have hs := h.sound hd
  have hgas : LUSD_GAS_COMPENSATION * s.troveManager.activeTroves.card ≤
      s.lusdToken.balances d.gasPool := by
    rw [card_activeTroves hs.registered]
    exact hs.books.gas
  have hgasPool : d.gasPool ≠ 0 := fun hzero => hd.zero_notMem (by simp [Deployment.contracts, hzero])
  refine ⟨fun b hb => ?_, hgas, fun n hn => ?_⟩
  · have hmin := hs.books.minDebt b hb
    exact ⟨hmin, _, sub_ok.mpr ⟨Ledger.gas_le_of_minDebt hmin, rfl⟩⟩
  · have hle := (Nat.mul_le_mul_left LUSD_GAS_COMPENSATION hn).trans hgas
    have hsupply := hle.trans (hs.books.balance_le d.gasPool)
    have hsum : ∑ x, s.lusdToken.balances x < 2 ^ 256 :=
      hs.books.sum_balances.trans_lt hs.books.supply_lt
    refine ⟨fun liquidator hliquidator => ?_, LUSDToken.burn_of_le (.inl rfl) hgasPool hle hsupply,
      LUSDToken.burn_of_le (.inr (.inl rfl)) hgasPool hle hsupply⟩
    obtain ⟨token, htoken⟩ := LUSDToken.transferInternal_of_le hgasPool hliquidator hle hsum
    exact ⟨token, bind_ok.mpr ⟨(), require_ok.mpr (.inl rfl), htoken⟩⟩

theorem sampleOpenings_gasPool : ∃ s, Reachable sampleDeployment s ∧
    s.lusdToken.balances sampleDeployment.gasPool = 10 ^ 18 ∧
    LUSD_GAS_COMPENSATION * s.troveManager.activeTroves.card ≤
      s.lusdToken.balances sampleDeployment.gasPool := by
  obtain ⟨s, hs, hp⟩ := exists_reachable (fun _ _ => True) sampleOpenings
    (fun s => s.lusdToken.balances sampleDeployment.gasPool = 10 ^ 18) (by decide +kernel)
  exact ⟨s, hs, hp, (reachable_minDebt_gasPool sampleDeployment_wired hs).2.1⟩

end Liquity
