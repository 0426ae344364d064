import Liquity.Registry

/-!
# The books balance

The invariant of the ledger that no condition is needed for: LUSD in circulation is the debt of the
system, the Active Pool is exactly the stored troves and what is in flight, every trove has its
minimum debt and its gas reserve, and the Stability Pool holds its deposits.  Every move keeps it.
-/

open Lib

namespace Liquity

open LiquityMath TroveManager

namespace Ledger

structure Consistent (d : Deployment) (L : Ledger) : Prop where
  registered : L.tm.Registered L.order
  sum_balances : ∑ a, L.balances a = L.totalSupply
  supply : L.totalSupply = L.activeDebt + L.defaultDebt
  supply_lt : L.totalSupply < 2 ^ 256
  activeETH : L.activeETH = ∑ b, (L.tm.troves b).coll + L.inFlight.coll
  activeDebt : L.activeDebt = ∑ b, (L.tm.troves b).debt + L.inFlight.debt
  minDebt : ∀ b, (L.tm.troves b).status = .active → minDebt ≤ (L.tm.troves b).debt
  coll_pos : ∀ b, (L.tm.troves b).status = .active → 0 < (L.tm.troves b).coll
  gas : LUSD_GAS_COMPENSATION * L.order.length + L.inFlight.gas ≤ L.balances d.gasPool
  allowances : ∀ a ∈ d.contracts, ∀ b, L.allowances a b = 0
  deposits : L.sp.totalLUSDDeposits ≤ L.balances d.stabilityPool
  pool : L.sp.pool.Consistent

variable {d : Deployment} {L L' : Ledger} {label : Label} {b : Address}

/-! ## Reading the invariant -/

namespace Consistent

theorem coll_le (h : L.Consistent d) (b : Address) : (L.tm.troves b).coll ≤ L.activeETH := by
  have hle := le_sum (fun b => (L.tm.troves b).coll) b
  have heq := h.activeETH
  omega

theorem debt_le (h : L.Consistent d) (b : Address) : (L.tm.troves b).debt ≤ L.activeDebt := by
  have hle := le_sum (fun b => (L.tm.troves b).debt) b
  have heq := h.activeDebt
  omega

/-- What is in flight is still in the Active Pool. -/
theorem inFlight_le (h : L.Consistent d) :
    L.inFlight.coll ≤ L.activeETH ∧ L.inFlight.debt ≤ L.activeDebt := by
  have hcoll := h.activeETH
  have hdebt := h.activeDebt
  omega

theorem balance_le (h : L.Consistent d) (a : Address) : L.balances a ≤ L.totalSupply := by
  rw [← h.sum_balances]
  exact le_sum _ _

theorem length_erase (h : L.Consistent d) (hb : (L.tm.troves b).status = .active) :
    (L.order.erase b).length + 1 = L.order.length := by
  have hmem := (h.registered.mem_order b).mpr hb
  rw [List.length_erase_of_mem hmem]
  have hpos := List.length_pos_of_mem hmem
  omega

/-- The gas reserve of one more trove is in the gas pool. -/
theorem gas_le (h : L.Consistent d) (hb : (L.tm.troves b).status = .active) :
    LUSD_GAS_COMPENSATION * (L.order.erase b).length + L.inFlight.gas + LUSD_GAS_COMPENSATION ≤
      L.balances d.gasPool := by
  have hgas := h.gas
  rw [← h.length_erase hb, Nat.mul_succ] at hgas
  omega

end Consistent

/-! ## Balances -/

theorem sum_credit (f : Address → Nat) (a : Address) (amount : Nat) :
    ∑ x, credit f a amount x = ∑ x, f x + amount := by
  have h : ∑ x, credit f a amount x + f a = ∑ x, f x + (f a + amount) :=
    sum_update_add (fun n => n) f a (f a + amount)
  omega

theorem sum_debit {f : Address → Nat} {a : Address} {amount : Nat} (hle : amount ≤ f a) :
    ∑ x, debit f a amount x + amount = ∑ x, f x := by
  have h : ∑ x, debit f a amount x + f a = ∑ x, f x + (f a - amount) :=
    sum_update_add (fun n => n) f a (f a - amount)
  omega

theorem le_credit (f : Address → Nat) (a c : Address) (amount : Nat) :
    f c ≤ credit f a amount c := by
  by_cases hc : c = a
  · subst hc
    simp [credit]
  · simp [credit, Function.update_of_ne hc]

theorem debit_of_ne {f : Address → Nat} {a c : Address} {amount : Nat} (hc : c ≠ a) :
    debit f a amount c = f c := by
  simp [debit, Function.update_of_ne hc]

theorem debit_self (f : Address → Nat) (a : Address) (amount : Nat) :
    debit f a amount a = f a - amount := by
  simp [debit]

/-! ## Ratios -/

theorem coll_pos_of_ratio {coll debt NICR : Nat} (hdebt : 0 < debt)
    (h : computeNominalCR coll debt = .ok NICR) (hpos : 0 < NICR) : 0 < coll := by
  rw [computeNominalCR_ok hdebt h] at hpos
  refine Nat.pos_of_ne_zero ?_
  rintro rfl
  simp at hpos

/-! ## Troves that stay open -/

theorem active_of_unregister {t : TroveManager} {status : Status} {x : Address}
    (hstatus : status ≠ .active) (hx : ((t.unregister b status).troves x).status = .active) :
    (t.troves x).status = .active ∧
      ((t.unregister b status).troves x).coll = (t.troves x).coll ∧
      ((t.unregister b status).troves x).debt = (t.troves x).debt := by
  have hxb := ne_of_active_unregister hstatus hx
  rw [unregister_troves_of_ne hxb] at hx ⊢
  split at hx <;> simp_all

namespace Consistent

/-- The facts about open troves after one was closed. -/
theorem unregister (h : L.Consistent d) (b : Address) (status : Status)
    (hstatus : status ≠ .active) :
    (∀ x, ((L.tm.unregister b status).troves x).status = .active →
      Ledger.minDebt ≤ ((L.tm.unregister b status).troves x).debt) ∧
    ∀ x, ((L.tm.unregister b status).troves x).status = .active →
      0 < ((L.tm.unregister b status).troves x).coll := by
  refine ⟨fun x hx => ?_, fun x hx => ?_⟩
  · obtain ⟨hact, -, hdebt⟩ := active_of_unregister hstatus hx
    rw [hdebt]
    exact h.minDebt x hact
  · obtain ⟨hact, hcoll, -⟩ := active_of_unregister hstatus hx
    rw [hcoll]
    exact h.coll_pos x hact

/-- The facts about open troves after one got new amounts. -/
theorem adjusted (h : L.Consistent d) {coll debt stake : Nat} (hdebt : Ledger.minDebt ≤ debt)
    (hcoll : 0 < coll) :
    (∀ x, ((L.tm.adjusted b coll debt stake).troves x).status = .active →
      Ledger.minDebt ≤ ((L.tm.adjusted b coll debt stake).troves x).debt) ∧
    ∀ x, ((L.tm.adjusted b coll debt stake).troves x).status = .active →
      0 < ((L.tm.adjusted b coll debt stake).troves x).coll := by
  have htrove : ∀ x, (L.tm.adjusted b coll debt stake).troves x =
      if x = b then { L.tm.troves b with coll, debt, stake } else L.tm.troves x := by
    intro x
    by_cases hx : x = b
    · subst hx
      simp [TroveManager.adjusted]
    · simp [TroveManager.adjusted, hx]
  refine ⟨fun x hx => ?_, fun x hx => ?_⟩
  · rw [htrove] at hx ⊢
    split
    · exact hdebt
    next hxb => exact h.minDebt x (by simpa [hxb] using hx)
  · rw [htrove] at hx ⊢
    split
    · exact hcoll
    next hxb => exact h.coll_pos x (by simpa [hxb] using hx)

end Consistent

/-! ## Sums after closing or adjusting a trove -/

section Sums

variable (t : TroveManager) (b : Address) (status : Status) (coll debt stake : Nat)

theorem sum_coll_unregister :
    ∑ x, ((t.unregister b status).troves x).coll + (t.troves b).coll = ∑ x, (t.troves x).coll :=
  (sum_unregister Trove.coll fun _ _ => rfl).trans (Nat.add_zero _)

theorem sum_debt_unregister :
    ∑ x, ((t.unregister b status).troves x).debt + (t.troves b).debt = ∑ x, (t.troves x).debt :=
  (sum_unregister Trove.debt fun _ _ => rfl).trans (Nat.add_zero _)

theorem sum_coll_adjusted :
    ∑ x, ((t.adjusted b coll debt stake).troves x).coll + (t.troves b).coll =
      ∑ x, (t.troves x).coll + coll :=
  sum_adjusted Trove.coll

theorem sum_debt_adjusted :
    ∑ x, ((t.adjusted b coll debt stake).troves x).debt + (t.troves b).debt =
      ∑ x, (t.troves x).debt + debt :=
  sum_adjusted Trove.debt

end Sums

/-! ## Every move keeps the books balanced -/

theorem debt_pos_of_minDebt {debt : Nat} (h : minDebt ≤ debt) : 0 < debt :=
  lt_of_lt_of_le (by decide) h

theorem gas_le_of_minDebt {debt : Nat} (h : minDebt ≤ debt) : LUSD_GAS_COMPENSATION ≤ debt :=
  le_trans (by decide) h

theorem length_insert_erase {u v : List Address} (h : L.Consistent d)
    (hactive : (L.tm.troves b).status = .active) (huv : L.order.erase b = u ++ v) :
    (u ++ b :: v).length = L.order.length := by
  have hlen := h.length_erase hactive
  rw [huv] at hlen
  simp at hlen ⊢
  omega

theorem Move.consistent (hd : d.Wired) (hm : Move d L label L') (h : L.Consistent d) :
    L'.Consistent d := by
  have hne := hd.gasPool_ne_stabilityPool
  have hsum := h.sum_balances
  have hsupply := h.supply
  have hETH := h.activeETH
  have hdebt := h.activeDebt
  have hgas := h.gas
  have hdeposits := h.deposits
  -- the equations of the books, which every move keeps together
  cases hm with
  | transfer hgp hsp hle =>
    exact { h with
      sum_balances := (sum_move hle).trans h.sum_balances
      gas := h.gas.trans (le_move hgp.symm)
      deposits := h.deposits.trans (le_move hsp.symm) }
  | approve hcontracts =>
    exact { h with allowances := fun a ha b => hcontracts a ha b (h.allowances a ha b) }
  -- the fee, the amount and the gas reserve are minted as the trove's debt
  | @openTrove b coll amount fee stake NICR u v hinactive hb0 hmin hratio hpos hstake horder hfits
      hsupplylt =>
    have hdebtpos : 0 < amount + fee + LUSD_GAS_COMPENSATION := debt_pos_of_minDebt (by
      unfold minDebt
      omega)
    have hzero := h.registered.inactive b hinactive
    have hcoll : ∑ x, ((L.tm.register b coll (amount + fee + LUSD_GAS_COMPENSATION) stake).troves
        x).coll + (L.tm.troves b).coll = ∑ x, (L.tm.troves x).coll + coll := sum_register Trove.coll
    have hdebt' : ∑ x, ((L.tm.register b coll (amount + fee + LUSD_GAS_COMPENSATION) stake).troves
        x).debt + (L.tm.troves b).debt =
          ∑ x, (L.tm.troves x).debt + (amount + fee + LUSD_GAS_COMPENSATION) :=
      sum_register Trove.debt
    refine { h with
      registered := (horder ▸ h.registered).register hinactive
      sum_balances := ?_, supply := ?_, supply_lt := hsupplylt, activeETH := ?_, activeDebt := ?_
      minDebt := ?_, coll_pos := ?_, gas := ?_, deposits := ?_ }
    · rw [sum_credit, sum_credit, sum_credit, hsum]
    · simp only
      omega
    · simp only
      omega
    · simp only
      omega
    · intro x hx
      by_cases hxb : x = b
      · simp only [register, hxb, Function.update_self]
        unfold minDebt
        omega
      · simp only [register, Function.update_of_ne hxb] at hx ⊢
        exact h.minDebt x hx
    · intro x hx
      by_cases hxb : x = b
      · simp only [register, hxb, Function.update_self]
        exact coll_pos_of_ratio hdebtpos hratio hpos
      · simp only [register, Function.update_of_ne hxb] at hx ⊢
        exact h.coll_pos x hx
    · have hlen : (u ++ b :: v).length = L.order.length + 1 := by
        rw [horder]
        simp
        omega
      have hfee := le_credit L.balances d.lqtyStaking d.gasPool fee
      have hamount := le_credit (credit L.balances d.lqtyStaking fee) b d.gasPool amount
      have hreserve : credit (credit (credit L.balances d.lqtyStaking fee) b amount) d.gasPool
          LUSD_GAS_COMPENSATION d.gasPool =
            credit (credit L.balances d.lqtyStaking fee) b amount d.gasPool +
              LUSD_GAS_COMPENSATION := Function.update_self ..
      simp only [hlen, hreserve, Nat.mul_succ]
      omega
    · exact h.deposits.trans ((le_credit _ _ _ _).trans ((le_credit _ _ _ _).trans (le_credit _ _ _ _)))
  -- the reward moves from the Default Pool's books to the trove's
  | @applyRewards b hactive hpending hsnapshot hETHle hdebtle =>
    have hcoll : ∑ x, ((L.tm.applied b).troves x).coll + (L.tm.troves b).coll =
        ∑ x, (L.tm.troves x).coll + ((L.tm.troves b).coll + L.tm.pendingETH b) :=
      sum_applied Trove.coll
    have hdebt' : ∑ x, ((L.tm.applied b).troves x).debt + (L.tm.troves b).debt =
        ∑ x, (L.tm.troves x).debt + ((L.tm.troves b).debt + L.tm.pendingLUSDDebt b) :=
      sum_applied Trove.debt
    have hgrows : ∀ x, ((L.tm.applied b).troves x).status = (L.tm.troves x).status ∧
        (L.tm.troves x).coll ≤ ((L.tm.applied b).troves x).coll ∧
        (L.tm.troves x).debt ≤ ((L.tm.applied b).troves x).debt := by
      intro x
      by_cases hx : x = b
      · subst hx
        simp [applied]
      · simp [applied, Function.update_of_ne hx]
    refine { h with
      registered := h.registered.applied hactive
      supply := ?_, activeETH := ?_, activeDebt := ?_, minDebt := ?_, coll_pos := ?_ }
    · simp only
      omega
    · simp only
      omega
    · simp only
      omega
    · exact fun x hx => (h.minDebt x ((hgrows x).1 ▸ hx)).trans (hgrows x).2.2
    · exact fun x hx => (h.coll_pos x ((hgrows x).1 ▸ hx)).trans_le (hgrows x).2.1
  | @adjust b coll debt stake NICR activeETH activeDebt totalSupply balances u v hactive hsettled
      hETHeq hdebteq hsupplyeq hsupplylt hsumeq hgp hsp hmin hratio hpos hstake horder hfits =>
    have hcoll := sum_coll_adjusted L.tm b coll debt stake
    have hdebt' := sum_debt_adjusted L.tm b coll debt stake
    have hcollpos := coll_pos_of_ratio (debt_pos_of_minDebt hmin) hratio hpos
    have hlen := length_insert_erase h hactive horder
    refine { h with
      registered := h.registered.adjusted hactive horder
      supply_lt := hsupplylt h.supply_lt
      sum_balances := ?_, supply := ?_, activeETH := ?_, activeDebt := ?_
      minDebt := (h.adjusted hmin hcollpos).1, coll_pos := (h.adjusted hmin hcollpos).2, gas := ?_
      deposits := h.deposits.trans hsp }
    · simp only
      omega
    · simp only
      omega
    · simp only
      omega
    · simp only
      omega
    · simp only [hlen]
      omega
  -- the trove's net debt is burned from its owner, the gas reserve from the gas pool
  | @closeTrove b hactive hmore hgp hsp hbalance =>
    have hcoll := sum_coll_unregister L.tm b .closedByOwner
    have hdebt' := sum_debt_unregister L.tm b .closedByOwner
    have hGAS := gas_le_of_minDebt (h.minDebt b hactive)
    have hreserve := h.gas_le hactive
    have hle := h.debt_le b
    have hopen := h.unregister b .closedByOwner (by decide)
    generalize hrepay : (L.tm.troves b).debt - LUSD_GAS_COMPENSATION = repayment at hbalance ⊢
    have hpaid := sum_debit hbalance
    have hgp' : debit L.balances b repayment d.gasPool = L.balances d.gasPool :=
      debit_of_ne hgp.symm
    have hburn := sum_debit (hgp'.symm ▸ (by omega) :
      LUSD_GAS_COMPENSATION ≤ debit L.balances b repayment d.gasPool)
    refine { h with
      registered := h.registered.unregister hactive (by decide)
      supply_lt := (Nat.sub_le _ _).trans_lt h.supply_lt
      sum_balances := ?_, supply := ?_, activeETH := ?_, activeDebt := ?_
      minDebt := hopen.1, coll_pos := hopen.2, gas := ?_, deposits := ?_ }
    · simp only
      omega
    · simp only
      omega
    · simp only
      omega
    · simp only
      omega
    · simp only [debit_self, hgp']
      omega
    · simp only [debit_of_ne hne.symm, debit_of_ne hsp.symm]
      exact hdeposits
  -- the trove's amounts are in flight until the liquidation is settled
  | @liquidate b hactive hmore hETHle hdebtle =>
    have hcoll := sum_coll_unregister L.tm b .closedByLiquidation
    have hdebt' := sum_debt_unregister L.tm b .closedByLiquidation
    have hreserve := h.gas_le hactive
    have hopen := h.unregister b .closedByLiquidation (by decide)
    refine { h with
      registered := h.registered.unregister hactive (by decide)
      supply := ?_, activeETH := ?_, activeDebt := ?_
      minDebt := hopen.1, coll_pos := hopen.2, gas := ?_ }
    · simp only
      omega
    · simp only
      omega
    · simp only
      omega
    · simp only
      omega
  -- burned from the Stability Pool against debt in flight
  | @offset debt coll sp hdebtne hdebtle hcollle hbalance habsorbs =>
    obtain ⟨perUnit, hoffset⟩ := habsorbs.offset
    have hburn := sum_debit hbalance
    have htotal : sp.totalLUSDDeposits = L.sp.totalLUSDDeposits - debt := hoffset.total_eq
    have hloss : debt ≤ L.sp.totalLUSDDeposits := hoffset.loss_le
    refine { h with
      supply_lt := (Nat.sub_le _ _).trans_lt h.supply_lt
      sum_balances := ?_, supply := ?_, activeETH := ?_, activeDebt := ?_, gas := ?_, deposits := ?_
      pool := hoffset.consistent h.pool }
    · simp only
      omega
    · simp only
      omega
    · simp only
      omega
    · simp only
      omega
    · simp only [debit_of_ne hne]
      exact hgas
    · simp only [debit_self]
      omega
  | @redistribute debt coll pE pD eE eD hdebtne hdebtle hcollle hE hD =>
    refine { h with
      registered := { h.registered with }, supply := ?_, activeETH := ?_, activeDebt := ?_ }
    · simp only
      omega
    · simp only
      omega
    · simp only
      omega
  | @release coll hcollle =>
    refine { h with activeETH := ?_ }
    simp only
    omega
  | @payGas liquidator gas hgasle =>
    have hsource : L.balances d.gasPool ≤ move L.balances d.gasPool liquidator gas d.gasPool + gas :=
      le_move_add
    refine { h with
      sum_balances := (sum_move (by omega)).trans hsum, gas := ?_
      deposits := h.deposits.trans (le_move hne.symm) }
    simp only
    omega
  -- the net debt is in flight, and the gas reserve is burned at once
  | @redeemFully b ETHLot hactive hmore hETHle =>
    have hcoll := sum_coll_unregister L.tm b .closedByRedemption
    have hdebt' := sum_debt_unregister L.tm b .closedByRedemption
    have hGAS := gas_le_of_minDebt (h.minDebt b hactive)
    have hreserve := h.gas_le hactive
    have hle := h.debt_le b
    have hopen := h.unregister b .closedByRedemption (by decide)
    have hburn := sum_debit (by omega : LUSD_GAS_COMPENSATION ≤ L.balances d.gasPool)
    refine { h with
      registered := h.registered.unregister hactive (by decide)
      supply_lt := (Nat.sub_le _ _).trans_lt h.supply_lt
      sum_balances := ?_, supply := ?_, activeETH := ?_, activeDebt := ?_
      minDebt := hopen.1, coll_pos := hopen.2, gas := ?_, deposits := ?_ }
    · simp only
      omega
    · simp only
      omega
    · simp only
      omega
    · simp only
      omega
    · simp only [debit_self]
      omega
    · simp only [debit_of_ne hne.symm]
      exact hdeposits
  | @redeemPartially b LUSDLot ETHLot stake NICR u v hactive hsettled hLUSDle hETHle hmin hratio
      hpos hstake horder hfits =>
    have hcoll := sum_coll_adjusted L.tm b ((L.tm.troves b).coll - ETHLot)
      ((L.tm.troves b).debt - LUSDLot) stake
    have hdebt' := sum_debt_adjusted L.tm b ((L.tm.troves b).coll - ETHLot)
      ((L.tm.troves b).debt - LUSDLot) stake
    have hcollpos := coll_pos_of_ratio (debt_pos_of_minDebt hmin) hratio hpos
    have hlen := length_insert_erase h hactive horder
    refine { h with
      registered := h.registered.adjusted hactive horder
      activeETH := ?_, activeDebt := ?_
      minDebt := (h.adjusted hmin hcollpos).1, coll_pos := (h.adjusted hmin hcollpos).2, gas := ?_ }
    · simp only
      omega
    · simp only
      omega
    · simp only [hlen]
      omega
  | @burnRedeemed redeemer amount hgp hsp hbalance hdebtle =>
    have hburn := sum_debit hbalance
    refine { h with
      supply_lt := (Nat.sub_le _ _).trans_lt h.supply_lt
      sum_balances := ?_, supply := ?_, activeDebt := ?_, gas := ?_, deposits := ?_ }
    · simp only
      omega
    · simp only
      omega
    · simp only
      omega
    · simp only [debit_of_ne hgp.symm]
      exact hgas
    · simp only [debit_of_ne hsp.symm]
      exact hdeposits
  | updateSnapshots => exact { h with registered := { h.registered with } }
  | issueLQTY hissued =>
    obtain ⟨error, G, rfl⟩ := (StabilityPool.updateG_ok hissued).1
    exact { h with pool := h.pool }
  | registerFrontEnd => exact { h with }
  -- the total moves with the balance of the Stability Pool
  | @redeposit i f value stake compounded compoundedStake total paid balances htag hcompounded hstake
      hpaid hreserve hstakeeq htotal hbalance hsumeq hgp =>
    obtain ⟨snapshot, hsnapshot, hpool⟩ := L.sp.redeposited_pool i f value stake total paid
    refine { h with
      sum_balances := hsumeq.trans hsum, gas := hgas.trans hgp, deposits := ?_
      pool := hpool.symm ▸ h.pool.redeposit hsnapshot _ }
    change total ≤ balances d.stabilityPool
    omega

end Ledger

end Liquity
