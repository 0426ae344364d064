import Liquity.Properties.Accounting

/-!
# Stakes stay positive

A stake is the collateral scaled by the ratio of the last system snapshots, rounded down.  As long as
no trove gets a stake for less collateral than one unit of stake costs, every open trove has a stake,
the divisor of a redistribution is positive, and the assertion on the snapshots holds.  Each
liquidation of a large trove next to a small one lowers the ratio, so the price of a unit of stake
can grow past any collateral.
-/

open Lib

namespace Liquity

open TroveManager

variable {d : Deployment} {s : System}

/-! ## New stakes -/

namespace TroveManager

variable {t : TroveManager} {coll stake : Nat}

theorem computeNewStake_pos (hcoll : 0 < coll)
    (hbound : t.totalCollateralSnapshot ≤ coll * t.totalStakesSnapshot)
    (h : t.computeNewStake coll = .ok stake) : 0 < stake := by
  unfold computeNewStake at h
  split at h
  · cases h
    exact hcoll
  · simp only [bind_ok, SafeMath.mul_ok, SafeMath.div_ok] at h
    obtain ⟨_, -, _, ⟨-, rfl⟩, hpos, rfl⟩ := h
    exact Nat.div_pos hbound hpos

theorem computeNewStake_ne_assertion
    (h : t.totalCollateralSnapshot = 0 ∨ 0 < t.totalStakesSnapshot) (coll : Nat) :
    t.computeNewStake coll ≠ .error .assertion := by
  -- the checks of the arithmetic fail with a reason, not with an assertion
  have hreason : ∀ message, ¬ Revert.reason message = .assertion := fun _ => Revert.noConfusion
  have havoids : Avoids (· = .assertion) (t.computeNewStake coll) := by
    unfold computeNewStake
    split
    · exact avoids_ok coll
    next hne =>
      have hpos := h.resolve_left hne
      refine (avoids_assertThat hpos).bind fun _ _ => ?_
      refine (avoids_checkedMul (hreason _)).bind fun _ _ => ?_
      exact avoids_checkedDiv (Nat.pos_of_ne_zero hne)
  exact fun hfail => havoids _ hfail rfl

end TroveManager

/-! ## The invariant of the ledger -/

namespace Ledger

variable {L L' : Ledger} {label : Label}

structure StakesPositive (L : Ledger) : Prop where
  stake : ∀ b, (L.tm.troves b).status = .active → 0 < (L.tm.troves b).stake
  snapshots : L.tm.totalCollateralSnapshot = 0 ∨ 0 < L.tm.totalStakesSnapshot
  /-- A liquidation leaves a trove behind. -/
  remaining : 0 < L.inFlight.gas → L.order ≠ []

theorem StakesPositive.totalStakes (h : L.StakesPositive) (hbooks : L.Consistent d)
    (hne : L.order ≠ []) : 0 < L.tm.totalStakes := by
  obtain ⟨b, hb⟩ := List.exists_mem_of_ne_nil _ hne
  have hactive := (hbooks.registered.mem_order b).mp hb
  exact (h.stake b hactive).trans_le (hbooks.registered.stake_le b)

/-- Closing one of several troves. -/
theorem StakesPositive.unregister (h : L.StakesPositive) (hbooks : L.Consistent d) {b : Address}
    (hactive : (L.tm.troves b).status = .active) (hmore : 1 < L.order.length) (status : Status)
    (hstatus : status ≠ .active) :
    (∀ x, ((L.tm.unregister b status).troves x).status = .active →
      0 < ((L.tm.unregister b status).troves x).stake) ∧ L.order.erase b ≠ [] := by
  constructor
  · intro x hx
    obtain ⟨hkept, hsame⟩ := sameTrove_unregister (t := L.tm) (ne_of_active_unregister hstatus hx)
    rw [hsame] at hx
    rw [hkept.stake]
    exact h.stake x hx
  -- one trove is taken off a list of at least two
  · have hlen := hbooks.length_erase hactive
    intro hnil
    rw [hnil] at hlen
    simp at hlen
    omega

/-- An open trove with a new stake. -/
theorem StakesPositive.adjusted (h : L.StakesPositive) {b : Address} {coll debt stake : Nat}
    (hstake : 0 < stake) (x : Address)
    (hx : ((L.tm.adjusted b coll debt stake).troves x).status = .active) :
    0 < ((L.tm.adjusted b coll debt stake).troves x).stake := by
  by_cases hxb : x = b
  · subst hxb
    simpa [TroveManager.adjusted] using hstake
  · simp only [TroveManager.adjusted, Function.update_of_ne hxb] at hx ⊢
    exact h.stake x hx

/-- A move keeps stakes positive if the stakes it computes do not round to zero. -/
theorem Move.stakesPositive (hm : Move d L label L') (hbooks : L.Consistent d)
    (h : L.StakesPositive)
    (hbound : ∀ b coll, label = .register b coll ∨ label = .restake b coll →
      L.tm.totalCollateralSnapshot ≤ coll * L.tm.totalStakesSnapshot) :
    L'.StakesPositive := by
  cases hm with
  -- the only moves that compute a stake: opening, adjusting and partial redemption
  | @openTrove b coll amount fee stake NICR u v hinactive hb0 hmin hratio hpos hstake =>
    have hdebt : 0 < amount + fee + LUSD_GAS_COMPENSATION := debt_pos_of_minDebt (by
      unfold minDebt
      omega)
    have hcoll := coll_pos_of_ratio hdebt hratio hpos
    refine ⟨fun x hx => ?_, h.snapshots, fun _ => by simp⟩
    by_cases hxb : x = b
    · subst hxb
      simpa [register] using computeNewStake_pos hcoll (hbound _ _ (.inl rfl)) hstake
    · simp only [register, Function.update_of_ne hxb] at hx ⊢
      exact h.stake x hx
  | @applyRewards b hactive =>
    refine ⟨fun x hx => ?_, h.snapshots, h.remaining⟩
    by_cases hxb : x = b
    · subst hxb
      simpa [applied] using h.stake x hactive
    · simp only [applied, Function.update_of_ne hxb] at hx ⊢
      exact h.stake x hx
  | @adjust b coll debt stake NICR activeETH activeDebt totalSupply balances u v hactive hsettled
      hETHeq hdebteq hsupplyeq hsupplylt hsumeq hgp hsp hmin hratio hpos hstake =>
    have hcoll := coll_pos_of_ratio (debt_pos_of_minDebt hmin) hratio hpos
    have hnew := computeNewStake_pos hcoll (hbound _ _ (.inr rfl)) hstake
    exact ⟨h.adjusted hnew, h.snapshots, fun _ => by simp⟩
  | @redeemPartially b LUSDLot ETHLot stake NICR u v hactive hsettled hLUSDle hETHle hmin hratio
      hpos hstake =>
    have hcoll := coll_pos_of_ratio (debt_pos_of_minDebt hmin) hratio hpos
    have hnew := computeNewStake_pos hcoll (hbound _ _ (.inr rfl)) hstake
    exact ⟨h.adjusted hnew, h.snapshots, fun _ => by simp⟩
  | closeTrove hactive hmore =>
    obtain ⟨hstake, hne⟩ := h.unregister hbooks hactive hmore .closedByOwner (by decide)
    exact ⟨hstake, h.snapshots, fun _ => hne⟩
  | liquidate hactive hmore =>
    obtain ⟨hstake, hne⟩ := h.unregister hbooks hactive hmore .closedByLiquidation (by decide)
    exact ⟨hstake, h.snapshots, fun _ => hne⟩
  | redeemFully hactive hmore =>
    obtain ⟨hstake, hne⟩ := h.unregister hbooks hactive hmore .closedByRedemption (by decide)
    exact ⟨hstake, h.snapshots, fun _ => hne⟩
  -- a liquidation leaves a trove behind, whose stake goes into the snapshot
  | updateSnapshots hliquidated =>
    exact ⟨h.stake, .inr (h.totalStakes hbooks (h.remaining hliquidated)), h.remaining⟩
  | payGas =>
    exact ⟨h.stake, h.snapshots, fun hgas => h.remaining (hgas.trans_le (Nat.sub_le _ _))⟩
  | _ => exact ⟨h.stake, h.snapshots, h.remaining⟩

end Ledger

/-! ## Reachable states -/

/-- The troves whose stakes a transaction computes have enough collateral for a unit of stake. -/
def StakesCovered (s : System) (t : Transaction) : Prop :=
  ∀ b coll, ((∃ maxFee amount upper lower, t.call = .openTrove maxFee amount upper lower) ∧
      b = t.env.sender ∧ coll = t.env.value) ∨
    (t.Restakes s b coll ∧ (s.troveManager.troves b).status = .active) →
      s.troveManager.totalCollateralSnapshot ≤ coll * s.troveManager.totalStakesSnapshot

theorem initial_stakesPositive (h : IsInitial d s) : (s.ledger .none).StakesPositive := by
  obtain ⟨ether, timestamp, -, rfl⟩ := h
  exact ⟨nofun, .inl rfl, fun hgas => absurd hgas (Nat.lt_irrefl 0)⟩

theorem reachable_stakesPositive (hd : d.Wired) (h : ReachableWhen d StakesCovered s) :
    (s.ledger .none).StakesPositive := by
  refine ReachableWhen.ledger_invariant hd Ledger.StakesPositive
    (fun _ => initial_stakesPositive) ?_ h
  intro s t L label L' hcond _ hbooks hL hallow hm
  refine hm.stakesPositive hbooks hL fun b coll hlabel => ?_
  rcases hlabel with hlabel | hlabel <;> subst hlabel
  -- nothing is written before a new trove
  · obtain ⟨hb, hcoll, hcall, htm⟩ := hallow
    rw [htm]
    exact hcond b coll (.inl ⟨hcall, hb, hcoll⟩)
  -- the snapshots are those at the start of the transaction
  · obtain ⟨hrestakes, hactive, hkept⟩ := hallow
    rw [hkept.totalCollateralSnapshot, hkept.totalStakesSnapshot]
    exact hcond b coll (.inr ⟨hrestakes, hactive⟩)

/-- The tally of a liquidation only makes plain moves, which compute no stakes. -/
theorem tally_stakesPositive (hd : d.Wired) (hs : Sound d s .none)
    (h : (s.ledger .none).StakesPositive) {t : Transaction} {l : LoopState}
    (hl : t.call.tally d t.env { s with timestamp := t.env.timestamp } = some (.ok l)) :
    (l.system.ledger l.totals.inFlight).StakesPositive ∧
      (l.system.ledger l.totals.inFlight).Consistent d := by
  have hs₀ : Sound d { s with timestamp := t.env.timestamp } .none := { hs with }
  have htally : Tally d PlainOnly _ _ l := Call.tally_ok hd hs₀ PlainOnly.plain hl
  refine ⟨?_, htally.evolves.run.consistent hd hs₀.books⟩
  refine htally.evolves.run.invariant hd Ledger.StakesPositive ?_ hs₀.books h
  rintro L label L' hbooks hL rfl hm
  exact hm.stakesPositive hbooks hL fun b coll hlabel => by simp at hlabel

/-- Every open trove has a stake; at every point where a liquidation redistributes, the divisor is
positive as long as a trove is open; and no new stake fails the assertion on the snapshots. -/
theorem reachable_stakes_pos (hd : d.Wired) (h : ReachableWhen d StakesCovered s) :
    (∀ b, (s.troveManager.troves b).status = .active → 0 < (s.troveManager.troves b).stake) ∧
      (s.troveManager.activeTroves.Nonempty → 0 < s.troveManager.totalStakes) ∧
      (∀ (t : Transaction) (l : LoopState),
        t.call.tally d t.env { s with timestamp := t.env.timestamp } = some (.ok l) →
        l.system.troveManager.activeTroves.Nonempty → 0 < l.system.troveManager.totalStakes) ∧
      ∀ coll, s.troveManager.computeNewStake coll ≠ .error .assertion := by
  have hs := h.reachable.sound hd
  have hL := reachable_stakesPositive hd h
  have hopen : ∀ {s : System} {ι : InFlight}, (s.ledger ι).Consistent d →
      (s.ledger ι).StakesPositive → s.troveManager.activeTroves.Nonempty →
        0 < s.troveManager.totalStakes := by
    intro s ι hbooks hpos hne
    obtain ⟨b, hb⟩ := hne
    have hmem := (hbooks.registered.mem_order b).mpr (Finset.mem_filter.mp hb).2
    exact hpos.totalStakes hbooks (List.ne_nil_of_mem hmem)
  refine ⟨hL.stake, hopen hs.books hL, fun t l hl => ?_, computeNewStake_ne_assertion hL.snapshots⟩
  obtain ⟨hpos, hbooks⟩ := tally_stakesPositive hd hs hL hl
  exact hopen hbooks hpos

theorem sampleRedistribution_stakes : ∃ s, ReachableWhen sampleDeployment StakesCovered s ∧
    s.troveManager.totalCollateralSnapshot = 10597 * 10 ^ 15 ∧ 0 < s.troveManager.totalStakes := by
  obtain ⟨s, hs, hp, hactive⟩ := exists_reachable
    (fun s _ => s.troveManager.totalCollateralSnapshot = 0)
    (sampleOpenings ++ [⟨⟨101, 0, 0, 1800 * 10 ^ 18⟩, .liquidate 102⟩])
    (fun s => s.troveManager.totalCollateralSnapshot = 10597 * 10 ^ 15 ∧
      (s.troveManager.troves 101).status = .active) (by decide +kernel)
  have hs : ReachableWhen sampleDeployment StakesCovered s :=
    Lib.Reachable.mono (fun _ _ hzero _ _ _ => hzero ▸ Nat.zero_le _) hs
  exact ⟨s, hs, hp, (reachable_stakes_pos sampleDeployment_wired hs).2.1 ⟨101, by simpa [activeTroves]⟩⟩

/-- A trove of 10000 ether passes from hand to hand: each time it is liquidated next to a trove of
0.01 ether, and the collateral that a unit of stake costs grows a million times.  The fourth small
trove gets no stake. -/
theorem stake_vanishes :
    ¬ ∀ (d : Deployment) (s : System), d.Wired → Reachable d s → ∀ b,
      (s.troveManager.troves b).status = .active → 0 < (s.troveManager.troves b).stake := by
  intro hall
  obtain ⟨s, hs, hactive, hp⟩ := exists_reachable (fun _ _ => True)
    [⟨⟨102, 10 ^ 22, 0, 3000 * 10 ^ 18⟩, .openTrove (10 ^ 18) (17 * 10 ^ 24) 0 0⟩,
      ⟨⟨101, 10 ^ 16, 0, 3000 * 10 ^ 18⟩, .openTrove (10 ^ 18) (5 * 10 ^ 18) 0 0⟩,
      ⟨⟨101, 0, 0, 1800 * 10 ^ 18⟩, .liquidate 102⟩,
      ⟨⟨103, 10 ^ 16, 0, 3000 * 10 ^ 18⟩, .openTrove (10 ^ 18) (5 * 10 ^ 18) 0 0⟩,
      ⟨⟨101, 0, 0, 1800 * 10 ^ 18⟩, .liquidate 101⟩,
      ⟨⟨104, 10 ^ 16, 0, 3000 * 10 ^ 18⟩, .openTrove (10 ^ 18) (5 * 10 ^ 18) 0 0⟩,
      ⟨⟨101, 0, 0, 1800 * 10 ^ 18⟩, .liquidate 103⟩,
      ⟨⟨101, 10 ^ 16, 0, 3000 * 10 ^ 18⟩, .openTrove (10 ^ 18) (5 * 10 ^ 18) 0 0⟩]
    (fun s => (s.troveManager.troves 101).status = .active ∧ (s.troveManager.troves 101).stake = 0)
    (by decide +kernel)
  have hpos := hall sampleDeployment s sampleDeployment_wired hs 101 hactive
  omega

end Liquity
