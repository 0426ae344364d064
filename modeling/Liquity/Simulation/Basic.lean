import Liquity.Ledger.Consistency
import Liquity.Effects

/-!
# Simulating a transaction by moves

`Evolves` relates two states in the course of a transaction: the ledger goes from one to the other
by admitted moves, the list keeps its shape and ether is conserved.  The parts of a transaction are
proved one by one and composed.
-/

open Lib

namespace Liquity

open TroveManager

variable {d : Deployment} {s s' s'' : System} {ι ι' ι'' : InFlight}
  {allow : Ledger → Label → Prop} {label : Label}

/-- What holds at every point of a transaction. -/
structure Sound (d : Deployment) (s : System) (ι : InFlight) : Prop where
  books : (s.ledger ι).Consistent d
  list : SortedTroves.IsList s.sortedTroves s.sortedTroves.toList
  ether_le : s.activePool.ETH ≤ s.ether d.activePool
  ether_lt : ∑ a, s.ether a < 2 ^ 128

/-- The system goes from `s` to `s'`, and the amounts in flight from `ι` to `ι'`. -/
structure Evolves (d : Deployment) (allow : Ledger → Label → Prop) (s : System) (ι : InFlight)
    (s' : System) (ι' : InFlight) : Prop where
  run : Ledger.Run d allow (s.ledger ι) (s'.ledger ι')
  list : SortedTroves.IsList s'.sortedTroves s'.sortedTroves.toList
  ether : EtherKept d s s'

/-- The moves that no invariant has to know more about. -/
def PlainOnly (_ : Ledger) (label : Label) : Prop := label = .plain

theorem PlainOnly.plain (L : Ledger) : PlainOnly L .plain := rfl

theorem Ledger.Run.consistent {L L' : Ledger} (hd : d.Wired) (h : Ledger.Run d allow L L')
    (hL : L.Consistent d) : L'.Consistent d := by
  refine Lib.Reachable.invariant (fun L => L.Consistent d) ?_ ?_ h
  · rintro _ rfl
    exact hL
  · exact fun L label L' _ hL _ hm => hm.consistent hd hL

/-- What admitted moves between consistent ledgers keep, a run of them keeps. -/
theorem Ledger.Run.invariant {L L' : Ledger} (hd : d.Wired) (Inv : Ledger → Prop)
    (hmove : ∀ L label L', L.Consistent d → Inv L → allow L label → Ledger.Move d L label L' → Inv L')
    (h : Ledger.Run d allow L L') (hbooks : L.Consistent d) (hL : Inv L) : Inv L' := by
  have hboth : L'.Consistent d ∧ Inv L' := by
    refine Lib.Reachable.invariant (fun L => L.Consistent d ∧ Inv L) ?_ ?_ h
    · rintro _ rfl
      exact ⟨hbooks, hL⟩
    · rintro L label L' - ⟨hbooks, hL⟩ hallow hm
      exact ⟨hm.consistent hd hbooks, hmove L label L' hbooks hL hallow hm⟩
  exact hboth.2

namespace Evolves

theorem trans (h : Evolves d allow s ι s' ι') (h' : Evolves d allow s' ι' s'' ι'') :
    Evolves d allow s ι s'' ι'' :=
  ⟨h.run.trans h'.run, h'.list, h.ether.trans h'.ether⟩

/-- A stretch of the transaction that the ledger does not see. -/
theorem silent (hs : Sound d s ι) (hledger : s'.ledger ι = s.ledger ι)
    (hlist : s'.sortedTroves = s.sortedTroves) (hether : EtherKept d s s') :
    Evolves d allow s ι s' ι := by
  refine ⟨?_, ?_, hether⟩
  · rw [hledger]
    exact .init rfl
  · rw [hlist]
    exact hs.list

theorem refl (hs : Sound d s ι) : Evolves d allow s ι s ι := silent hs rfl rfl (EtherKept.refl s)

/-- A single move. -/
theorem move (hm : Ledger.Move d (s.ledger ι) label (s'.ledger ι'))
    (hallow : allow (s.ledger ι) label)
    (hlist : SortedTroves.IsList s'.sortedTroves s'.sortedTroves.toList)
    (hether : EtherKept d s s') : Evolves d allow s ι s' ι' :=
  ⟨.step (.init rfl) hallow hm, hlist, hether⟩

theorem sound (hd : d.Wired) (h : Evolves d allow s ι s' ι') (hs : Sound d s ι) :
    Sound d s' ι' where
  books := h.run.consistent hd hs.books
  list := h.list
  ether_le := by
    have hle := hs.ether_le
    have heq := h.ether.activePool_eq
    omega
  ether_lt := by
    rw [h.ether.sum_eq]
    exact hs.ether_lt

end Evolves

/-- The registry facts, of the contract's own storage. -/
theorem Sound.registered (hs : Sound d s ι) :
    s.troveManager.Registered s.sortedTroves.toList :=
  { hs.books.registered with }

/-! ## Reading the trove manager -/

namespace TroveManager

variable {t t' : TroveManager} {b x : Address} {r : Nat}

theorem pendingReward_ok {accumulator snapshot : Nat} {trove : Trove}
    (h : pendingReward accumulator snapshot trove = .ok r) :
    snapshot ≤ accumulator ∧
      r = if trove.status = .active then
        trove.stake * (accumulator - snapshot) / DECIMAL_PRECISION else 0 := by
  simp only [pendingReward, bind_ok, SafeMath.sub_ok] at h
  obtain ⟨growth, ⟨hle, rfl⟩, h⟩ := h
  refine ⟨hle, ?_⟩
  split at h
  next hzero =>
    obtain rfl := pure_ok.mp h
    rcases hzero with hgrowth | hinactive
    · simp [hgrowth]
    · rw [if_neg hinactive]
  next hne =>
    simp only [bind_ok, SafeMath.mul_ok, SafeMath.div_ok] at h
    obtain ⟨_, ⟨-, rfl⟩, -, rfl⟩ := h
    rw [if_pos (by tauto)]

theorem getPendingETHReward_ok (hb : (t.troves b).status = .active)
    (h : t.getPendingETHReward b = .ok r) :
    (t.rewardSnapshots b).ETH ≤ t.L_ETH ∧ r = t.pendingETH b := by
  obtain ⟨hle, hr⟩ := pendingReward_ok h
  exact ⟨hle, by rw [hr, if_pos hb]; rfl⟩

theorem getPendingLUSDDebtReward_ok (hb : (t.troves b).status = .active)
    (h : t.getPendingLUSDDebtReward b = .ok r) :
    (t.rewardSnapshots b).LUSDDebt ≤ t.L_LUSDDebt ∧ r = t.pendingLUSDDebt b := by
  obtain ⟨hle, hr⟩ := pendingReward_ok h
  exact ⟨hle, by rw [hr, if_pos hb]; rfl⟩

theorem getEntireDebtAndColl_ok {entire : EntireDebtAndColl} (hb : (t.troves b).status = .active)
    (h : t.getEntireDebtAndColl b = .ok entire) :
    entire = ⟨(t.troves b).debt + t.pendingLUSDDebt b, (t.troves b).coll + t.pendingETH b,
      t.pendingLUSDDebt b, t.pendingETH b⟩ := by
  simp only [getEntireDebtAndColl, bind_ok, pure_ok, SafeMath.add_ok] at h
  obtain ⟨pd, hpd, pe, hpe, x, ⟨-, rfl⟩, y, ⟨-, rfl⟩, rfl⟩ := h
  rw [(getPendingLUSDDebtReward_ok hb hpd).2, (getPendingETHReward_ok hb hpe).2]

/-- A ratio below the one of a trove without debt is the ratio of an active trove. -/
theorem active_of_getCurrentICR {price : Nat} {order : List Address} (ht : t.Registered order)
    (h : t.getCurrentICR b price = .ok r) (hr : r < LiquityMath.maxRatio) :
    (t.troves b).status = .active := by
  by_contra hb
  obtain ⟨-, hdebt, -⟩ := ht.inactive b hb
  simp only [getCurrentICR, getCurrentTroveAmounts, bind_ok, pure_ok, SafeMath.add_ok] at h
  obtain ⟨_, ⟨pe, -, pd, hpd, _, -, y, ⟨-, rfl⟩, rfl⟩, h⟩ := h
  obtain ⟨-, hpd⟩ := pendingReward_ok hpd
  rw [if_neg hb] at hpd
  simp only [hdebt, hpd, LiquityMath.computeCR, Nat.add_zero, Nat.lt_irrefl, if_false] at h
  cases h
  exact Nat.lt_irrefl _ hr

/-- The ratio of a trove only depends on the trove, its snapshots and the accumulators. -/
theorem getNominalICR_congr (htrove : (t'.troves x).coll = (t.troves x).coll ∧
      (t'.troves x).debt = (t.troves x).debt ∧ (t'.troves x).stake = (t.troves x).stake ∧
      (t'.troves x).status = (t.troves x).status)
    (hsnap : t'.rewardSnapshots x = t.rewardSnapshots x) (hE : t'.L_ETH = t.L_ETH)
    (hD : t'.L_LUSDDebt = t.L_LUSDDebt) : t'.getNominalICR x = t.getNominalICR x := by
  obtain ⟨hcoll, hdebt, hstake, hstatus⟩ := htrove
  simp only [getNominalICR, getCurrentTroveAmounts, getPendingETHReward, getPendingLUSDDebtReward,
    pendingReward, hcoll, hdebt, hstake, hstatus, hsnap, hE, hD]

end TroveManager

end Liquity
