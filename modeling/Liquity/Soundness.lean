import Liquity.Simulation.Transactions

/-!
# Reachable states are sound

The freshly wired system is sound, and every transaction keeps it so.  An invariant of the ledger
that permitted moves keep holds in every reachable state.
-/

open Lib

namespace Liquity

open TroveManager

variable {d : Deployment} {s : System} {cond : System → Transaction → Prop}

theorem initial_registered (d : Deployment) (ether : Address → Nat) (timestamp : Nat) :
    (System.initial d ether timestamp).troveManager.Registered [] where
  order_nodup := List.nodup_nil
  mem_order b := by simp [System.initial]
  owners_nodup := List.nodup_nil
  mem_owners b := by simp [System.initial]
  index b hb := absurd hb List.not_mem_nil
  totalStakes_eq := by simp [System.initial]
  inactive b _ := ⟨rfl, rfl, rfl⟩

theorem initial_consistent (d : Deployment) (ether : Address → Nat) (timestamp : Nat) :
    ((System.initial d ether timestamp).ledger .none).Consistent d := by
  have horder : (System.initial d ether timestamp).sortedTroves.toList = [] :=
    (SortedTroves.isList_initial d.maxSize).toList_eq
  refine ⟨?_, ?_, rfl, Nat.two_pow_pos 256, ?_, ?_, ?_, ?_, ?_, fun _ _ _ => rfl, Nat.zero_le _, ?_⟩
  · have hregistered := initial_registered d ether timestamp
    simp only [System.ledger, horder]
    exact { hregistered with }
  · simp [System.ledger, System.initial]
  · simp [System.ledger, System.initial, books, InFlight.none]
  · simp [System.ledger, System.initial, books, InFlight.none]
  · intro b hb
    cases hb
  · intro b hb
    cases hb
  · simp only [System.ledger, horder]
    exact Nat.le_refl 0
  · exact ⟨Nat.pow_pos (by decide : 0 < 10), fun _ hi => absurd hi (Nat.lt_irrefl 0),
      fun _ hi => absurd hi (Nat.lt_irrefl 0),
      fun _ hi => absurd hi (Nat.lt_irrefl 0), fun _ _ _ => rfl⟩

theorem IsInitial.sound (h : IsInitial d s) : Sound d s .none := by
  obtain ⟨ether, timestamp, hlt, rfl⟩ := h
  refine ⟨initial_consistent d ether timestamp, ?_, Nat.zero_le _, hlt⟩
  have hlist : SortedTroves.IsList (System.initial d ether timestamp).sortedTroves [] :=
    SortedTroves.isList_initial d.maxSize
  rw [hlist.toList_eq]
  exact hlist

theorem Reachable.sound (hd : d.Wired) (h : Reachable d s) : Sound d s .none := by
  refine Lib.Reachable.invariant (fun s => Sound d s .none) (fun _ => IsInitial.sound) ?_ h
  exact fun s t s' _ hs _ hstep => (step_evolves hd hs hstep).sound hd hs

/-- A liquidation of a reachable state: the loop only makes plain moves, and the settlement takes
what it tallied out of the pools. -/
theorem Step.settled (hd : d.Wired) (hr : Reachable d s) {s' : System} {t : Transaction}
    {l : LoopState} (hstep : Step d s t s')
    (hl : t.call.tally d t.env { s with timestamp := t.env.timestamp } = some (.ok l)) :
    Tally d PlainOnly { s with timestamp := t.env.timestamp } s.stabilityPool.totalLUSDDeposits l ∧
      Settles (l.totals.totalCollToSendToSP + l.totals.totalCollSurplus +
        l.totals.totalCollGasCompensation) l.totals.totalDebtToOffset l.system s' ∧
      StabilityPool.Offsets l.totals.totalDebtToOffset l.totals.totalCollToSendToSP s.stabilityPool
        s'.stabilityPool := by
  have hs₀ : Sound d { s with timestamp := t.env.timestamp } .none := { hr.sound hd with }
  have htally : Tally d PlainOnly _ _ l := Call.tally_ok hd hs₀ PlainOnly.plain hl
  have hremaining : _ = s.stabilityPool.totalLUSDDeposits := htally.remaining
  have hpool : l.system.stabilityPool = s.stabilityPool := htally.stabilityPool
  obtain ⟨l', hl', hsettle⟩ := hstep.tallied hd hl
  cases hl'
  obtain ⟨hsettles, hoffsets⟩ := settleLiquidation_settles hd hstep.1.external
    (by rw [hpool]; omega) htally.splits.offset hsettle
  rw [hpool] at hoffsets
  exact ⟨htally, hsettles, hoffsets⟩

/-- The invariant rule: what holds initially and is kept by the moves that transactions under the
condition may make, holds in every state that runs under the condition reach. -/
theorem ReachableWhen.ledger_invariant (hd : d.Wired) (Inv : Ledger → Prop)
    (hinit : ∀ s, IsInitial d s → Inv (s.ledger .none))
    (hmove : ∀ s t L label L', cond s t → Inv (s.ledger .none) → L.Consistent d → Inv L →
      Permitted d s t L label → Ledger.Move d L label L' → Inv L')
    (h : ReachableWhen d cond s) : Inv (s.ledger .none) := by
  refine Lib.Reachable.invariant (fun s => Inv (s.ledger .none)) hinit ?_ h
  intro s t s' hr hinv hcond hstep
  have hs := Reachable.sound hd (ReachableWhen.reachable hr)
  exact (step_evolves hd hs hstep).run.invariant hd Inv
    (fun L label L' hbooks hL hallow hm => hmove s t L label L' hcond hinv hbooks hL hallow hm)
    hs.books hinv

end Liquity
