import Liquity.Subgraph.Runs

/-!
# The subgraph's counters of troves

After every run of the contracts, the counters of the subgraph are the numbers of its troves, and its open
troves are the active ones of the contracts.
-/

open Lib

namespace Liquity

namespace Subgraph

variable {d : Deployment} {s : System} {log : List Event} {g : Store} {v : View}

/-- The number of active troves of the contracts. -/
def numberOfActiveTroves (t : TroveManager) : Nat :=
  countEntries (· = .active) fun x => (t.troves x).status

theorem numberOfActiveTroves_eq {t : TroveManager} {order : List Address} (h : t.Registered order) :
    numberOfActiveTroves t = t.troveOwners.length := by
  have howners : (Finset.univ.filter fun x => (t.troves x).status = .active) = t.troveOwners.toFinset := by
    ext x
    simp [h.mem_owners]
  rw [numberOfActiveTroves, countEntries, howners, List.toFinset_card_of_nodup h.owners_nodup]

theorem entityStatus_open (status : Status) : entityStatus status = some .«open» ↔ status = .active := by
  cases status <;> decide

/-- The open troves of the subgraph are the active ones of the contracts. -/
theorem Indexes.numberWith_open (h : Indexes g v) :
    g.numberWith .«open» = numberOfActiveTroves v.troveManager := by
  refine countEntries_congr _ _ fun x => ?_
  rw [h.status]
  exact entityStatus_open _

/-- The counters add up, as the numbers of troves do. -/
theorem Store.Counted.total_eq (h : g.Counted) :
    g.global.totalNumberOfTroves = g.global.numberOfOpenTroves + g.global.numberOfLiquidatedTroves +
      g.global.numberOfRedeemedTroves + g.global.numberOfTrovesClosedByOwner := by
  rw [h.total, g.numberOfTroves_eq, Int32.ofNat_add, Int32.ofNat_add, Int32.ofNat_add]
  rw [← h.numberOf, ← h.numberOf, ← h.numberOf, ← h.numberOf]
  rfl

/-- After every run, each counter is the number of troves with its status, the open troves are the active
ones on chain, and the total is the sum of the counters.  The counters are 32 bits wide; below 2³¹ troves
of a status they are its number itself. -/
theorem counters_eq (hd : d.Wired) (h : LoggedRun d (fun _ _ => True) s log) :
    ∃ g, Store.empty.replay log = some g ∧
      (g.global.numberOfOpenTroves = Int32.ofNat (g.numberWith .«open») ∧
        g.global.numberOfLiquidatedTroves = Int32.ofNat (g.numberWith .closedByLiquidation) ∧
        g.global.numberOfRedeemedTroves = Int32.ofNat (g.numberWith .closedByRedemption) ∧
        g.global.numberOfTrovesClosedByOwner = Int32.ofNat (g.numberWith .closedByOwner)) ∧
      (∀ status, g.numberWith status < 2 ^ 31 →
        (g.global.numberOf status).toInt = g.numberWith status) ∧
      g.numberWith .«open» = numberOfActiveTroves s.troveManager ∧
      g.numberWith .«open» = s.troveManager.troveOwners.length ∧
      g.global.totalNumberOfTroves = g.global.numberOfOpenTroves + g.global.numberOfLiquidatedTroves +
        g.global.numberOfRedeemedTroves + g.global.numberOfTrovesClosedByOwner := by
  obtain ⟨g, p, hg, hindexes, -⟩ := loggedRun_replay hd False.elim h
  have hcounted := hindexes.counted
  have hactive : g.numberWith .«open» = numberOfActiveTroves s.troveManager := hindexes.numberWith_open
  refine ⟨g, hg, ⟨hcounted.numberOf .«open», hcounted.numberOf .closedByLiquidation,
    hcounted.numberOf .closedByRedemption, hcounted.numberOf .closedByOwner⟩, fun status hlt => ?_,
    hactive, ?_, hcounted.total_eq⟩
  · rw [hcounted.numberOf]
    exact Int32.toInt_ofNat_of_lt hlt
  · rw [hactive]
    exact numberOfActiveTroves_eq (h.reachable.sound hd).registered

/-- Three troves are opened, one of them is liquidated and one is closed by its owner. -/
theorem counters_eq_liquidation : ∃ s log, LoggedRun sampleDeployment (fun _ _ => True) s log ∧
    log.length = 13 ∧ ∃ g, Store.empty.replay log = some g ∧
      g.global.numberOfOpenTroves = Int32.ofNat (g.numberWith .«open») ∧
      g.numberWith .«open» = s.troveManager.troveOwners.length := by
  obtain ⟨s, log, h, hlength⟩ := exists_loggedRun (fun _ _ => True) (sampleOpenings ++
    [⟨⟨103, 10 ^ 19, 0, 2000 * 10 ^ 18⟩, .openTrove (10 ^ 18) (2000 * 10 ^ 18) 0 0⟩,
      ⟨⟨104, 0, 0, 1000 * 10 ^ 18⟩, .liquidate 102⟩,
      ⟨⟨101, 0, 0, 2000 * 10 ^ 18⟩, .transferLUSD 103 (1000 * 10 ^ 18)⟩,
      ⟨⟨103, 0, 0, 2000 * 10 ^ 18⟩, .closeTrove⟩]) (fun r => r.2.length = 13) (by decide +kernel)
  obtain ⟨g, hg, hcounters, -, -, howners, -⟩ := counters_eq sampleDeployment_wired h
  exact ⟨s, log, h, hlength, g, hg, hcounters.1, howners⟩

end Subgraph

end Liquity
