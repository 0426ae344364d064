import Liquity.Subgraph.Runs

/-!
# The subgraph's totals

The subgraph computes the totals of the system from the events of single troves.  In a run whose logs tell
the snapshots of all troves that they report, the totals are those of the contracts.
-/

open Lib

namespace Liquity

namespace Subgraph

variable {d : Deployment} {s : System} {log : List Event} {g : Store} {p : Option Nat} {exact : Prop}

/-- The subgraph's totals are the ones that the contracts return. -/
structure TotalsEqual (g : Store) (s : System) : Prop where
  totalCollateral : ∀ coll, s.getEntireSystemColl = .ok coll →
    g.systemState.totalCollateral = decimalize coll
  totalDebt : ∀ debt, s.getEntireSystemDebt = .ok debt → g.systemState.totalDebt = decimalize debt
  tokensInStabilityPool :
    g.systemState.tokensInStabilityPool = decimalize s.stabilityPool.totalLUSDDeposits

theorem Mirrors.totalsEqual (h : Mirrors g (view exact p s)) : TotalsEqual g s where
  totalCollateral coll hcoll := by
    obtain ⟨-, rfl⟩ := SafeMath.add_ok.mp hcoll
    exact h.totalCollateral
  totalDebt debt hdebt := by
    obtain ⟨-, rfl⟩ := SafeMath.add_ok.mp hdebt
    exact h.totalDebt
  tokensInStabilityPool := h.tokensInStabilityPool

/-- In every run each of whose transactions tells the snapshots of the troves that it reports, the log is
replayed to the totals of the contracts. -/
theorem totals_mirrored (hd : d.Wired) (h : LoggedRun d SnapshotsFollow s log) :
    ∃ g, Store.empty.replay log = some g ∧ TotalsEqual g s := by
  have hfollow : True → ∀ t log, SnapshotsFollow t log → SnapshotsFollow t log := fun _ _ _ h => h
  obtain ⟨g, p, hg, -, hmirrors⟩ := loggedRun_replay hd hfollow h
  exact ⟨g, hg, (hmirrors trivial).totalsEqual⟩

/-- A trove is liquidated against the Stability Pool, a debt is redistributed, and then a trove is
adjusted that has rewards of both kinds. -/
theorem totals_mirrored_redistribution :
    ∃ s log, LoggedRun sampleDeployment SnapshotsFollow s log ∧ log.length = 15 ∧
      ∃ g, Store.empty.replay log = some g ∧ TotalsEqual g s := by
  obtain ⟨s, log, h, hlength⟩ := exists_loggedRun SnapshotsFollow (sampleOpenings ++
    [⟨⟨103, 10 ^ 20, 0, 2000 * 10 ^ 18⟩, .openTrove (10 ^ 18) (4000 * 10 ^ 18) 0 0⟩,
      ⟨⟨101, 0, 0, 2000 * 10 ^ 18⟩, .provideToSP (500 * 10 ^ 18) 0⟩,
      ⟨⟨101, 0, 0, 1800 * 10 ^ 18⟩, .liquidate 102⟩,
      ⟨⟨101, 10 ^ 18, 0, 2000 * 10 ^ 18⟩, .addColl 0 0⟩]) (fun r => r.2.length = 15)
    (by decide +kernel)
  exact ⟨s, log, h, hlength, totals_mirrored sampleDeployment_wired h⟩

/-- A debt of 10000 is redistributed with too little collateral to move its accumulator.  A trove that is
adjusted then keeps its snapshot of the debt, the subgraph takes a new one, and when the trove is
liquidated the subgraph misses the debt that was pending. -/
theorem totals_missed : ¬ ∀ (d : Deployment) (s : System) (log : List Event), d.Wired →
    LoggedRun d (fun _ _ => True) s log →
      ∃ g, Store.empty.replay log = some g ∧ TotalsEqual g s := by
  intro hall
  obtain ⟨s, log, h, hmissed⟩ := exists_loggedRun (fun _ _ => True) (sampleOpenings ++
    [⟨⟨103, 10 ^ 20, 0, 2000 * 10 ^ 18⟩, .openTrove (10 ^ 18) (4000 * 10 ^ 18) 0 0⟩,
      ⟨⟨101, 0, 0, 2000 * 10 ^ 18⟩, .provideToSP (10055 * 10 ^ 17 - 10000) 0⟩,
      ⟨⟨101, 0, 0, 1800 * 10 ^ 18⟩, .liquidate 102⟩,
      ⟨⟨101, 10 ^ 18, 0, 2000 * 10 ^ 18⟩, .addColl 0 0⟩,
      ⟨⟨103, 0, 0, 2000 * 10 ^ 18⟩, .provideToSP (3500 * 10 ^ 18) 0⟩,
      ⟨⟨103, 0, 0, 300 * 10 ^ 18⟩, .liquidate 101⟩])
    (fun r => (Store.empty.replay r.2).any (fun g => r.1.getEntireSystemDebt.toOption.any fun (debt : Nat) =>
      decide (g.systemState.totalDebt ≠ decimalize debt)) = true) (by decide +kernel)
  obtain ⟨g, hg, hmissed⟩ := (Option.any_eq_true _ _).mp hmissed
  obtain ⟨debt, hdebt, hne⟩ := exists_ok hmissed
  obtain ⟨g', hg', htotals⟩ := hall sampleDeployment s log sampleDeployment_wired h
  cases hg.symm.trans hg'
  exact hne (htotals.totalDebt debt hdebt)

end Subgraph

end Liquity
