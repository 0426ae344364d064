import Liquity.Subgraph.Steps
import Liquity.Traces

/-!
# Runs and their logs

A run collects the events of its transactions.  Replaying them takes the empty store to one that follows
the contracts as the run leaves them.
-/

open Lib

namespace Liquity

open TroveManager

namespace Subgraph

/-- A run of the contracts and its log.  Each transaction meets `cond`, as for the state that it starts in
and the events that it emits. -/
abbrev LoggedRun (d : Deployment) (cond : TroveManager → List Event → Prop) :
    System → List Event → Prop :=
  TracedRun d (fun s t s' => cond s.troveManager (t.log d s s')) []
    fun s t s' log => log ++ t.log d s s'

variable {d : Deployment} {cond : TroveManager → List Event → Prop} {exact : Prop} {s : System}
  {log : List Event}

/-! ## The first state -/

theorem IsInitial.indexes (h : IsInitial d s) : Indexes Store.empty (view exact none s) := by
  obtain ⟨ether, timestamp, -, rfl⟩ := h
  have hzero : (0 : ℚ) = decimalize (0 : ℕ) := decimalize_zero.symm
  refine ⟨rfl, rfl, rfl, rfl, fun x => ⟨hzero, hzero, rfl, rfl, rfl⟩, fun _ => rfl,
    fun _ => ⟨Int.le_refl _, Int.le_refl _⟩, Store.empty_counted⟩

theorem IsInitial.mirrors (h : IsInitial d s) : Mirrors Store.empty (view exact none s) := by
  obtain ⟨ether, timestamp, -, rfl⟩ := h
  have hzero : (0 : ℚ) = decimalize (0 : ℕ) := decimalize_zero.symm
  exact ⟨fun _ _ hstake => absurd rfl hstake, fun _ => hzero, hzero, hzero, hzero⟩

/-! ## Replays -/

/-- The log of a run is a log of emissions. -/
theorem loggedRun_emits (hd : d.Wired)
    (hfollow : exact → ∀ t log, cond t log → SnapshotsFollow t log) (h : LoggedRun d cond s log) :
    ∃ s₀ p, IsInitial d s₀ ∧ Emits exact (view exact none s₀) log (view exact p s) := by
  induction h with
  | init h => exact ⟨_, none, h, .nil _⟩
  | step hrun hstep hcond ih =>
    obtain ⟨s₀, p, hinit, hemits⟩ := ih
    obtain ⟨p', hemits'⟩ := step_emits hd hrun.reachable hstep
      (fun hexact => hfollow hexact _ _ hcond) p
    exact ⟨s₀, p', hinit, hemits.append hemits'⟩

theorem loggedRun_replay (hd : d.Wired)
    (hfollow : exact → ∀ t log, cond t log → SnapshotsFollow t log) (h : LoggedRun d cond s log) :
    ∃ g p, Store.empty.replay log = some g ∧ Indexes g (view exact p s) ∧
      (exact → Mirrors g (view exact p s)) := by
  obtain ⟨s₀, p, hinit, hemits⟩ := loggedRun_emits hd hfollow h
  obtain ⟨g, hg, hindexes, hmirrors⟩ := hemits.replays Store.empty (IsInitial.indexes hinit)
  exact ⟨g, p, hg, hindexes, fun hexact => hmirrors hexact (IsInitial.mirrors hinit)⟩

/-- What a run of concrete transactions reaches and emits, tested by evaluation. -/
theorem exists_loggedRun (cond : TroveManager → List Event → Prop) [∀ t log, Decidable (cond t log)]
    (transactions : List Transaction) (p : System × List Event → Prop) [DecidablePred p]
    (h : (runTraced sampleDeployment (fun s t s' => cond s.troveManager (t.log sampleDeployment s s'))
      (fun s t s' log => log ++ t.log sampleDeployment s s') transactions sampleInitial []).any
        (fun r => decide (p r)) = true) :
    ∃ s log, LoggedRun sampleDeployment cond s log ∧ p (s, log) :=
  exists_tracedRun _ [] _ transactions p h

end Subgraph

end Liquity
