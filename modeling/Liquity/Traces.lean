import Liquity.Execution

/-!
# Runs with a trace

A trace is what the transactions of a run leave behind besides the state: the events that they emit, or
an amount that they add up.
-/

open Lib

namespace Liquity

variable {M : Type} {d : Deployment} {allowed : System → Transaction → System → Prop} {start : M}
  {note : System → Transaction → System → M → M} {s s' : System} {m m' : M}

/-- A run of allowed transactions, and its trace: it begins as `start`, and each transaction notes
something in it. -/
inductive TracedRun {M : Type} (d : Deployment) (allowed : System → Transaction → System → Prop)
    (start : M) (note : System → Transaction → System → M → M) : System → M → Prop
  | init {s : System} (h : IsInitial d s) : TracedRun d allowed start note s start
  | step {s s' : System} {t : Transaction} {m : M} (h : TracedRun d allowed start note s m)
      (hstep : Step d s t s') (hallowed : allowed s t s') :
      TracedRun d allowed start note s' (note s t s' m)

namespace TracedRun

theorem reachable (h : TracedRun d allowed start note s m) : Reachable d s := by
  induction h with
  | init h => exact .init h
  | step _ hstep _ ih => exact .step ih trivial hstep

/-- Every reachable state is the end of a run with a trace. -/
theorem exists_of_reachable (h : Reachable d s) :
    ∃ m, TracedRun d (fun _ _ _ => True) start note s m := by
  refine Lib.Reachable.invariant (fun s => ∃ m, TracedRun d (fun _ _ _ => True) start note s m)
    (fun _ h => ⟨start, .init h⟩) ?_ h
  rintro s t s' - ⟨m, hm⟩ - hstep
  exact ⟨_, .step hm hstep trivial⟩

end TracedRun

/-! ## Running concrete transactions -/

/-- The state after a sequence of transactions and the trace, if all of them are valid and allowed and
succeed. -/
def runTraced (d : Deployment) (allowed : System → Transaction → System → Prop)
    [∀ s t s', Decidable (allowed s t s')] (note : System → Transaction → System → M → M) :
    List Transaction → System → M → Option (System × M)
  | [], s, m => some (s, m)
  | t :: rest, s, m =>
    if t.Valid d s then
      match t.call.execute d t.env s with
      | .ok s' =>
        if allowed s t s' then runTraced d allowed note rest s' (note s t s' m) else none
      | .error _ => none
    else none

theorem tracedRun_of_runTraced [∀ s t s', Decidable (allowed s t s')] {transactions : List Transaction}
    (hs : TracedRun d allowed start note s m)
    (h : runTraced d allowed note transactions s m = some (s', m')) :
    TracedRun d allowed start note s' m' := by
  induction transactions generalizing s m with
  | nil =>
    cases h
    exact hs
  | cons t rest ih =>
    unfold runTraced at h
    split at h
    next hvalid =>
      split at h
      next s₁ hs₁ =>
        split at h
        next hallowed => exact ih (.step hs ⟨hvalid, hs₁⟩ hallowed) h
        next => cases h
      next => cases h
    next => cases h

/-- What a run of concrete transactions reaches and leaves behind, tested by evaluation. -/
theorem exists_tracedRun (allowed : System → Transaction → System → Prop)
    [∀ s t s', Decidable (allowed s t s')] (start : M) (note : System → Transaction → System → M → M)
    (transactions : List Transaction) (p : System × M → Prop) [DecidablePred p]
    (h : (runTraced sampleDeployment allowed note transactions sampleInitial start).any
      (fun r => decide (p r)) = true) :
    ∃ s m, TracedRun sampleDeployment allowed start note s m ∧ p (s, m) := by
  obtain ⟨⟨s, m⟩, hrun, hp⟩ := (Option.any_eq_true _ _).mp h
  exact ⟨s, m,
    tracedRun_of_runTraced (.init (isInitial_funded sampleDeployment (by decide))) hrun,
    of_decide_eq_true hp⟩

end Liquity
