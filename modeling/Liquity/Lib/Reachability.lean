import Mathlib.Algebra.Order.Ring.Nat
import Mathlib.Tactic.Common

/-!
# Reachable states

States reached from a set of initial states by steps whose labels meet a condition, and the
induction that proves an invariant of all of them.
-/

namespace Lib

/-- `Reachable init step cond s`: some run from an initial state, each of whose steps meets
`cond`, ends in `s`. -/
inductive Reachable {σ ι : Type} (init : σ → Prop) (step : σ → ι → σ → Prop)
    (cond : σ → ι → Prop) : σ → Prop
  | init {s : σ} : init s → Reachable init step cond s
  | step {s s' : σ} {i : ι} :
      Reachable init step cond s → cond s i → step s i s' → Reachable init step cond s'

namespace Reachable

variable {σ ι : Type} {init : σ → Prop} {step : σ → ι → σ → Prop} {cond cond' : σ → ι → Prop}

/-- A property that holds initially and that every step keeps holds in every reachable state. -/
theorem invariant (Inv : σ → Prop) (hinit : ∀ s, init s → Inv s)
    (hstep : ∀ s i s', Reachable init step cond s → Inv s → cond s i → step s i s' → Inv s')
    {s : σ} (h : Reachable init step cond s) : Inv s := by
  induction h with
  | init h => exact hinit _ h
  | step hr hc hs ih => exact hstep _ _ _ hr ih hc hs

/-- Weakening the condition on steps only adds runs. -/
theorem mono (hcond : ∀ s i, cond s i → cond' s i) {s : σ} (h : Reachable init step cond s) :
    Reachable init step cond' s := by
  induction h with
  | init h => exact .init h
  | step _ hc hs ih => exact .step ih (hcond _ _ hc) hs

/-- What the condition implies in the states of its own runs can replace it. -/
theorem mono_of_reachable
    (hcond : ∀ s i, Reachable init step cond s → cond s i → cond' s i) {s : σ}
    (h : Reachable init step cond s) : Reachable init step cond' s := by
  induction h with
  | init h => exact .init h
  | step hr hc hs ih => exact .step ih (hcond _ _ hr hc) hs

/-- Runs compose. -/
theorem trans {s t u : σ} (h : Reachable (fun x => x = s) step cond t)
    (h' : Reachable (fun x => x = t) step cond u) : Reachable (fun x => x = s) step cond u := by
  induction h' with
  | init h' => exact h' ▸ h
  | step _ hc hs ih => exact .step ih hc hs

end Reachable

end Lib
