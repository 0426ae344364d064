import Liquity.Lib.Counting
import Liquity.Subgraph

/-!
# Counting troves in the subgraph

What the counters count, and what saving a trove does to them.  They are right as long as no status of a
closed trove is changed for another one: a trove is reopened before it is closed again.
-/

open Lib

namespace Liquity.Subgraph

variable {g : Store} {b : Address} {status : TroveStatus}

namespace Store

/-- The status of a trove that was saved. -/
def statusOf (g : Store) (x : Address) : Option TroveStatus := (g.troves x).map Trove.status

/-- The number of troves with a status. -/
def numberWith (status : TroveStatus) (g : Store) : Nat := countEntries (· = some status) g.statusOf

/-- The number of all troves. -/
def numberOfTroves (g : Store) : Nat := countEntries (· ≠ none) g.statusOf

end Store

/-- The counter of a status. -/
def Global.numberOf (global : Global) : TroveStatus → Int32
  | .«open» => global.numberOfOpenTroves
  | .closedByOwner => global.numberOfTrovesClosedByOwner
  | .closedByLiquidation => global.numberOfLiquidatedTroves
  | .closedByRedemption => global.numberOfRedeemedTroves

/-- The counters are the numbers of troves. -/
structure Store.Counted (g : Store) : Prop where
  numberOf : ∀ status, g.global.numberOf status = Int32.ofNat (g.numberWith status)
  total : g.global.totalNumberOfTroves = Int32.ofNat g.numberOfTroves

theorem Store.empty_counted : Store.empty.Counted := by
  have hwith : ∀ status, Store.empty.numberWith status = 0 :=
    fun status => countEntries_eq_zero _ _ fun _ => nofun
  have htotal : Store.empty.numberOfTroves = 0 := countEntries_eq_zero _ _ fun _ h => h rfl
  refine ⟨fun status => ?_, ?_⟩
  · rw [hwith]
    cases status <;> rfl
  · rw [htotal]
    rfl

/-- Every trove has one of the four statuses. -/
theorem Store.numberOfTroves_eq (g : Store) :
    g.numberOfTroves = g.numberWith .«open» + g.numberWith .closedByLiquidation +
      g.numberWith .closedByRedemption + g.numberWith .closedByOwner := by
  unfold Store.numberWith
  rw [← countEntries_or, ← countEntries_or, ← countEntries_or]
  · refine countEntries_congr _ _ fun x => ?_
    cases g.statusOf x with
    | none => simp
    | some status => cases status <;> simp
  all_goals rintro _ h rfl; simp at h

/-! ## Saving a trove -/

/-- What `updateTrove` leaves. -/
def Store.saveTrove (borrower : Address) (trove : Trove) (systemState : SystemState) (global : Global)
    (g : Store) : Store :=
  { g with systemState, global, troves := Function.update g.troves borrower (some trove) }

theorem statusOf_saveTrove (g : Store) (b : Address) (trove : Trove) (systemState : SystemState)
    (global : Global) : (g.saveTrove b trove systemState global).statusOf =
      Function.update g.statusOf b (some trove.status) := by
  funext x
  by_cases hx : x = b
  · subst hx
    simp [Store.statusOf, Store.saveTrove]
  · simp [Store.statusOf, Store.saveTrove, Function.update_of_ne hx]

theorem numberWith_saveTrove (g : Store) (b : Address) (trove : Trove) (systemState : SystemState)
    (global : Global) (status : TroveStatus) :
    (g.saveTrove b trove systemState global).numberWith status +
        (if g.statusOf b = some status then 1 else 0) =
      g.numberWith status + if trove.status = status then 1 else 0 := by
  have h := countEntries_update_add (· = some status) g.statusOf b (some trove.status)
  rw [← statusOf_saveTrove g b trove systemState global] at h
  simp only [Option.some.injEq] at h
  exact h

theorem numberOfTroves_saveTrove (g : Store) (b : Address) (trove : Trove) (systemState : SystemState)
    (global : Global) :
    (g.saveTrove b trove systemState global).numberOfTroves +
        (if g.statusOf b ≠ none then 1 else 0) = g.numberOfTroves + 1 := by
  have h := countEntries_update_add (· ≠ none) g.statusOf b (some trove.status)
  rw [← statusOf_saveTrove g b trove systemState global] at h
  simp only [ne_eq, reduceCtorEq, not_false_eq_true, if_true] at h
  exact h

/-- The counters follow a change from or to `open`. -/
theorem numberOf_countStatusChange {statusBefore : TroveStatus} (global : Global)
    (hne : status ≠ statusBefore) (hopen : statusBefore = .«open» ∨ status = .«open») (q : TroveStatus) :
    (countStatusChange statusBefore status global).numberOf q + (if statusBefore = q then 1 else 0) =
      global.numberOf q + if status = q then 1 else 0 := by
  rcases hopen with rfl | rfl
  · cases status with
    | «open» => exact absurd rfl hne
    | _ => cases q <;> simp [countStatusChange, Global.numberOf,
        Global.increaseNumberOfTrovesClosedByOwner, Global.increaseNumberOfLiquidatedTroves,
        Global.increaseNumberOfRedeemedTroves]
  · cases statusBefore with
    | «open» => exact absurd rfl hne
    | _ => cases q <;> simp [countStatusChange, Global.numberOf,
        Global.decreaseNumberOfTrovesClosedByOwner, Global.decreaseNumberOfLiquidatedTroves,
        Global.decreaseNumberOfRedeemedTroves]

/-- Finding a trove counts it if it is new, as an open one. -/
theorem getTrove_counts (h : g.Counted) (b : Address) (q : TroveStatus) :
    (g.getTrove b).2.global.numberOf q + (if g.statusOf b = some q then 1 else 0) =
        Int32.ofNat (g.numberWith q) + (if (g.getTrove b).1.status = q then 1 else 0) ∧
      (g.getTrove b).2.global.totalNumberOfTroves + (if g.statusOf b ≠ none then 1 else 0) =
        Int32.ofNat g.numberOfTroves + 1 := by
  unfold Store.statusOf Store.getTrove
  cases g.troves b with
  | none =>
    rw [← h.numberOf, ← h.total]
    cases q <;> simp [Global.numberOf, Global.increaseNumberOfOpenTroves, Store.newTrove]
  | some trove => simp [h.numberOf, h.total]

theorem setTroveStatus_status (trove : Trove) (status : TroveStatus) (global : Global) :
    (setTroveStatus trove status global).1 = { trove with status } := by
  unfold setTroveStatus
  split
  · rfl
  next heq =>
    rw [not_not.mp heq]

theorem setTroveStatus_total (trove : Trove) (status : TroveStatus) (global : Global) :
    (setTroveStatus trove status global).2.totalNumberOfTroves = global.totalNumberOfTroves := by
  unfold setTroveStatus
  split
  · unfold countStatusChange
    cases status with
    | «open» => cases trove.status <;> rfl
    | _ => rfl
  · rfl

theorem setTroveStatus_numberOf (trove : Trove) (global : Global)
    (hopen : trove.status = .«open» ∨ status = .«open») (q : TroveStatus) :
    (setTroveStatus trove status global).2.numberOf q + (if trove.status = q then 1 else 0) =
      global.numberOf q + if status = q then 1 else 0 := by
  unfold setTroveStatus
  split
  next hne => exact numberOf_countStatusChange global hne hopen q
  next heq => rw [not_not.mp heq]

theorem ofNat_ite (p : Prop) [Decidable p] :
    Int32.ofNat (if p then 1 else 0) = if p then 1 else 0 := by
  split <;> rfl

/-- A trove that gets its status from `setTroveStatus` keeps the counters right. -/
theorem Store.Counted.save (h : g.Counted) {trove : Trove} (systemState : SystemState)
    (htrove : trove.status = (g.getTrove b).1.status)
    (hclosing : status ≠ .«open» → g.statusOf b = some .«open») :
    (g.saveTrove b (setTroveStatus trove status (g.getTrove b).2.global).1 systemState
      (setTroveStatus trove status (g.getTrove b).2.global).2).Counted := by
  have hopen : trove.status = .«open» ∨ status = .«open» := by
    by_cases hst : status = .«open»
    · exact .inr hst
    · left
      have hfound := hclosing hst
      unfold Store.statusOf at hfound
      rw [htrove, Store.getTrove]
      cases hget : g.troves b with
      | none => rfl
      | some trove =>
        rw [hget] at hfound
        exact Option.some.inj hfound
  constructor
  · intro q
    obtain ⟨hfound, -⟩ := getTrove_counts h b q
    have hstatus := @setTroveStatus_numberOf status trove (g.getTrove b).2.global hopen q
    have hnumber := congrArg Int32.ofNat (numberWith_saveTrove g b
      (setTroveStatus trove status (g.getTrove b).2.global).1 systemState
      (setTroveStatus trove status (g.getTrove b).2.global).2 q)
    rw [Int32.ofNat_add, Int32.ofNat_add, ofNat_ite, ofNat_ite] at hnumber
    rw [setTroveStatus_status] at hnumber ⊢
    rw [htrove] at hstatus
    change (setTroveStatus trove status (g.getTrove b).2.global).2.numberOf q = _
    dsimp only at hnumber
    grind
  · obtain ⟨-, hfound⟩ := getTrove_counts h b .«open»
    have hnumber := congrArg Int32.ofNat (numberOfTroves_saveTrove g b
      (setTroveStatus trove status (g.getTrove b).2.global).1 systemState
      (setTroveStatus trove status (g.getTrove b).2.global).2)
    rw [Int32.ofNat_add, Int32.ofNat_add, ofNat_ite] at hnumber
    change (setTroveStatus trove status (g.getTrove b).2.global).2.totalNumberOfTroves = _
    rw [setTroveStatus_total]
    have hone : Int32.ofNat 1 = 1 := rfl
    grind

end Liquity.Subgraph
