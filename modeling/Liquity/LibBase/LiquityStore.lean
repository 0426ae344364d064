import Mathlib.Algebra.Order.Ring.Nat
import Mathlib.Tactic.Common

/-!
# `LiquityStore`

The store as a value.  `_loaded` becomes true when base, derived and extra state are first set, and
none of them is ever unset, so the four are one optional record here.
-/

namespace Liquity.LibBase

/-- The fields of the base state with their comparisons, and what is derived from them. -/
structure StoreSchema where
  Field : Type
  Value : Type
  Derived : Type
  equals : Field → Value → Value → Bool
  /-- Some of the derived state, like the decayed base rate, depends on the time of its derivation. -/
  derive : Nat → (Field → Value) → Derived
  reduceDerived : Derived → Derived → Derived

abbrev StoreSchema.BaseState (schema : StoreSchema) : Type := schema.Field → schema.Value

/-- `state` of a loaded store, with extra state of type `ε`. -/
structure LoadedState (schema : StoreSchema) (ε : Type) where
  baseState : schema.BaseState
  derivedState : schema.Derived
  extraState : ε

/-- The calls that a store makes to the functions registered with it. -/
inductive StoreCall (schema : StoreSchema) (ε : Type) where
  | onLoaded
  | listener (newState oldState : LoadedState schema ε)

structure LiquityStore (schema : StoreSchema) (ε : Type) where
  state : Option (LoadedState schema ε)
  /-- The 30 second timer of `_updateTimeoutId` is running. -/
  updateScheduled : Bool
  /-- The calls made so far, the latest first. -/
  calls : List (StoreCall schema ε)

namespace LiquityStore

variable {schema : StoreSchema} {ε : Type}

def initial : LiquityStore schema ε := ⟨none, false, []⟩

def loaded (store : LiquityStore schema ε) : Bool := store.state.isSome

def cancelUpdateIfScheduled (store : LiquityStore schema ε) : LiquityStore schema ε :=
  { store with updateScheduled := false }

def scheduleUpdate (store : LiquityStore schema ε) : LiquityStore schema ε :=
  { store.cancelUpdateIfScheduled with updateScheduled := true }

def updateIfChanged {α : Type} (equals : α → α → Bool) (prev next : α) : α :=
  if equals prev next then prev else next

def reduce (baseState baseStateUpdate : schema.BaseState) : schema.BaseState := fun field =>
  updateIfChanged (schema.equals field) (baseState field) (baseStateUpdate field)

/-- `_load` of a store that is not loaded. -/
def load (now : Nat) (baseState : schema.BaseState) (extraState : ε)
    (store : LiquityStore schema ε) : LiquityStore schema ε :=
  let store := { store with state := some ⟨baseState, schema.derive now baseState, extraState⟩ }
  { store.scheduleUpdate with calls := .onLoaded :: store.calls }

/-- The state that `_update` computes; the timer calls it without an update. -/
def updatedState (reduceExtra : ε → ε → ε) (now : Nat) (update : Option (schema.BaseState × ε))
    (oldState : LoadedState schema ε) : LoadedState schema ε :=
  let baseState := (update.map fun u => reduce oldState.baseState u.1).getD oldState.baseState
  { baseState
    derivedState := schema.reduceDerived oldState.derivedState (schema.derive now baseState)
    extraState :=
      (update.map fun u => reduceExtra oldState.extraState u.2).getD oldState.extraState }

/-- `_update` of a loaded store. -/
def update (reduceExtra : ε → ε → ε) (now : Nat) (update : Option (schema.BaseState × ε))
    (oldState : LoadedState schema ε) (store : LiquityStore schema ε) : LiquityStore schema ε :=
  let newState := updatedState reduceExtra now update oldState
  let store := { store with state := some newState }
  { store.scheduleUpdate with calls := .listener newState oldState :: store.calls }

end LiquityStore

end Liquity.LibBase
