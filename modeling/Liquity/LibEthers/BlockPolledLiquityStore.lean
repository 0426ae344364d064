import Liquity.LibBase.LiquityStore

/-!
# `BlockPolledLiquityStore`

What `start` sets in motion, as a machine.  Its steps are the events that the provider, the timers
and the outstanding fetches can raise, in any order, and the call of the returned stop function.
-/

namespace Liquity.LibEthers

open LibBase

structure ExtraState where
  blockTag : Option Nat
  blockTimestamp : Nat
  /-- The numbers that `_feesFactory` closes over. -/
  lastFeeOperationTime : Nat
  baseRateWithoutDecay : Nat
  deriving DecidableEq

def reduceExtra (oldState stateUpdate : ExtraState) : ExtraState :=
  { stateUpdate with blockTag := stateUpdate.blockTag.or oldState.blockTag }

/-- A call of `_get` that has not been answered. -/
inductive Fetch where
  /-- The one that `_doStart` makes first, without a block tag. -/
  | initial
  | block (blockTag : Nat)
  deriving DecidableEq

def Fetch.blockTag : Fetch → Option Nat
  | .initial => none
  | .block blockTag => some blockTag

/-- The answer to a call of `_get`, whatever the provider says, and the time when it comes. -/
structure FetchResult (schema : StoreSchema) where
  now : Nat
  baseState : schema.BaseState
  blockTimestamp : Nat
  lastFeeOperationTime : Nat
  baseRateWithoutDecay : Nat

structure BlockPolledLiquityStore (schema : StoreSchema) where
  store : LiquityStore schema ExtraState
  /-- `blockListener` is registered with the provider. -/
  listening : Bool
  latestBlock : Option Nat
  /-- The 50 millisecond timer of `timerId` is running. -/
  timer : Bool
  outstanding : List Fetch

namespace BlockPolledLiquityStore

variable {schema : StoreSchema}

inductive Event (schema : StoreSchema) where
  | block (blockTag : Nat)
  | debounceTimer
  | updateTimer (now : Nat)
  /-- The fetch at this position is answered. -/
  | fetched (i : Nat) (result : FetchResult schema)
  | fetchFailed (i : Nat)
  | stop

/-- The state right after `start`. -/
def start : BlockPolledLiquityStore schema :=
  { store := .initial, listening := true, latestBlock := none, timer := false
    outstanding := [.initial] }

def blockTag (p : BlockPolledLiquityStore schema) : Option Nat :=
  p.store.state.bind fun state => state.extraState.blockTag

def extraState (fetch : Fetch) (result : FetchResult schema) : ExtraState :=
  { blockTag := fetch.blockTag
    blockTimestamp := result.blockTimestamp
    lastFeeOperationTime := result.lastFeeOperationTime
    baseRateWithoutDecay := result.baseRateWithoutDecay }

/-- What is done with the answer to a fetch. -/
def handleFetched (fetch : Fetch) (result : FetchResult schema)
    (store : LiquityStore schema ExtraState) : LiquityStore schema ExtraState :=
  match store.state, fetch with
  | none, _ => store.load result.now result.baseState (extraState fetch result)
  | some _, .initial => store
  | some state, .block _ =>
    store.update reduceExtra result.now (some (result.baseState, extraState fetch result)) state

def step (p : BlockPolledLiquityStore schema) : Event schema → Option (BlockPolledLiquityStore schema)
  | .block blockTag =>
    if p.listening then
      some { p with latestBlock := some (max blockTag (p.latestBlock.getD blockTag)), timer := true }
    else none
  | .debounceTimer =>
    match p.timer, p.latestBlock with
    | true, some latestBlock =>
      some { p with timer := false, outstanding := p.outstanding ++ [.block latestBlock] }
    | _, _ => none
  | .updateTimer now =>
    match p.store.updateScheduled, p.store.state with
    | true, some state => some { p with store := p.store.update reduceExtra now none state }
    | _, _ => none
  | .fetched i result =>
    p.outstanding[i]?.map fun fetch =>
      { p with
        store := handleFetched fetch result p.store
        outstanding := p.outstanding.eraseIdx i }
  | .fetchFailed i =>
    if i < p.outstanding.length then some { p with outstanding := p.outstanding.eraseIdx i } else none
  | .stop =>
    -- outstanding fetches stay outstanding
    some { p with
      listening := false, timer := false, store := p.store.cancelUpdateIfScheduled }

/-- The state after a sequence of events, if each of them can happen when its turn comes. -/
def run (events : List (Event schema)) : Option (BlockPolledLiquityStore schema) :=
  events.foldlM step start

end BlockPolledLiquityStore

end Liquity.LibEthers
