import Mathlib.Tactic.Common

/-!
# `BatchedProvider`

One provider and the event loop around it.  Its steps are the calls that its users make, the moments
when the properties of a request are resolved, the timers and the answers to what was dispatched, in
any order.
-/

namespace Liquity.Providers

inductive BlockTag where
  | name (s : String)
  | number (n : Nat)
  deriving DecidableEq

def BlockTag.latest : BlockTag := .name "latest"

inductive BytesLike where
  | hex (s : String)
  | bytes (b : List UInt8)
  deriving DecidableEq

def multicallAddress : Nat → Option String
  | 1 => some "0xeefBa1e63905eF1D7ACbA5a8513c70307C1cE441"
  | 3 => some "0x53C43764255c17BD724F74c4eF150724AC50a3ed"
  | 4 => some "0x42Ad527de7d4e9d9d011aC45B31D8551f8Fe9821"
  | 5 => some "0x77dCa2C955b15e9dE4dbBCf1246B4B85b651e50e"
  | 42 => some "0x2cc8688C5f75E365aaEEb4ea8D6a480405A48D2A"
  | _ => none

/-- The two fields are asserted to be defined with `!`, which checks nothing. -/
structure CallRequest where
  target : Option String
  callData : Option BytesLike
  deriving DecidableEq

structure ResolvedTransactionRequest where
  «to» : Option String
  data : Option BytesLike
  gasLimit : Option Nat
  gasPrice : Option Nat
  value : Option Nat
  deriving DecidableEq

def batchableCall (request : ResolvedTransactionRequest) : Bool :=
  request.gasLimit.isNone && request.gasPrice.isNone && request.value.isNone

/-- The signature of `aggregate((address,bytes)[])`. -/
def aggregateSignature : String := "0x252dba42"

def batchedCall (request : ResolvedTransactionRequest) (multicallAddress : String) : Bool :=
  request.«to» == some multicallAddress &&
    match request.data with
    | some (.hex s) => aggregateSignature.toList.isPrefixOf s.toList
    | _ => false

/-- The `resolve` and `reject` of the promise that a caller of `call` holds.  The promise goes by
the number of the call; what was asked for is kept with it and read by nothing below. -/
structure Callback where
  id : Nat
  call : CallRequest
  blockTag : Option BlockTag
  deriving DecidableEq

structure BatchedCalls where
  calls : List CallRequest
  callbacks : List Callback
  blockTag : Option BlockTag

def emptyBatch : BatchedCalls := { calls := [], callbacks := [], blockTag := none }

/-- What the chain returns for a call at a block. -/
abbrev Chain (Data : Type) := BlockTag → CallRequest → Data

/-- What a promise was settled with; `results[i]` is undefined past the end of the results. -/
inductive Outcome (Data Reason : Type) where
  | resolved (result : Option Data)
  | rejected (error : Reason)
  | typeError
  deriving DecidableEq

structure BatchedProvider (Data Reason : Type) where
  chainId : Nat
  multicall : Option String
  timeoutId : Option Nat
  batched : BatchedCalls
  numberOfBatchedCalls : Nat
  numberOfActualCalls : Nat
  timeOfLastRatioCheck : Option Nat
  /-- The number of calls made so far. -/
  numberOfCalls : Nat
  /-- The calls that wait for the properties of their request. -/
  resolving : List Nat
  /-- The calls that the multicall contract made for a batch. -/
  aggregates : List Nat
  /-- The timers that are running. -/
  timers : List Nat
  nextTimerId : Nat
  /-- The calls whose promise is the one that `super.call` returned. -/
  forwarded : List Nat
  /-- Every call that was ever enqueued. -/
  enqueued : List Callback
  /-- The batches that are not answered yet. -/
  dispatched : List BatchedCalls
  settled : List (Callback × Outcome Data Reason)

namespace BatchedProvider

variable {Data Reason : Type}

inductive Event (Data Reason : Type) where
  | setChainId (chainId : Nat)
  | call (now : Nat)
  | resolved (id : Nat) (request : ResolvedTransactionRequest) (blockTag : Option BlockTag)
  | unresolvable (id : Nat)
  | timer (id : Nat) (now : Nat)
  /-- The batch at this position is answered, by the chain or with an error. -/
  | answered (i : Nat) (answer : Except Reason (Chain Data))

def initial : BatchedProvider Data Reason :=
  { chainId := 0, multicall := none, timeoutId := none, batched := emptyBatch
    numberOfBatchedCalls := 0, numberOfActualCalls := 0, timeOfLastRatioCheck := none
    numberOfCalls := 0, resolving := [], aggregates := [], timers := [], nextTimerId := 0
    forwarded := [], enqueued := [], dispatched := [], settled := [] }

/-- Once the contract is there, the setter throws. -/
def setChainId (p : BatchedProvider Data Reason) (chainId : Nat) : BatchedProvider Data Reason :=
  if p.multicall.isSome then p
  else { p with chainId := chainId, multicall := multicallAddress chainId }

def clearTimeout (p : BatchedProvider Data Reason) (id : Nat) : BatchedProvider Data Reason :=
  { p with timers := p.timers.filter (· ≠ id) }

def reject (callbacks : List Callback) (outcome : Outcome Data Reason)
    (p : BatchedProvider Data Reason) : BatchedProvider Data Reason :=
  { p with settled := p.settled ++ callbacks.map fun callback => (callback, outcome) }

/-- The check of the batching ratio, which only resets the counters. -/
def checkRatio (p : BatchedProvider Data Reason) (now : Nat) : BatchedProvider Data Reason :=
  match p.timeOfLastRatioCheck with
  | none => { p with timeOfLastRatioCheck := some now }
  | some last =>
    if last + 10000 ≤ now ∧ p.numberOfActualCalls ≠ 0 then
      { p with
        numberOfBatchedCalls := 0, numberOfActualCalls := 0, timeOfLastRatioCheck := some now }
    else p

/-- `call` up to the point where it awaits the properties of its request. -/
def call (p : BatchedProvider Data Reason) (now : Nat) : BatchedProvider Data Reason :=
  let id := p.numberOfCalls
  let p := { p with numberOfCalls := id + 1 }
  match p.multicall with
  | none => { p with forwarded := p.forwarded ++ [id] }
  | some _ =>
    let p := p.checkRatio now
    { p with resolving := p.resolving ++ [id] }

def dispatchCalls (p : BatchedProvider Data Reason) (now : Nat) : BatchedProvider Data Reason :=
  let batch := p.batched
  let p := { p with batched := emptyBatch }
  match batch.calls, p.multicall with
  -- `calls[0].target` or `this._multicall!.callStatic` throws, which is caught
  | [], _ => reject batch.callbacks .typeError p
  | _ :: _ :: _, none => reject batch.callbacks .typeError p
  -- the contract sends its `aggregate` through `call` of this provider
  | _ :: _ :: _, some _ =>
    { p with
      dispatched := p.dispatched ++ [batch]
      aggregates := p.aggregates ++ [p.numberOfCalls] }.call now
  | [_], _ => { p with dispatched := p.dispatched ++ [batch] }

/-- `aggregate` returns one result for each call, in order. -/
def aggregate (chain : Chain Data) (calls : List CallRequest) (blockTag : Option BlockTag) : List Data :=
  calls.map (chain (blockTag.getD .latest))

def superCall (chain : Chain Data) (call : CallRequest) (blockTag : Option BlockTag) : Data :=
  chain (blockTag.getD .latest) call

/-- The rest of `_dispatchCalls`, once what it awaits has come. -/
def results (chain : Chain Data) (batch : BatchedCalls) : List Data :=
  match batch.calls with
  | [call] => [superCall chain call batch.blockTag]
  | calls => aggregate chain calls batch.blockTag

def settle (answer : Except Reason (Chain Data)) (batch : BatchedCalls)
    (p : BatchedProvider Data Reason) : BatchedProvider Data Reason :=
  match answer with
  | .ok chain =>
    let results := results chain batch
    { p with
      settled := p.settled ++
        batch.callbacks.mapIdx fun i callback => (callback, .resolved results[i]?) }
  | .error error => reject batch.callbacks (.rejected error) p

def enqueueCall (p : BatchedProvider Data Reason) (call : CallRequest) (callback : Callback) :
    BatchedProvider Data Reason :=
  let p := match p.timeoutId with
    | some id => p.clearTimeout id
    | none => p
  { p with
    timeoutId := some p.nextTimerId
    timers := p.timers ++ [p.nextTimerId]
    nextTimerId := p.nextTimerId + 1
    enqueued := p.enqueued ++ [callback]
    batched := { p.batched with
      calls := p.batched.calls ++ [call], callbacks := p.batched.callbacks ++ [callback] } }

def alreadyBatchedCallsConflictWith (p : BatchedProvider Data Reason) (blockTag : Option BlockTag) :
    Bool :=
  !p.batched.calls.isEmpty && blockTag.getD .latest != p.batched.blockTag.getD .latest

/-- The rest of `call`. -/
def callResolved (p : BatchedProvider Data Reason) (multicallAddress : String) (id : Nat)
    (request : ResolvedTransactionRequest) (blockTag : Option BlockTag) :
    BatchedProvider Data Reason :=
  if batchedCall request multicallAddress || !batchableCall request ||
      p.alreadyBatchedCallsConflictWith blockTag then
    { p with numberOfActualCalls := p.numberOfActualCalls + 1, forwarded := p.forwarded ++ [id] }
  else
    let p := { p with numberOfBatchedCalls := p.numberOfBatchedCalls + 1 }
    -- the first call of a batch sets its tag
    let p :=
      if p.batched.calls.isEmpty then { p with batched := { p.batched with blockTag := blockTag } }
      else p
    let call := { target := request.«to», callData := request.data }
    p.enqueueCall call { id := id, call := call, blockTag := blockTag }

def step (p : BatchedProvider Data Reason) :
    Event Data Reason → Option (BatchedProvider Data Reason)
  | .setChainId chainId => some (p.setChainId chainId)
  | .call now => some (p.call now)
  | .resolved id request blockTag =>
    match p.multicall with
    | some multicallAddress =>
      -- the contract asks for an `aggregate`, and users for anything
      if id ∈ p.resolving ∧ (id ∈ p.aggregates → batchedCall request multicallAddress) then
        some ({ p with resolving := p.resolving.erase id }.callResolved
          multicallAddress id request blockTag)
      else none
    | none => none
  | .unresolvable id =>
    if id ∈ p.resolving then some { p with resolving := p.resolving.erase id } else none
  | .timer id now =>
    if id ∈ p.timers then some ({ p with timers := p.timers.erase id }.dispatchCalls now) else none
  -- also where the request of an `aggregate` was not sent yet, as when resolving it fails
  | .answered i answer =>
    p.dispatched[i]?.map fun batch =>
      settle answer batch { p with dispatched := p.dispatched.eraseIdx i }

/-- The state after a sequence of events, if each of them can happen when its turn comes. -/
def run (events : List (Event Data Reason)) : Option (BatchedProvider Data Reason) :=
  events.foldlM step initial

end BatchedProvider

end Liquity.Providers
