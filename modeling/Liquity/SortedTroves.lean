import Liquity.LiquityMath

/-!
# `SortedTroves`

The doubly linked list of troves, largest nominal collateral ratio first.  Ratios are not stored on
the nodes: the list asks the trove manager for them, here through the argument `getNominalICR`.
-/

open Lib

namespace Liquity

open SafeMath

structure Node where
  /-- The `exists` flag of the source. -/
  present : Bool
  /-- The next node, with a smaller ratio. -/
  nextId : Address
  /-- The previous node, with a larger ratio. -/
  prevId : Address
  deriving DecidableEq

namespace Node

/-- The value of a node that was never written or has been deleted. -/
def empty : Node := { present := false, nextId := 0, prevId := 0 }

end Node

structure SortedTroves where
  head : Address
  tail : Address
  maxSize : Nat
  size : Nat
  nodes : Address → Node

namespace SortedTroves

variable (getNominalICR : Address → Tx Nat)

/-- The list that `setParams` leaves behind. -/
def initial (maxSize : Nat) : SortedTroves :=
  { head := 0, tail := 0, maxSize, size := 0, nodes := fun _ => Node.empty }

def contains (l : SortedTroves) (id : Address) : Bool := (l.nodes id).present
def isFull (l : SortedTroves) : Bool := l.size == l.maxSize
def isEmpty (l : SortedTroves) : Bool := l.size == 0
def getSize (l : SortedTroves) : Nat := l.size
def getFirst (l : SortedTroves) : Address := l.head
def getLast (l : SortedTroves) : Address := l.tail
def getNext (l : SortedTroves) (id : Address) : Address := (l.nodes id).nextId
def getPrev (l : SortedTroves) (id : Address) : Address := (l.nodes id).prevId

/-! ## Writes to one node -/

def setNext (id nextId : Address) (l : SortedTroves) : SortedTroves :=
  { l with nodes := Function.update l.nodes id { l.nodes id with nextId } }

def setPrev (id prevId : Address) (l : SortedTroves) : SortedTroves :=
  { l with nodes := Function.update l.nodes id { l.nodes id with prevId } }

def setPresent (id : Address) (l : SortedTroves) : SortedTroves :=
  { l with nodes := Function.update l.nodes id { l.nodes id with present := true } }

def deleteNode (id : Address) (l : SortedTroves) : SortedTroves :=
  { l with nodes := Function.update l.nodes id Node.empty }

/-! ## Finding an insert position -/

def validInsertPosition (NICR : Nat) (prevId nextId : Address) (l : SortedTroves) : Tx Bool :=
  -- only an empty list can be entered with two null neighbours
  if prevId = 0 ∧ nextId = 0 then .ok l.isEmpty
  else if prevId = 0 then
    if l.head = nextId then do
      let nextNICR ← getNominalICR nextId
      return decide (nextNICR ≤ NICR)
    else .ok false
  else if nextId = 0 then
    if l.tail = prevId then do
      let prevNICR ← getNominalICR prevId
      return decide (NICR ≤ prevNICR)
    else .ok false
  else if (l.nodes prevId).nextId = nextId then do
    let prevNICR ← getNominalICR prevId
    if NICR ≤ prevNICR then do
      let nextNICR ← getNominalICR nextId
      return decide (nextNICR ≤ NICR)
    else return false
  else .ok false

/-- The loop of `_descendList`.  The first argument bounds the number of rounds. -/
def descendLoop (NICR : Nat) (l : SortedTroves) :
    (rounds : Nat) → (prevId nextId : Address) → Tx (Address × Address)
  | 0, _, _ => .error .outOfGas
  | rounds + 1, prevId, nextId =>
    -- a null `prevId` means the end of the list was passed
    if prevId ≠ 0 then do
      let valid ← validInsertPosition getNominalICR NICR prevId nextId l
      if valid then return (prevId, nextId)
      else
        descendLoop NICR l rounds (l.nodes prevId).nextId (l.nodes (l.nodes prevId).nextId).nextId
    else return (prevId, nextId)

/-- `data.head == _startId && _NICR >= getNominalICR(_startId)`. -/
def isBeforeHead (NICR : Nat) (startId : Address) (l : SortedTroves) : Tx Bool :=
  if l.head = startId then do
    let startNICR ← getNominalICR startId
    return decide (startNICR ≤ NICR)
  else .ok false

def descendList (NICR : Nat) (startId : Address) (l : SortedTroves) : Tx (Address × Address) := do
  let beforeHead ← isBeforeHead getNominalICR NICR startId l
  if beforeHead then return (0, startId)
  else descendLoop getNominalICR NICR l (l.size + 1) startId (l.nodes startId).nextId

/-- The loop of `_ascendList`. -/
def ascendLoop (NICR : Nat) (l : SortedTroves) :
    (rounds : Nat) → (prevId nextId : Address) → Tx (Address × Address)
  | 0, _, _ => .error .outOfGas
  | rounds + 1, prevId, nextId =>
    if nextId ≠ 0 then do
      let valid ← validInsertPosition getNominalICR NICR prevId nextId l
      if valid then return (prevId, nextId)
      else
        ascendLoop NICR l rounds (l.nodes (l.nodes nextId).prevId).prevId (l.nodes nextId).prevId
    else return (prevId, nextId)

/-- `data.tail == _startId && _NICR <= getNominalICR(_startId)`. -/
def isAfterTail (NICR : Nat) (startId : Address) (l : SortedTroves) : Tx Bool :=
  if l.tail = startId then do
    let startNICR ← getNominalICR startId
    return decide (NICR ≤ startNICR)
  else .ok false

def ascendList (NICR : Nat) (startId : Address) (l : SortedTroves) : Tx (Address × Address) := do
  let afterTail ← isAfterTail getNominalICR NICR startId l
  if afterTail then return (startId, 0)
  else ascendLoop getNominalICR NICR l (l.size + 1) (l.nodes startId).prevId startId

/-- A previous-node hint survives only if it is on the list with a ratio of at least `NICR`. -/
def checkPrevHint (NICR : Nat) (prevId : Address) (l : SortedTroves) : Tx Address :=
  if prevId ≠ 0 then
    if l.contains prevId = false then .ok 0
    else do
      let prevNICR ← getNominalICR prevId
      return if prevNICR < NICR then 0 else prevId
  else .ok prevId

/-- A next-node hint survives only if it is on the list with a ratio of at most `NICR`. -/
def checkNextHint (NICR : Nat) (nextId : Address) (l : SortedTroves) : Tx Address :=
  if nextId ≠ 0 then
    if l.contains nextId = false then .ok 0
    else do
      let nextNICR ← getNominalICR nextId
      return if NICR < nextNICR then 0 else nextId
  else .ok nextId

def findInsertPosition (NICR : Nat) (prevId nextId : Address) (l : SortedTroves) :
    Tx (Address × Address) := do
  let prevId ← checkPrevHint getNominalICR NICR prevId l
  let nextId ← checkNextHint getNominalICR NICR nextId l
  if prevId = 0 ∧ nextId = 0 then descendList getNominalICR NICR l.head l
  else if prevId = 0 then ascendList getNominalICR NICR nextId l
  else if nextId = 0 then descendList getNominalICR NICR prevId l
  -- both hints survived: start from the one above
  else descendList getNominalICR NICR prevId l

/-- The position `_insert` settles on: the caller's hint if it is valid, else the one found. -/
def insertPosition (NICR : Nat) (prevId nextId : Address) (l : SortedTroves) :
    Tx (Address × Address) := do
  let valid ← validInsertPosition getNominalICR NICR prevId nextId l
  if valid then return (prevId, nextId)
  else findInsertPosition getNominalICR NICR prevId nextId l

/-! ## Insertion and removal -/

/-- The pointer writes of `_insert` for a chosen position. -/
def link (id prevId nextId : Address) (l : SortedTroves) : SortedTroves :=
  let l := setPresent id l
  if prevId = 0 ∧ nextId = 0 then { l with head := id, tail := id }
  else if prevId = 0 then
    -- the old head is read before `head` is overwritten
    let l := setNext id l.head l
    let l := setPrev l.head id l
    { l with head := id }
  else if nextId = 0 then
    -- likewise the old tail
    let l := setPrev id l.tail l
    let l := setNext l.tail id l
    { l with tail := id }
  else
    let l := setNext id nextId l
    let l := setPrev id prevId l
    let l := setNext prevId id l
    setPrev nextId id l

def insertInternal (id : Address) (NICR : Nat) (prevId nextId : Address) (l : SortedTroves) :
    Tx SortedTroves := do
  require (l.isFull = false) "SortedTroves: List is full"
  require (l.contains id = false) "SortedTroves: List already contains the node"
  require (id ≠ 0) "SortedTroves: Id cannot be zero"
  require (0 < NICR) "SortedTroves: NICR must be positive"
  let position ← insertPosition getNominalICR NICR prevId nextId l
  let l := link id position.1 position.2 l
  let size ← add l.size 1
  return { l with size }

/-- The pointer writes of `_remove`. -/
def unlink (id : Address) (l : SortedTroves) : SortedTroves :=
  if 1 < l.size then
    if id = l.head then
      -- the new head is the second node, whose back pointer is cut
      let l := { l with head := (l.nodes id).nextId }
      setPrev l.head 0 l
    else if id = l.tail then
      let l := { l with tail := (l.nodes id).prevId }
      setNext l.tail 0 l
    else
      let l := setNext (l.nodes id).prevId (l.nodes id).nextId l
      setPrev (l.nodes id).nextId (l.nodes id).prevId l
  else { l with head := 0, tail := 0 }

def removeInternal (id : Address) (l : SortedTroves) : Tx SortedTroves := do
  require (l.contains id = true) "SortedTroves: List does not contain the id"
  let l := deleteNode id (unlink id l)
  let size ← sub l.size 1
  return { l with size }

/-! ## External functions -/

section External

variable (d : Deployment)

def requireCallerIsTroveManager (caller : Address) : Tx Unit :=
  require (caller = d.troveManager) "SortedTroves: Caller is not the TroveManager"

def requireCallerIsBOorTroveM (caller : Address) : Tx Unit :=
  require (caller = d.borrowerOperations ∨ caller = d.troveManager)
    "SortedTroves: Caller is neither BO nor TroveM"

def insert (caller id : Address) (NICR : Nat) (prevId nextId : Address) (l : SortedTroves) :
    Tx SortedTroves := do
  requireCallerIsBOorTroveM d caller
  insertInternal getNominalICR id NICR prevId nextId l

def remove (caller id : Address) (l : SortedTroves) : Tx SortedTroves := do
  requireCallerIsTroveManager d caller
  removeInternal id l

def reInsert (caller id : Address) (newNICR : Nat) (prevId nextId : Address) (l : SortedTroves) :
    Tx SortedTroves := do
  requireCallerIsBOorTroveM d caller
  require (l.contains id = true) "SortedTroves: List does not contain the id"
  require (0 < newNICR) "SortedTroves: NICR must be positive"
  -- the position is sought in the list without the node
  let l ← removeInternal id l
  insertInternal getNominalICR id newNICR prevId nextId l

end External

end SortedTroves

end Liquity
