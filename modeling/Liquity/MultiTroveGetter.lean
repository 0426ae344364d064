import Liquity.TroveManager

/-!
# `MultiTroveGetter`

Reads a page of the sorted troves, counted from the head of the list or, for a negative start index, from
its tail.  Indices and counts are words, and none of the arithmetic on them is checked.
-/

open Lib

namespace Liquity

namespace MultiTroveGetter

structure CombinedTroveData where
  owner : Address
  debt : Nat
  coll : Nat
  stake : Nat
  snapshotETH : Nat
  snapshotLUSDDebt : Nat
  deriving DecidableEq

def combinedTroveData (t : TroveManager) (owner : Address) : CombinedTroveData where
  owner
  debt := (t.troves owner).debt
  coll := (t.troves owner).coll
  stake := (t.troves owner).stake
  snapshotETH := (t.rewardSnapshots owner).ETH
  snapshotLUSDDebt := (t.rewardSnapshots owner).LUSDDebt

/-- The loop that skips the troves before the page. -/
def skip (step : Address → Address) : (idx : Nat) → (currentTroveowner : Address) → Address
  | 0, currentTroveowner => currentTroveowner
  | idx + 1, currentTroveowner => skip step idx (step currentTroveowner)

/-- The loop that fills the page. -/
def fill (t : TroveManager) (step : Address → Address) :
    (idx : Nat) → (currentTroveowner : Address) → List CombinedTroveData
  | 0, _ => []
  | idx + 1, currentTroveowner =>
    combinedTroveData t currentTroveowner :: fill t step idx (step currentTroveowner)

def getMultipleSortedTrovesFrom (t : TroveManager) (start : Address) (step : Address → Address)
    (startIdx count : BitVec 256) : List CombinedTroveData :=
  fill t step count.toNat (skip step startIdx.toNat start)

def getMultipleSortedTrovesFromHead (t : TroveManager) (l : SortedTroves)
    (startIdx count : BitVec 256) : List CombinedTroveData :=
  getMultipleSortedTrovesFrom t l.getFirst l.getNext startIdx count

def getMultipleSortedTrovesFromTail (t : TroveManager) (l : SortedTroves)
    (startIdx count : BitVec 256) : List CombinedTroveData :=
  getMultipleSortedTrovesFrom t l.getLast l.getPrev startIdx count

/-- `startIdx` as it is counted from the end where the page starts. -/
def unsignedStartIdx (startIdx : BitVec 256) : BitVec 256 :=
  if 0 ≤ startIdx.toInt then startIdx else -(startIdx + 1)

/-- `startIdx` is an `int`. -/
def getMultipleSortedTroves (t : TroveManager) (l : SortedTroves) (startIdx count : BitVec 256) :
    List CombinedTroveData :=
  let descend := decide (0 ≤ startIdx.toInt)
  let startIdx := unsignedStartIdx startIdx
  let sortedTrovesSize := BitVec.ofNat 256 l.getSize
  if sortedTrovesSize ≤ startIdx then []
  else
    let maxCount := sortedTrovesSize - startIdx
    let count := if maxCount < count then maxCount else count
    if descend then getMultipleSortedTrovesFromHead t l startIdx count
    else getMultipleSortedTrovesFromTail t l startIdx count

end MultiTroveGetter

end Liquity
