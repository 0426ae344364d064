import Liquity.HintHelpers
import Liquity.LibBase.DecimalStrings

/-!
# Hints for the insertion of a trove

`_findHintsForNominalCollateralRatio`, on contracts that nobody else calls in between.
-/

open Lib

namespace Liquity.LibEthers

open LibBase HintHelpers

def maxNumberOfTrialsAtOnce : Nat := 2500

/-- What the generator yields; the first argument bounds the rounds. -/
def generateTrialsLoop : (rounds totalNumberOfTrials : Nat) → List Nat
  | 0, _ => []
  | rounds + 1, totalNumberOfTrials =>
    if totalNumberOfTrials = 0 then []
    else
      let numberOfTrials := min totalNumberOfTrials maxNumberOfTrialsAtOnce
      numberOfTrials :: generateTrialsLoop rounds (totalNumberOfTrials - numberOfTrials)

def generateTrials (totalNumberOfTrials : Nat) : Js (List Nat) := do
  assertThat (0 < totalNumberOfTrials)
  return generateTrialsLoop totalNumberOfTrials totalNumberOfTrials

/-- `Math.ceil(10 * Math.sqrt(numberOfTroves))`, but for the rounding of floating point. -/
def trialsFor (numberOfTroves : Nat) : Nat :=
  let root := Nat.sqrt (100 * numberOfTroves)
  if root * root = 100 * numberOfTroves then root else root + 1

section

variable (keccak : Nat → Nat) (getNominalICR : Address → Tx Nat) (troveOwners : List Address)

structure CollectedHints where
  latestRandomSeed : Nat
  results : List ApproxHint

def collectApproxHint (nominalCollateralRatio : Decimal) (l : SortedTroves)
    (collected : CollectedHints) (numberOfTrials : Nat) : Js CollectedHints := do
  let result ← getApproxHint keccak getNominalICR troveOwners nominalCollateralRatio.bigNumber
    numberOfTrials collected.latestRandomSeed l
  return { latestRandomSeed := result.latestRandomSeed, results := collected.results ++ [result] }

/-- `results.reduce((a, b) => (a.diff.lt(b.diff) ? a : b))`, which throws on an empty array. -/
def closest : List ApproxHint → Js ApproxHint
  | [] => .error (.reason "Reduce of empty array with no initial value")
  | result :: results => .ok (results.foldl (fun a b => if a.diff < b.diff then a else b) result)

/-- The trove being reinserted is deleted from the list first, so its neighbour is taken. -/
def jumpOver (ownAddress : Option Address) (ends : Address × Address) (l : SortedTroves) :
    Address × Address :=
  match ownAddress with
  | none => ends
  | some ownAddress =>
    if ends.1 = ownAddress then (l.getPrev ends.1, ends.2)
    else if ends.2 = ownAddress then (ends.1, l.getNext ends.2)
    else ends

/-- `address(0)` is not used as a hint. -/
def replaceZero (ends : Address × Address) : Address × Address :=
  if ends.1 = 0 then (ends.2, ends.2) else if ends.2 = 0 then (ends.1, ends.1) else ends

/-- The two hints before `address(0)` is replaced. -/
def findHintEnds (randomInteger : Nat) (nominalCollateralRatio : Decimal)
    (ownAddress : Option Address) (l : SortedTroves) : Js (Address × Address) := do
  let trials ← generateTrials (trialsFor troveOwners.length)
  let collected ← trials.foldlM
    (collectApproxHint keccak getNominalICR troveOwners nominalCollateralRatio l) ⟨randomInteger, []⟩
  let hint ← closest collected.results
  let ends ← SortedTroves.findInsertPosition getNominalICR nominalCollateralRatio.bigNumber
    hint.hintAddress hint.hintAddress l
  return jumpOver ownAddress ends l

def findHintsForNominalCollateralRatio (randomInteger : Nat) (nominalCollateralRatio : Decimal)
    (ownAddress : Option Address) (l : SortedTroves) : Js (Address × Address) :=
  let numberOfTroves := troveOwners.length
  if numberOfTroves = 0 then .ok (0, 0)
  else if nominalCollateralRatio.infinite then .ok (0, l.getFirst)
  else do
    let ends ← findHintEnds keccak getNominalICR troveOwners randomInteger nominalCollateralRatio
      ownAddress l
    return replaceZero ends

end

end Liquity.LibEthers
