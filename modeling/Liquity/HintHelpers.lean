import Liquity.Redemption

/-!
# `HintHelpers`

The simulation of a redemption, and the search for a trove with a ratio close to a given one.
-/

open Lib

namespace Liquity

open SafeMath LiquityMath LiquityBase

namespace HintHelpers

/-- The three return values of `getRedemptionHints`. -/
structure RedemptionSimulation where
  firstRedemptionHint : Address
  partialRedemptionHintNICR : Nat
  truncatedLUSDamount : Nat
  deriving DecidableEq

/-- The trove that the simulation cannot redeem as a whole: the ratio that a partial redemption
leaves it with, and what is then left of `remainingLUSD`. -/
def partialRedemption (currentTroveuser : Address) (price netLUSDDebt remainingLUSD : Nat)
    (t : TroveManager) : Tx (Nat × Nat) :=
  if MIN_NET_DEBT < netLUSDDebt then do
    let redeemable ← sub netLUSDDebt MIN_NET_DEBT
    let maxRedeemableLUSD := LiquityMath.min remainingLUSD redeemable
    let pendingETHReward ← t.getPendingETHReward currentTroveuser
    let ETH ← add (t.troves currentTroveuser).coll pendingETHReward
    let scaled ← mul maxRedeemableLUSD DECIMAL_PRECISION
    let ETHLot ← div scaled price
    let newColl ← sub ETH ETHLot
    let newDebt ← sub netLUSDDebt maxRedeemableLUSD
    let compositeDebt ← getCompositeDebt newDebt
    let partialRedemptionHintNICR ← computeNominalCR newColl compositeDebt
    let remainingLUSD ← sub remainingLUSD maxRedeemableLUSD
    return (partialRedemptionHintNICR, remainingLUSD)
  else .ok (0, remainingLUSD)

/-- `(partialRedemptionHintNICR, remainingLUSD)` after the second loop of `getRedemptionHints`.  As
in the redemption loop, the length of the list bounds the rounds. -/
def redemptionHintsLoop (price : Nat) (s : System) :
    (rounds : Nat) → (currentTroveuser : Address) → (maxIterations remainingLUSD : Nat) →
      Tx (Nat × Nat)
  | 0, _, _, _ => .error .outOfGas
  | rounds + 1, currentTroveuser, maxIterations, remainingLUSD =>
    if currentTroveuser ≠ 0 ∧ 0 < remainingLUSD ∧ 0 < maxIterations then do
      let netDebt ← getNetDebt (s.troveManager.troves currentTroveuser).debt
      -- unlike the redemption, without asking `hasPendingRewards`
      let pendingLUSDDebtReward ← s.troveManager.getPendingLUSDDebtReward currentTroveuser
      let netLUSDDebt ← add netDebt pendingLUSDDebtReward
      -- the last trove the redemption comes to: the source breaks here
      if remainingLUSD < netLUSDDebt then
        partialRedemption currentTroveuser price netLUSDDebt remainingLUSD s.troveManager
      else do
        let remainingLUSD ← sub remainingLUSD netLUSDDebt
        redemptionHintsLoop price s rounds (s.sortedTroves.getPrev currentTroveuser)
          (maxIterations - 1) remainingLUSD
    else .ok (0, remainingLUSD)

def getRedemptionHints (LUSDamount price maxIterations : Nat) (s : System) :
    Tx RedemptionSimulation := do
  -- the contract has its own copy of the search of `redeemCollateral`
  let firstRedemptionHint ← TroveManager.findFirstRedeemable price s (s.sortedTroves.size + 1)
    s.sortedTroves.getLast
  let maxIterations := if maxIterations = 0 then 2 ^ 256 - 1 else maxIterations
  let simulated ← redemptionHintsLoop price s (s.sortedTroves.size + 1) firstRedemptionHint
    maxIterations LUSDamount
  let truncatedLUSDamount ← sub LUSDamount simulated.2
  return { firstRedemptionHint, partialRedemptionHintNICR := simulated.1, truncatedLUSDamount }

/-! ## `getApproxHint` -/

def getAbsoluteDifference (a b : Nat) : Tx Nat := if b ≤ a then sub a b else sub b a

/-- The three return values of `getApproxHint`. -/
structure ApproxHint where
  hintAddress : Address
  diff : Nat
  latestRandomSeed : Nat
  deriving DecidableEq

/-- An index past the end of an array is an invalid opcode. -/
def getTroveFromTroveOwnersArray (troveOwners : List Address) (index : Nat) : Tx Address :=
  match troveOwners[index]? with
  | some owner => .ok owner
  | none => .error .assertion

section ApproxHint

variable (keccak : Nat → Nat) (getNominalICR : Address → Tx Nat) (troveOwners : List Address)

/-- The loop of `getApproxHint`; the first argument is the number of rounds that are left. -/
def approxHintLoop (CR : Nat) : (rounds : Nat) → ApproxHint → Tx ApproxHint
  | 0, hint => .ok hint
  | rounds + 1, hint => do
    let latestRandomSeed := keccak hint.latestRandomSeed
    let arrayIndex := latestRandomSeed % troveOwners.length
    let currentAddress ← getTroveFromTroveOwnersArray troveOwners arrayIndex
    let currentNICR ← getNominalICR currentAddress
    let currentDiff ← getAbsoluteDifference currentNICR CR
    approxHintLoop CR rounds
      (if currentDiff < hint.diff then
        { hintAddress := currentAddress, diff := currentDiff, latestRandomSeed }
      else { hint with latestRandomSeed })

def getApproxHint (CR numTrials inputRandomSeed : Nat) (l : SortedTroves) : Tx ApproxHint :=
  let arrayLength := troveOwners.length
  if arrayLength = 0 then .ok { hintAddress := 0, diff := 0, latestRandomSeed := inputRandomSeed }
  else do
    let hintAddress := l.getLast
    let NICR ← getNominalICR hintAddress
    let diff ← getAbsoluteDifference CR NICR
    approxHintLoop keccak getNominalICR troveOwners CR (numTrials - 1)
      { hintAddress, diff, latestRandomSeed := inputRandomSeed }

end ApproxHint

end HintHelpers

end Liquity
