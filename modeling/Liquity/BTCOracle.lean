import Liquity.PriceFeed

/-!
# `BTCOracle`

The oracle stores one response a round.  Rounds are counted from one and fed by accounts with the
setter role, each with the source block its value was taken at and the block of the chain it arrives
in.
-/

open Lib

namespace Liquity

namespace BTCOracle

/-- The answer is an `int256`. -/
structure Response where
  answer : BitVec 256
  /-- The source block. -/
  blockNumber : BitVec 256
  /-- The block of this chain. -/
  currentChainBN : BitVec 256
  roundId : BitVec 256
  deriving DecidableEq

/-- A response that was never written. -/
def Response.empty : Response := { answer := 0, blockNumber := 0, currentChainBN := 0, roundId := 0 }

end BTCOracle

structure BTCOracle where
  responseById : BitVec 256 → BTCOracle.Response
  latestRound : BitVec 256

namespace BTCOracle

def decimals : BitVec 8 := 18

/-- The oracle after its constructor. -/
def initial : BTCOracle := { responseById := fun _ => Response.empty, latestRound := 0 }

/-- The five return values of `getRoundData`; the last one repeats the first. -/
def getRoundData (roundId : BitVec 256) (o : BTCOracle) :
    BitVec 256 × BitVec 256 × BitVec 256 × BitVec 256 × BitVec 256 :=
  let response := o.responseById roundId
  (response.roundId, response.answer, response.blockNumber, response.currentChainBN, response.roundId)

def latestRoundData (o : BTCOracle) :
    BitVec 256 × BitVec 256 × BitVec 256 × BitVec 256 × BitVec 256 :=
  o.getRoundData o.latestRound

/-- A call in block `block`; `hasRole` are the accounts that hold the setter role at the time. -/
def feedBaseFeeValue (hasRole : Address → Bool) (sender : Address) (block newValue : BitVec 256)
    (blockNumber : BitVec 64) (o : BTCOracle) : Tx BTCOracle := do
  require (hasRole sender = true) "Admin Role Missing"
  -- rounds are unchecked words
  let round := o.latestRound + 1
  let (_, _, previousBlockNumber, _, _) := o.getRoundData (round - 1)
  require (¬ blockNumber.setWidth 256 ≤ previousBlockNumber) "Outdated Deployment"
  return { o with
    responseById := Function.update o.responseById round
      { answer := newValue, blockNumber := blockNumber.setWidth 256, currentChainBN := block
        roundId := round }
    latestRound := o.latestRound + 1 }

/-- What the price feed keeps of a round. -/
def roundData : BitVec 256 × BitVec 256 × BitVec 256 × BitVec 256 × BitVec 256 → RoundData
  | (roundId, answer, _, currentChainBN, _) => { roundId, answer, currentChainBN }

/-- The oracle as the price feed calls it; none of its views reverts. -/
def toIBTCOracle (o : BTCOracle) : IBTCOracle where
  decimals := .ok decimals
  latestRoundData := some (roundData o.latestRoundData)
  getRoundData roundId := some (roundData (o.getRoundData roundId))

end BTCOracle

end Liquity
