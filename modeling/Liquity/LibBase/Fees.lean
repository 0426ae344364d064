import Liquity.LibBase.Decimal

/-!
# `Fees`
-/

open Lib

namespace Liquity.LibBase

open Decimal

/-- A point in time, in milliseconds. -/
structure Date where
  getTime : Int
  deriving DecidableEq

/-- `convertToDate`, from the seconds of a block's timestamp. -/
def convertToDate (timestamp : Nat) : Date := ⟨timestamp * 1000⟩

/-- The constructor asserts that the decay factor is below one. -/
structure Fees where
  baseRateWithoutDecay : Decimal
  minuteDecayFactor : Decimal
  beta : Decimal
  lastFeeOperation : Date
  timeOfLatestBlock : Date
  recoveryMode : Bool
  decays : minuteDecayFactor.lt ONE

namespace Fees

def baseRate (fees : Fees) (timeWhen : Date) : Js Decimal := do
  -- negative elapsed time counts as none
  let millisecondsSinceLastFeeOperation :=
    (timeWhen.getTime - fees.lastFeeOperation.getTime).toNat
  let minutesSinceLastFeeOperation := millisecondsSinceLastFeeOperation / 60000
  let decay ← fees.minuteDecayFactor.pow minutesSinceLastFeeOperation
  return decay.mul fees.baseRateWithoutDecay

/-- At the time of the latest block unless another time is given. -/
def baseRateAt (fees : Fees) (timeWhen : Option Date) : Js Decimal :=
  fees.baseRate (timeWhen.getD fees.timeOfLatestBlock)

def borrowingRate (fees : Fees) (timeWhen : Option Date) : Js Decimal :=
  if fees.recoveryMode then .ok ZERO
  else do
    let baseRate ← fees.baseRateAt timeWhen
    return (MINIMUM_BORROWING_RATE.add baseRate).min MAXIMUM_BORROWING_RATE

def redemptionRate (fees : Fees) (redeemedFractionOfSupply : Decimal) (timeWhen : Option Date) :
    Js Decimal := do
  let baseRate ← fees.baseRateAt timeWhen
  let baseRate := if redeemedFractionOfSupply.isZero then baseRate
    else (redeemedFractionOfSupply.div fees.beta).add baseRate
  return (MINIMUM_REDEMPTION_RATE.add baseRate).min ONE

end Fees

end Liquity.LibBase
