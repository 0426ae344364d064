import Liquity.LiquityMath
import Liquity.Lib.Reachability

/-!
# `PriceFeed`

The feed reads a main and a backup oracle and remembers, in one of five states, which of them it
last trusted.  The oracles are whatever answers the calls of one transaction: every call may fail,
and nothing relates the answers of two transactions.
-/

open Lib

namespace Liquity

/-! ## Oracles -/

/-- A round as `IBTCOracle` reports it, without the two return values that the feed ignores.  The
answer is an `int256`. -/
structure RoundData where
  roundId : BitVec 256
  answer : BitVec 256
  currentChainBN : BitVec 256

/-- The `IBTCOracle` calls of one transaction; `none` is a call that reverts. -/
structure IBTCOracle where
  decimals : Tx (BitVec 8)
  latestRoundData : Option RoundData
  getRoundData : BitVec 256 → Option RoundData

namespace PriceFeed

/-! ## Storage -/

inductive Status where
  | mainOracleWorking
  | usingBackupMainUntrusted
  | bothOraclesUntrusted
  | usingBackupMainFrozen
  | usingMainBackupUntrusted
  deriving DecidableEq, Repr

inductive Event where
  | lastGoodPriceUpdated (lastGoodPrice : Nat)
  | priceFeedStatusChanged (newStatus : Status)
  deriving DecidableEq, Repr

structure Response where
  answer : BitVec 256
  blockNumber : BitVec 64
  roundId : BitVec 256

end PriceFeed

/-- The storage of the feed and the events it has emitted, the latest first. -/
structure PriceFeed where
  lastGoodPrice : Nat
  status : PriceFeed.Status
  events : List PriceFeed.Event

namespace PriceFeed

def TARGET_DIGITS : Nat := 18
def TIMEOUT : Nat := 69
def MAX_PRICE_DEVIATION_PERCENTAGE_FROM_PREVIOUS_ROUND : Nat := 176
def MAX_PRICE_DIFFERENCE_BETWEEN_ORACLES : Nat := 5 * 10 ^ 16

/-! ## Reading the oracles -/

/-- The `Response` of a call; one that reverts leaves the zero response. -/
def responseOf : Option RoundData → Response
  | some data =>
    { answer := data.answer
      blockNumber := data.currentChainBN.setWidth 64
      roundId := data.roundId }
  | none => { answer := 0, blockNumber := 0, roundId := 0 }

def getCurrentMainOracleResponse (mainOracle : IBTCOracle) : Response :=
  responseOf mainOracle.latestRoundData

def getCurrentBackupResponse (backupOracle : IBTCOracle) : Response :=
  responseOf backupOracle.latestRoundData

-- The round before round zero is the last one: the subtraction wraps around.
def getPrevOracleResponse (mainOracle : IBTCOracle) (currentRoundId : BitVec 256) : Response :=
  responseOf (mainOracle.getRoundData (currentRoundId - 1))

def getPrevBackupOracleResponse (backupOracle : IBTCOracle) (currentRoundId : BitVec 256) :
    Response :=
  responseOf (backupOracle.getRoundData (currentRoundId - 1))

/-! ## Tests on responses -/

section Tests

variable (block : BitVec 256)

/-- The checks that `_badMainOracleResponse` and `_backupOracleIsBroken` share. -/
def badResponse (response : Response) : Prop :=
  response.roundId = 0 ∨
    (response.blockNumber = 0 ∨ block.toNat < response.blockNumber.toNat) ∨
    response.answer.toInt ≤ 0

instance (response : Response) : Decidable (badResponse block response) :=
  inferInstanceAs (Decidable (_ ∨ _))

def badMainOracleResponse (response : Response) : Prop := badResponse block response

instance (response : Response) : Decidable (badMainOracleResponse block response) :=
  inferInstanceAs (Decidable (badResponse _ _))

def mainOracleIsBroken (currentResponse prevResponse : Response) : Prop :=
  badMainOracleResponse block currentResponse ∨ badMainOracleResponse block prevResponse

instance (currentResponse prevResponse : Response) :
    Decidable (mainOracleIsBroken block currentResponse prevResponse) :=
  inferInstanceAs (Decidable (_ ∨ _))

def backupOracleIsBroken (response : Response) : Prop := badResponse block response

instance (response : Response) : Decidable (backupOracleIsBroken block response) :=
  inferInstanceAs (Decidable (badResponse _ _))

/-- The age test that `_mainOracleIsFrozen` and `_backupIsFrozen` share; the subtraction is
unchecked. -/
def isFrozen (response : Response) : Prop :=
  TIMEOUT < (block - response.blockNumber.setWidth 256).toNat

instance (response : Response) : Decidable (isFrozen block response) :=
  inferInstanceAs (Decidable (_ < _))

def mainOracleIsFrozen (response : Response) : Prop := isFrozen block response

instance (response : Response) : Decidable (mainOracleIsFrozen block response) :=
  inferInstanceAs (Decidable (isFrozen _ _))

def backupIsFrozen (backupResponse : Response) : Prop := isFrozen block backupResponse

instance (response : Response) : Decidable (backupIsFrozen block response) :=
  inferInstanceAs (Decidable (isFrozen _ _))

end Tests

-- Powers and products wrap around, and no power of ten up to 10 ^ 237 is a multiple of 2 ^ 256.
def scalePriceByDigits (price answerDigits : Nat) : Nat :=
  if TARGET_DIGITS ≤ answerDigits then price / (10 ^ (answerDigits - TARGET_DIGITS) % 2 ^ 256)
  else price * (10 ^ (TARGET_DIGITS - answerDigits) % 2 ^ 256) % 2 ^ 256

def priceChangeAboveMax (currentResponse prevResponse : Response) (decimals : Nat) : Prop :=
  let currentScaledPrice := scalePriceByDigits currentResponse.answer.toNat decimals
  let prevScaledPrice := scalePriceByDigits prevResponse.answer.toNat decimals
  let minPrice := LiquityMath.min currentScaledPrice prevScaledPrice
  let maxPrice := LiquityMath.max currentScaledPrice prevScaledPrice
  let difference := maxPrice - minPrice
  let threshold :=
    maxPrice * MAX_PRICE_DEVIATION_PERCENTAGE_FROM_PREVIOUS_ROUND % 2 ^ 256 / 1000
  threshold < difference

instance (currentResponse prevResponse : Response) (decimals : Nat) :
    Decidable (priceChangeAboveMax currentResponse prevResponse decimals) :=
  inferInstanceAs (Decidable (_ < _))

def bothOraclesSimilarPrice (mainOracleResponse backupResponse : Response)
    (mainOracleDecimals backupOracleDecimals : Nat) : Tx Bool := do
  let scaledMainOraclePrice := scalePriceByDigits mainOracleResponse.answer.toNat mainOracleDecimals
  let scaledBackupPrice := scalePriceByDigits backupResponse.answer.toNat backupOracleDecimals
  let minPrice := LiquityMath.min scaledBackupPrice scaledMainOraclePrice
  let maxPrice := LiquityMath.max scaledBackupPrice scaledMainOraclePrice
  -- a division by zero aborts the call
  assertThat (0 < minPrice)
  let percentPriceDifference := (maxPrice - minPrice) * DECIMAL_PRECISION % 2 ^ 256 / minPrice
  return decide (percentPriceDifference ≤ MAX_PRICE_DIFFERENCE_BETWEEN_ORACLES)

def bothOraclesLiveAndUnbrokenAndSimilarPrice (block : BitVec 256)
    (mainOracleResponse prevMainOracleResponse backupResponse : Response)
    (mainOracleDecimals backupOracleDecimals : Nat) : Tx Bool :=
  if backupOracleIsBroken block backupResponse ∨ backupIsFrozen block backupResponse ∨
      mainOracleIsBroken block mainOracleResponse prevMainOracleResponse ∨
      mainOracleIsFrozen block mainOracleResponse then
    .ok false
  else
    bothOraclesSimilarPrice mainOracleResponse backupResponse mainOracleDecimals
      backupOracleDecimals

/-! ## Storing -/

def changeStatus (status : Status) (f : PriceFeed) : PriceFeed :=
  { f with status, events := .priceFeedStatusChanged status :: f.events }

def storePrice (currentPrice : Nat) (f : PriceFeed) : PriceFeed :=
  { f with
    lastGoodPrice := currentPrice
    events := .lastGoodPriceUpdated currentPrice :: f.events }

/-- Returns the price with the storage, as every path of `fetchPrice` does. -/
def storeGoodPrice (response : Response) (decimals : Nat) (f : PriceFeed) : Nat × PriceFeed :=
  let scaledPrice := scalePriceByDigits response.answer.toNat decimals
  (scaledPrice, f.storePrice scaledPrice)

/-- `return lastGoodPrice`. -/
def returnLastGoodPrice (f : PriceFeed) : Nat × PriceFeed := (f.lastGoodPrice, f)

section Simp

variable (status : Status) (price : Nat) (f : PriceFeed)

@[simp] theorem changeStatus_status : (f.changeStatus status).status = status := rfl
@[simp] theorem changeStatus_lastGoodPrice :
    (f.changeStatus status).lastGoodPrice = f.lastGoodPrice := rfl
@[simp] theorem storePrice_status : (f.storePrice price).status = f.status := rfl
@[simp] theorem storePrice_lastGoodPrice : (f.storePrice price).lastGoodPrice = price := rfl

end Simp

/-- The price a `LastGoodPriceUpdated` event announces. -/
def Event.updatedPrice : Event → Option Nat
  | .lastGoodPriceUpdated lastGoodPrice => some lastGoodPrice
  | .priceFeedStatusChanged _ => none

/-- All prices stored so far, the latest first. -/
def storedPrices (f : PriceFeed) : List Nat := f.events.filterMap Event.updatedPrice

@[simp]
theorem storedPrices_changeStatus (status : Status) (f : PriceFeed) :
    (f.changeStatus status).storedPrices = f.storedPrices := rfl

@[simp]
theorem storedPrices_storePrice (price : Nat) (f : PriceFeed) :
    (f.storePrice price).storedPrices = price :: f.storedPrices := rfl

/-! ## `setAddresses` -/

/-- The feed after its one `setAddresses` call, which gives up the ownership that the call needs. -/
def setAddresses (block : BitVec 256) (mainOracle : IBTCOracle) (f : PriceFeed) : Tx PriceFeed := do
  let f := { f with status := .mainOracleWorking }
  let mainOracleResponse := getCurrentMainOracleResponse mainOracle
  let prevMainOracleResponse := getPrevOracleResponse mainOracle mainOracleResponse.roundId
  require (¬ (mainOracleIsBroken block mainOracleResponse prevMainOracleResponse ∨
    mainOracleIsFrozen block mainOracleResponse)) "oracle disabled"
  let decimals ← mainOracle.decimals
  return (f.storeGoodPrice mainOracleResponse decimals.toNat).2

/-! ## `fetchPrice` -/

/-- What `fetchPrice` reads before it looks at the status. -/
structure Responses where
  decimals : Nat
  mainOracleResponse : Response
  prevMainOracleResponse : Response
  backupOracleResponse : Response
  prevBackupOracleResponse : Response
  backupDecimals : Nat

def readOracles (mainOracle backupOracle : IBTCOracle) : Tx Responses := do
  let decimals ← mainOracle.decimals
  let mainOracleResponse := getCurrentMainOracleResponse mainOracle
  let prevMainOracleResponse := getPrevOracleResponse mainOracle mainOracleResponse.roundId
  let backupOracleResponse := getCurrentBackupResponse backupOracle
  let prevBackupOracleResponse :=
    getPrevBackupOracleResponse backupOracle backupOracleResponse.roundId
  let backupDecimals ← backupOracle.decimals
  return {
    decimals := decimals.toNat, mainOracleResponse, prevMainOracleResponse,
    backupOracleResponse, prevBackupOracleResponse, backupDecimals := backupDecimals.toNat }

section Tests

variable (block : BitVec 256) (r : Responses)

/-! The tests of `fetchPrice`, on the responses of one call. -/

abbrev mainBroken : Prop :=
  mainOracleIsBroken block r.mainOracleResponse r.prevMainOracleResponse

abbrev mainFrozen : Prop := mainOracleIsFrozen block r.mainOracleResponse

abbrev mainDeviates : Prop :=
  priceChangeAboveMax r.mainOracleResponse r.prevMainOracleResponse r.decimals

abbrev backupBroken : Prop := backupOracleIsBroken block r.backupOracleResponse

abbrev backupFrozen : Prop := backupIsFrozen block r.backupOracleResponse

abbrev backupDeviates : Prop :=
  priceChangeAboveMax r.backupOracleResponse r.prevBackupOracleResponse r.backupDecimals

def similarPrice : Tx Bool :=
  bothOraclesSimilarPrice r.mainOracleResponse r.backupOracleResponse r.decimals r.backupDecimals

def liveAndSimilarPrice : Tx Bool :=
  bothOraclesLiveAndUnbrokenAndSimilarPrice block r.mainOracleResponse r.prevMainOracleResponse
    r.backupOracleResponse r.decimals r.backupDecimals

def storeMain (f : PriceFeed) : Nat × PriceFeed := f.storeGoodPrice r.mainOracleResponse r.decimals

def storeBackup (f : PriceFeed) : Nat × PriceFeed :=
  f.storeGoodPrice r.backupOracleResponse r.backupDecimals

end Tests

section Cases

variable (block : BitVec 256) (r : Responses) (f : PriceFeed)

/-- Case 1: the last price came from the main oracle. -/
def fetchMainOracleWorking : Nat × PriceFeed :=
  if mainBroken block r then
    if backupBroken block r then (f.changeStatus .bothOraclesUntrusted).returnLastGoodPrice
    else if backupFrozen block r then
      (f.changeStatus .usingBackupMainUntrusted).returnLastGoodPrice
    else (f.changeStatus .usingBackupMainUntrusted).storeBackup r
  else if mainFrozen block r then
    if backupBroken block r then (f.changeStatus .usingMainBackupUntrusted).returnLastGoodPrice
    else
      let f := f.changeStatus .usingBackupMainFrozen
      if backupFrozen block r then f.returnLastGoodPrice else f.storeBackup r
  else if mainDeviates r then
    if backupBroken block r ∨ backupDeviates r then
      (f.changeStatus .bothOraclesUntrusted).returnLastGoodPrice
    else if backupFrozen block r then
      (f.changeStatus .usingBackupMainUntrusted).returnLastGoodPrice
    else (f.changeStatus .usingBackupMainUntrusted).storeBackup r
  else
    let f := if backupBroken block r then f.changeStatus .usingMainBackupUntrusted else f
    f.storeMain r

/-- Case 2: the last price came from the backup, and the main oracle is not trusted. -/
def fetchUsingBackupMainUntrusted : Tx (Nat × PriceFeed) := do
  let similar ← liveAndSimilarPrice block r
  return if similar then (f.changeStatus .mainOracleWorking).storeMain r
  else if backupBroken block r then (f.changeStatus .bothOraclesUntrusted).returnLastGoodPrice
  else if backupFrozen block r then f.returnLastGoodPrice
  else if backupDeviates r then (f.changeStatus .bothOraclesUntrusted).returnLastGoodPrice
  else f.storeBackup r

/-- Case 3: no oracle was trusted at the last call. -/
def fetchBothOraclesUntrusted : Tx (Nat × PriceFeed) := do
  let similar ← liveAndSimilarPrice block r
  return if similar then (f.changeStatus .mainOracleWorking).storeMain r
  else f.returnLastGoodPrice

/-- Case 4: the backup is in use because the main oracle was frozen. -/
def fetchUsingBackupMainFrozen : Tx (Nat × PriceFeed) :=
  if mainBroken block r then
    if backupBroken block r then
      .ok (f.changeStatus .bothOraclesUntrusted).returnLastGoodPrice
    else
      let f := f.changeStatus .usingBackupMainUntrusted
      if backupFrozen block r then .ok f.returnLastGoodPrice else .ok (f.storeBackup r)
  else if mainFrozen block r then
    if backupBroken block r then
      .ok (f.changeStatus .usingMainBackupUntrusted).returnLastGoodPrice
    else if backupFrozen block r then .ok f.returnLastGoodPrice
    else .ok (f.storeBackup r)
  else if backupBroken block r then
    .ok ((f.changeStatus .usingMainBackupUntrusted).storeMain r)
  else if backupFrozen block r then .ok f.returnLastGoodPrice
  else do
    let similar ← similarPrice r
    return if similar then (f.changeStatus .mainOracleWorking).storeMain r
    else (f.changeStatus .usingBackupMainUntrusted).storeBackup r

/-- Case 5: the main oracle is in use, and the backup is not trusted. -/
def fetchUsingMainBackupUntrusted : Tx (Nat × PriceFeed) :=
  if mainBroken block r then .ok (f.changeStatus .bothOraclesUntrusted).returnLastGoodPrice
  else if mainFrozen block r then .ok f.returnLastGoodPrice
  else do
    let similar ← liveAndSimilarPrice block r
    return if similar then (f.changeStatus .mainOracleWorking).storeMain r
    else if mainDeviates r then (f.changeStatus .bothOraclesUntrusted).returnLastGoodPrice
    else f.storeMain r

/-- The five cases on the status before the call. -/
def fetchFromResponses : Tx (Nat × PriceFeed) :=
  match f.status with
  | .mainOracleWorking => .ok (fetchMainOracleWorking block r f)
  | .usingBackupMainUntrusted => fetchUsingBackupMainUntrusted block r f
  | .bothOraclesUntrusted => fetchBothOraclesUntrusted block r f
  | .usingBackupMainFrozen => fetchUsingBackupMainFrozen block r f
  | .usingMainBackupUntrusted => fetchUsingMainBackupUntrusted block r f

end Cases

/-- Returns the price and the storage after the call. -/
def fetchPrice (block : BitVec 256) (mainOracle backupOracle : IBTCOracle) (f : PriceFeed) :
    Tx (Nat × PriceFeed) := do
  let r ← readOracles mainOracle backupOracle
  fetchFromResponses block r f

end PriceFeed

end Liquity
