import Liquity.Execution
import Liquity.SortedTroves.Calls
import Liquity.Lib.Accumulator
import Liquity.Lib.SwapRemove
import Liquity.StabilityPool.Product

/-!
# The ledger behind the contracts

An abstract account of what the contracts keep track of: who holds LUSD, what each pool records,
the troves and their order, and the deposits.  A transaction is a sequence of `Move`s of the ledger,
each of which says in one line what happens to the books; what is taken out of the troves in the
middle of a liquidation or redemption and not yet settled is `inFlight`.  Invariants of the system
are proved of the moves; the contracts enter only through the theorem that every transaction is a
run of moves.
-/

open Lib

namespace Liquity

open LiquityMath

/-- Collateral and debt that have left their troves but not the Active Pool, and the gas reserves of
those troves. -/
@[ext]
structure InFlight where
  coll : Nat
  debt : Nat
  gas : Nat

def InFlight.none : InFlight := ⟨0, 0, 0⟩

structure Ledger where
  balances : Address → Nat
  totalSupply : Nat
  allowances : Address → Address → Nat
  activeETH : Nat
  activeDebt : Nat
  defaultETH : Nat
  defaultDebt : Nat
  /-- The active troves, in the order of the list. -/
  order : List Address
  /-- Troves, stakes and reward accumulators; see `TroveManager.books`. -/
  tm : TroveManager
  sp : StabilityPool
  inFlight : InFlight

namespace TroveManager

/-- The part of the storage that the ledger keeps: everything but the fee rate. -/
def books (t : TroveManager) : TroveManager := { t with baseRate := 0, lastFeeOperationTime := 0 }

/-! ## What the moves do to the troves -/

def pendingETH (t : TroveManager) (borrower : Address) : Nat :=
  (t.troves borrower).stake * (t.L_ETH - (t.rewardSnapshots borrower).ETH) / DECIMAL_PRECISION

def pendingLUSDDebt (t : TroveManager) (borrower : Address) : Nat :=
  (t.troves borrower).stake * (t.L_LUSDDebt - (t.rewardSnapshots borrower).LUSDDebt) /
    DECIMAL_PRECISION

def register (borrower : Address) (coll debt stake : Nat) (t : TroveManager) : TroveManager :=
  { t with
    troves := Function.update t.troves borrower
      ⟨debt, coll, stake, .active, t.troveOwners.length⟩
    totalStakes := t.totalStakes + stake
    rewardSnapshots := Function.update t.rewardSnapshots borrower ⟨t.L_ETH, t.L_LUSDDebt⟩
    troveOwners := t.troveOwners ++ [borrower] }

/-- The last owner moves to the index of the one that leaves. -/
def unregister (borrower : Address) (status : Status) (t : TroveManager) : TroveManager :=
  let index := (t.troves borrower).arrayIndex
  let moved := t.troveOwners.getLastD 0
  let closed := Function.update t.troves borrower ⟨0, 0, 0, status, index⟩
  { t with
    troves := Function.update closed moved { closed moved with arrayIndex := index }
    totalStakes := t.totalStakes - (t.troves borrower).stake
    rewardSnapshots := Function.update t.rewardSnapshots borrower ⟨0, 0⟩
    troveOwners := swapRemove 0 t.troveOwners index }

def applied (borrower : Address) (t : TroveManager) : TroveManager :=
  { t with
    troves := Function.update t.troves borrower
      { t.troves borrower with
        coll := (t.troves borrower).coll + t.pendingETH borrower
        debt := (t.troves borrower).debt + t.pendingLUSDDebt borrower }
    rewardSnapshots := Function.update t.rewardSnapshots borrower ⟨t.L_ETH, t.L_LUSDDebt⟩ }

def adjusted (borrower : Address) (coll debt stake : Nat) (t : TroveManager) : TroveManager :=
  { t with
    troves := Function.update t.troves borrower { t.troves borrower with coll, debt, stake }
    totalStakes := t.totalStakes - (t.troves borrower).stake + stake }

end TroveManager

/-- The ledger of a system state. -/
def System.ledger (s : System) (inFlight : InFlight) : Ledger where
  balances := s.lusdToken.balances
  totalSupply := s.lusdToken.totalSupply
  allowances := s.lusdToken.allowances
  activeETH := s.activePool.ETH
  activeDebt := s.activePool.LUSDDebt
  defaultETH := s.defaultPool.ETH
  defaultDebt := s.defaultPool.LUSDDebt
  order := s.sortedTroves.toList
  tm := s.troveManager.books
  sp := s.stabilityPool
  inFlight := inFlight

/-! ## Moves -/

/-- What an invariant may have to know about a move besides its effect. -/
inductive Label where
  /-- The Stability Pool absorbs `debt`. -/
  | offset (debt : Nat)
  /-- `debt` is shared out among the troves. -/
  | redistribute (debt : Nat)
  /-- A trove is opened with `coll`. -/
  | register (borrower : Address) (coll : Nat)
  /-- A trove that stays open gets a new stake, for `coll`. -/
  | restake (borrower : Address) (coll : Nat)
  /-- A deposit tagged with `frontEnd` is rewritten. -/
  | redeposit (depositor frontEnd : Address)
  | plain

namespace Ledger

def debit (f : Address → Nat) (a : Address) (amount : Nat) : Address → Nat :=
  Function.update f a (f a - amount)

def credit (f : Address → Nat) (a : Address) (amount : Nat) : Address → Nat :=
  Function.update f a (f a + amount)

/-- The smallest debt a trove may have. -/
def minDebt : Nat := MIN_NET_DEBT + LUSD_GAS_COMPENSATION

variable (d : Deployment)

/-- One move of the ledger. -/
inductive Move (L : Ledger) : Label → Ledger → Prop
  | transfer {a b : Address} {amount : Nat} (gasPool : a ≠ d.gasPool)
      (stabilityPool : a ≠ d.stabilityPool) (le : amount ≤ L.balances a) :
      Move L .plain { L with balances := move L.balances a b amount }
  | approve {allowances : Address → Address → Nat}
      (contracts : ∀ a ∈ d.contracts, ∀ b, L.allowances a b = 0 → allowances a b = 0) :
      Move L .plain { L with allowances }
  | openTrove {b : Address} {coll amount fee stake NICR : Nat} {u v : List Address}
      (inactive : (L.tm.troves b).status ≠ .active) (nonzero : b ≠ 0)
      (minNetDebt : MIN_NET_DEBT ≤ amount + fee)
      (ratio : computeNominalCR coll (amount + fee + LUSD_GAS_COMPENSATION) = .ok NICR)
      (positive : 0 < NICR) (newStake : L.tm.computeNewStake coll = .ok stake)
      (order : L.order = u ++ v) (fits : SortedTroves.Fits L.tm.getNominalICR NICR u v)
      (supply_lt : L.totalSupply + fee + amount + LUSD_GAS_COMPENSATION < 2 ^ 256) :
      Move L (.register b coll) { L with
        balances := credit (credit (credit L.balances d.lqtyStaking fee) b amount) d.gasPool
          LUSD_GAS_COMPENSATION
        totalSupply := L.totalSupply + fee + amount + LUSD_GAS_COMPENSATION
        activeETH := L.activeETH + coll
        activeDebt := L.activeDebt + (amount + fee) + LUSD_GAS_COMPENSATION
        order := u ++ b :: v
        tm := L.tm.register b coll (amount + fee + LUSD_GAS_COMPENSATION) stake }
  | applyRewards {b : Address} (active : (L.tm.troves b).status = .active)
      (pending : (L.tm.rewardSnapshots b).ETH < L.tm.L_ETH)
      (snapshot : (L.tm.rewardSnapshots b).LUSDDebt ≤ L.tm.L_LUSDDebt)
      (ETH_le : L.tm.pendingETH b ≤ L.defaultETH)
      (debt_le : L.tm.pendingLUSDDebt b ≤ L.defaultDebt) :
      Move L .plain { L with
        activeETH := L.activeETH + L.tm.pendingETH b
        activeDebt := L.activeDebt + L.tm.pendingLUSDDebt b
        defaultETH := L.defaultETH - L.tm.pendingETH b
        defaultDebt := L.defaultDebt - L.tm.pendingLUSDDebt b
        tm := L.tm.applied b }
  | adjust {b : Address} {coll debt stake NICR activeETH activeDebt totalSupply : Nat}
      {balances : Address → Nat} {u v : List Address}
      (active : (L.tm.troves b).status = .active)
      (settled : L.tm.L_ETH ≤ (L.tm.rewardSnapshots b).ETH)
      (activeETH_eq : activeETH + (L.tm.troves b).coll = L.activeETH + coll)
      (activeDebt_eq : activeDebt + (L.tm.troves b).debt = L.activeDebt + debt)
      (supply_eq : totalSupply + (L.tm.troves b).debt = L.totalSupply + debt)
      (supply_lt : L.totalSupply < 2 ^ 256 → totalSupply < 2 ^ 256)
      (sum_eq : ∑ a, balances a + L.totalSupply = ∑ a, L.balances a + totalSupply)
      (gasPool : L.balances d.gasPool ≤ balances d.gasPool)
      (stabilityPool : L.balances d.stabilityPool ≤ balances d.stabilityPool)
      (minDebt : minDebt ≤ debt)
      (ratio : computeNominalCR coll debt = .ok NICR) (positive : 0 < NICR)
      (newStake : L.tm.computeNewStake coll = .ok stake) (order : L.order.erase b = u ++ v)
      (fits : SortedTroves.Fits L.tm.getNominalICR NICR u v) :
      Move L (.restake b coll) { L with
        balances, totalSupply, activeETH, activeDebt
        order := u ++ b :: v
        tm := L.tm.adjusted b coll debt stake }
  | closeTrove {b : Address} (active : (L.tm.troves b).status = .active)
      (more : 1 < L.order.length)
      (gasPool : b ≠ d.gasPool) (stabilityPool : b ≠ d.stabilityPool)
      (balance : (L.tm.troves b).debt - LUSD_GAS_COMPENSATION ≤ L.balances b) :
      Move L .plain { L with
        balances := debit (debit L.balances b ((L.tm.troves b).debt - LUSD_GAS_COMPENSATION))
          d.gasPool LUSD_GAS_COMPENSATION
        totalSupply := L.totalSupply - (L.tm.troves b).debt
        activeETH := L.activeETH - (L.tm.troves b).coll
        activeDebt := L.activeDebt - (L.tm.troves b).debt
        order := L.order.erase b
        tm := L.tm.unregister b .closedByOwner }
  | liquidate {b : Address} (active : (L.tm.troves b).status = .active)
      (more : 1 < L.order.length)
      (ETH_le : L.tm.pendingETH b ≤ L.defaultETH)
      (debt_le : L.tm.pendingLUSDDebt b ≤ L.defaultDebt) :
      Move L .plain { L with
        activeETH := L.activeETH + L.tm.pendingETH b
        activeDebt := L.activeDebt + L.tm.pendingLUSDDebt b
        defaultETH := L.defaultETH - L.tm.pendingETH b
        defaultDebt := L.defaultDebt - L.tm.pendingLUSDDebt b
        order := L.order.erase b
        tm := L.tm.unregister b .closedByLiquidation
        inFlight :=
          { coll := L.inFlight.coll + ((L.tm.troves b).coll + L.tm.pendingETH b)
            debt := L.inFlight.debt + ((L.tm.troves b).debt + L.tm.pendingLUSDDebt b)
            gas := L.inFlight.gas + LUSD_GAS_COMPENSATION } }
  | offset {debt coll : Nat} {sp : StabilityPool} (debt_ne : debt ≠ 0)
      (debt_le : debt ≤ L.inFlight.debt) (coll_le : coll ≤ L.inFlight.coll)
      (balance : debt ≤ L.balances d.stabilityPool) (absorbs : L.sp.Absorbs debt coll sp) :
      Move L (.offset debt) { L with
        balances := debit L.balances d.stabilityPool debt
        totalSupply := L.totalSupply - debt
        activeETH := L.activeETH - coll
        activeDebt := L.activeDebt - debt
        sp
        inFlight :=
          { L.inFlight with coll := L.inFlight.coll - coll, debt := L.inFlight.debt - debt } }
  | redistribute {debt coll perUnitETH perUnitDebt errorETH errorDebt : Nat} (debt_ne : debt ≠ 0)
      (debt_le : debt ≤ L.inFlight.debt) (coll_le : coll ≤ L.inFlight.coll)
      (ETH : perUnitETH * L.tm.totalStakes + errorETH =
        coll * DECIMAL_PRECISION + L.tm.lastETHError_Redistribution)
      (LUSDDebt : perUnitDebt * L.tm.totalStakes + errorDebt =
        debt * DECIMAL_PRECISION + L.tm.lastLUSDDebtError_Redistribution) :
      Move L (.redistribute debt) { L with
        activeETH := L.activeETH - coll
        activeDebt := L.activeDebt - debt
        defaultETH := L.defaultETH + coll
        defaultDebt := L.defaultDebt + debt
        tm := { L.tm with
          L_ETH := L.tm.L_ETH + perUnitETH
          L_LUSDDebt := L.tm.L_LUSDDebt + perUnitDebt
          lastETHError_Redistribution := errorETH
          lastLUSDDebtError_Redistribution := errorDebt }
        inFlight :=
          { L.inFlight with coll := L.inFlight.coll - coll, debt := L.inFlight.debt - debt } }
  | updateSnapshots {collRemainder : Nat} (liquidated : 0 < L.inFlight.gas)
      (coll_le : collRemainder ≤ L.activeETH) :
      Move L .plain { L with
        tm := { L.tm with
          totalStakesSnapshot := L.tm.totalStakes
          totalCollateralSnapshot := L.activeETH - collRemainder + L.defaultETH } }
  | release {coll : Nat} (coll_le : coll ≤ L.inFlight.coll) :
      Move L .plain { L with
        activeETH := L.activeETH - coll
        inFlight := { L.inFlight with coll := L.inFlight.coll - coll } }
  | payGas {liquidator : Address} {gas : Nat} (gas_le : gas ≤ L.inFlight.gas) :
      Move L .plain { L with
        balances := move L.balances d.gasPool liquidator gas
        inFlight := { L.inFlight with gas := L.inFlight.gas - gas } }
  | redeemFully {b : Address} {ETHLot : Nat} (active : (L.tm.troves b).status = .active)
      (more : 1 < L.order.length) (ETH_le : ETHLot ≤ (L.tm.troves b).coll) :
      Move L .plain { L with
        balances := debit L.balances d.gasPool LUSD_GAS_COMPENSATION
        totalSupply := L.totalSupply - LUSD_GAS_COMPENSATION
        activeETH := L.activeETH - ((L.tm.troves b).coll - ETHLot)
        activeDebt := L.activeDebt - LUSD_GAS_COMPENSATION
        order := L.order.erase b
        tm := L.tm.unregister b .closedByRedemption
        inFlight :=
          { L.inFlight with
            coll := L.inFlight.coll + ETHLot
            debt := L.inFlight.debt + ((L.tm.troves b).debt - LUSD_GAS_COMPENSATION) } }
  | redeemPartially {b : Address} {LUSDLot ETHLot stake NICR : Nat} {u v : List Address}
      (active : (L.tm.troves b).status = .active)
      (settled : L.tm.L_ETH ≤ (L.tm.rewardSnapshots b).ETH)
      (LUSD_le : LUSDLot ≤ (L.tm.troves b).debt) (ETH_le : ETHLot ≤ (L.tm.troves b).coll)
      (minDebt : minDebt ≤ (L.tm.troves b).debt - LUSDLot)
      (ratio : computeNominalCR ((L.tm.troves b).coll - ETHLot) ((L.tm.troves b).debt - LUSDLot) =
        .ok NICR)
      (positive : 0 < NICR)
      (newStake : L.tm.computeNewStake ((L.tm.troves b).coll - ETHLot) = .ok stake)
      (order : L.order.erase b = u ++ v)
      (fits : SortedTroves.Fits L.tm.getNominalICR NICR u v) :
      Move L (.restake b ((L.tm.troves b).coll - ETHLot)) { L with
        order := u ++ b :: v
        tm := L.tm.adjusted b ((L.tm.troves b).coll - ETHLot) ((L.tm.troves b).debt - LUSDLot) stake
        inFlight :=
          { L.inFlight with
            coll := L.inFlight.coll + ETHLot, debt := L.inFlight.debt + LUSDLot } }
  | burnRedeemed {redeemer : Address} {amount : Nat} (gasPool : redeemer ≠ d.gasPool)
      (stabilityPool : redeemer ≠ d.stabilityPool) (balance : amount ≤ L.balances redeemer)
      (debt_le : amount ≤ L.inFlight.debt) :
      Move L .plain { L with
        balances := debit L.balances redeemer amount
        totalSupply := L.totalSupply - amount
        activeDebt := L.activeDebt - amount
        inFlight := { L.inFlight with debt := L.inFlight.debt - amount } }
  | issueLQTY {issuance : Nat} {sp : StabilityPool} (issued : L.sp.updateG issuance = .ok sp) :
      Move L .plain { L with sp }
  | registerFrontEnd {a : Address} {kickbackRate : Nat}
      (unregistered : (L.sp.frontEnds a).registered = false)
      (valid : kickbackRate ≤ DECIMAL_PRECISION) :
      Move L .plain { L with
        sp := { L.sp with
          frontEnds := Function.update L.sp.frontEnds a ⟨kickbackRate, true⟩ } }
  | redeposit {i f : Address} {value stake compounded compoundedStake total paid : Nat}
      {balances : Address → Nat}
      (tag : (L.sp.deposits i).initialValue ≠ 0 → (L.sp.deposits i).frontEndTag = f)
      (compounded_ok : L.sp.getCompoundedLUSDDeposit i = .ok compounded)
      (stake_ok : L.sp.getCompoundedFrontEndStake f = .ok compoundedStake)
      (paid_ok : L.sp.getDepositorETHGain i = .ok paid)
      (reserve : paid ≤ L.sp.ETH)
      (stake_eq : stake + compounded = compoundedStake + value)
      (total_eq : total + compounded = L.sp.totalLUSDDeposits + value)
      (balance_eq : balances d.stabilityPool + L.sp.totalLUSDDeposits =
        L.balances d.stabilityPool + total)
      (sum_eq : ∑ a, balances a = ∑ a, L.balances a)
      (gasPool : L.balances d.gasPool ≤ balances d.gasPool) :
      Move L (.redeposit i f) { L with
        balances
        sp := L.sp.redeposited i f value stake total paid }

/-- The ledger `L'` is reached from `L` by moves that `allow` admits. -/
def Run (allow : Ledger → Label → Prop) (L L' : Ledger) : Prop :=
  Lib.Reachable (fun L₀ => L₀ = L) (Move d) allow L'

end Ledger

end Liquity
