import Liquity.Simulation.Troves
import Liquity.Subgraph

/-!
# What the contracts do between their events

The state of the contracts as an indexer can follow it, and the groups of events that the contracts emit
together.  An `Emission` says what such a group reports; `Emits` puts emissions together.
Where `exact` is asked for, an emission also says that what is reported suffices to follow the snapshots
and the totals, and not just the troves.
-/

open Lib

namespace Liquity

open TroveManager

/-- Rewards that the stake and the snapshots say are pending, but that round to nothing. -/
def TroveManager.RewardsVanish (b : Address) (t : TroveManager) : Prop :=
  t.hasPendingRewards b = true ∧ (t.troves b).stake ≠ 0 ∧ t.pendingETH b = 0 ∧ t.pendingLUSDDebt b = 0

instance (b : Address) (t : TroveManager) : Decidable (t.RewardsVanish b) :=
  inferInstanceAs (Decidable (_ ∧ _ ∧ _ ∧ _))

namespace Subgraph

/-! ## Views -/

/-- What can be known of the contracts in the course of a transaction. -/
structure View where
  troveManager : TroveManager
  /-- The troves whose snapshots cannot be told from the events. -/
  stale : Set Address
  deposits : Address → Nat
  /-- The price emitted last. -/
  price : Option Nat
  coll : ℤ
  debt : ℤ
  tokens : ℤ

variable {t t' : TroveManager} {b x : Address} {status : Status}

/-- Only the trove `b` is written. -/
structure Writes (b : Address) (t t' : TroveManager) : Prop where
  L_ETH : t'.L_ETH = t.L_ETH
  L_LUSDDebt : t'.L_LUSDDebt = t.L_LUSDDebt
  other : ∀ x ≠ b, SameTrove t t' x ∧ (t'.troves x).status = (t.troves x).status

theorem Writes.applied (t : TroveManager) (b : Address) : Writes b t (t.applied b) where
  L_ETH := rfl
  L_LUSDDebt := rfl
  other x hx := by
    obtain ⟨htrove, hsnapshot⟩ := applied_of_ne (t := t) hx
    exact ⟨⟨by rw [htrove], by rw [htrove], by rw [htrove], hsnapshot⟩, by rw [htrove]⟩

theorem Writes.unregister (t : TroveManager) (b : Address) (status : Status) :
    Writes b t (t.unregister b status) :=
  ⟨rfl, rfl, fun _ hx => sameTrove_unregister hx⟩

theorem Writes.register (t : TroveManager) (b : Address) (coll debt stake : Nat) :
    Writes b t (t.register b coll debt stake) where
  L_ETH := rfl
  L_LUSDDebt := rfl
  other x hx := by
    refine ⟨⟨?_, ?_, ?_, ?_⟩, ?_⟩ <;> simp only [TroveManager.register, Function.update_of_ne hx]

theorem Writes.adjusted (t : TroveManager) (b : Address) (coll debt stake : Nat) :
    Writes b t (t.adjusted b coll debt stake) where
  L_ETH := rfl
  L_LUSDDebt := rfl
  other x hx := by
    refine ⟨⟨?_, ?_, ?_, rfl⟩, ?_⟩ <;> simp only [TroveManager.adjusted, Function.update_of_ne hx]

/-- The change that closes a trove which is worth `coll` and owes `debt`. -/
def liquidationChange (operation : TroveOperation) (coll debt : Nat) (price : ℚ) : TroveChange where
  troveOperation := operation
  collateralBefore := decimalize coll
  debtBefore := decimalize debt
  collateralRatioBefore := calculateCollateralRatio (decimalize coll) (decimalize debt) price
  collateralChange := decimalize 0 - decimalize coll
  debtChange := decimalize 0 - decimalize debt

/-- The subgraph moves the totals by the values that the contracts tally for a trove. -/
def Decides (operation : TroveOperation) (price LUSDInStabPool : Nat) (vals : LiquidationValues) :
    Prop :=
  ∀ C D : ℤ, SystemState.updateByTroveChange
      (liquidationChange operation vals.entireTroveColl vals.entireTroveDebt (decimalize price))
      ⟨some (decimalize price), decimalize C, decimalize D, decimalize LUSDInStabPool⟩ =
    some ⟨some (decimalize price),
      decimalize (C - (vals.collToSendToSP + vals.collSurplus + vals.collGasCompensation : Nat)),
      decimalize (D - vals.debtToOffset), decimalize (LUSDInStabPool - vals.debtToOffset)⟩

/-! ## Emissions -/

/-- The event that reports a trove after a borrower operation or a redemption. -/
inductive Reports (b : Address) (trove : Liquity.Trove) : TroveOperation → Event → Prop
  | borrower (operation : BorrowerOperation) :
      Reports b trove (getTroveOperationFromBorrowerOperation operation)
        (.troveUpdatedByBorrower b trove.debt trove.coll trove.stake operation)
  | redemption :
      Reports b trove .redeemCollateral
        (.troveUpdated b trove.debt trove.coll trove.stake .redeemCollateral)

/-- The status that an operation other than a liquidation leaves. -/
def statusLeft (operation : TroveOperation) (coll : Nat) : Status :=
  if coll = 0 then if operation.isRedemption then .closedByRedemption else .closedByOwner
  else .active

/-- A group of events and what it says about the contracts. -/
inductive Emission (exact : Prop) (v : View) : List Event → View → Prop
  | silent {t : TroveManager} {stale : Set Address} (troves : t.troves = v.troveManager.troves)
      (snapshots : t.rewardSnapshots = v.troveManager.rewardSnapshots)
      (L_ETH : t.L_ETH = v.troveManager.L_ETH) (L_LUSDDebt : t.L_LUSDDebt = v.troveManager.L_LUSDDebt)
      (stale_le : v.stale ⊆ stale) :
      Emission exact v [] { v with troveManager := t, stale }
  | lastGoodPriceUpdated (price : Nat) :
      Emission exact v [.lastGoodPriceUpdated price] { v with price := some price }
  | LTermsUpdated {t : TroveManager} (troves : t.troves = v.troveManager.troves)
      (snapshots : t.rewardSnapshots = v.troveManager.rewardSnapshots)
      (L_ETH : v.troveManager.L_ETH ≤ t.L_ETH) (L_LUSDDebt : v.troveManager.L_LUSDDebt ≤ t.L_LUSDDebt) :
      Emission exact v [.LTermsUpdated t.L_ETH t.L_LUSDDebt] { v with troveManager := t }
  | applied {b : Address} {stale : Set Address} {price : Nat} (price_eq : v.price = some price)
      (active : (v.troveManager.troves b).status = .active)
      (positive : 0 < (v.troveManager.troves b).coll) (stale_le : v.stale ⊆ stale)
      -- the trove is not saved again when its amounts stay the same
      (vanish : exact → (v.troveManager.troves b).stake ≠ 0 → v.troveManager.pendingETH b = 0 →
        v.troveManager.pendingLUSDDebt b = 0 → b ∈ stale) :
      Emission exact v [updated .applyPendingRewards b (v.troveManager.applied b)]
        { v with troveManager := v.troveManager.applied b, stale }
  | updated {b : Address} {t : TroveManager} {stale : Set Address} {price : Nat}
      {operation : TroveOperation} {e : Event} (price_eq : v.price = some price)
      (reports : Reports b (t.troves b) operation e) (writes : Writes b v.troveManager t)
      (changed : (t.troves b).coll ≠ (v.troveManager.troves b).coll ∨
        (t.troves b).debt ≠ (v.troveManager.troves b).debt)
      (status : (t.troves b).status = statusLeft operation (t.troves b).coll)
      (closing : (t.troves b).coll = 0 → (v.troveManager.troves b).status = .active)
      (stale_le : v.stale \ {b} ⊆ stale)
      (snapshot : exact → b ∉ stale → (t.troves b).stake ≠ 0 →
        t.rewardSnapshots b = ⟨t.L_ETH, t.L_LUSDDebt⟩) :
      Emission exact v [e] { v with
        troveManager := t, stale
        coll := v.coll + ((t.troves b).coll - (v.troveManager.troves b).coll)
        debt := v.debt + ((t.troves b).debt - (v.troveManager.troves b).debt) }
  | liquidated {b : Address} {price LUSDInStabPool : Nat} {operation : TroveManagerOperation}
      {vals : LiquidationValues} (price_eq : v.price = some price)
      (liquidation : (getTroveOperationFromTroveManagerOperation operation).isLiquidation = true)
      (active : (v.troveManager.troves b).status = .active)
      (positive : 0 < (v.troveManager.troves b).coll) (owes : 0 < (v.troveManager.troves b).debt)
      (fresh : exact → b ∉ v.stale)
      (L_ETH : (v.troveManager.rewardSnapshots b).ETH ≤ v.troveManager.L_ETH)
      (L_LUSDDebt : (v.troveManager.rewardSnapshots b).LUSDDebt ≤ v.troveManager.L_LUSDDebt)
      (coll : vals.entireTroveColl = (v.troveManager.troves b).coll + v.troveManager.pendingETH b)
      (debt : vals.entireTroveDebt = (v.troveManager.troves b).debt + v.troveManager.pendingLUSDDebt b)
      (tokens : v.tokens = LUSDInStabPool)
      (decides : Decides (getTroveOperationFromTroveManagerOperation operation) price LUSDInStabPool
        vals) :
      Emission exact v (liquidatedLog operation b) { v with
        troveManager := v.troveManager.unregister b .closedByLiquidation
        coll := v.coll - (vals.collToSendToSP + vals.collSurplus + vals.collGasCompensation : Nat)
        debt := v.debt - vals.debtToOffset
        tokens := v.tokens - vals.debtToOffset }
  | deposit {x : Address} {compounded loss gain newDeposit : Nat}
      (loss_eq : v.deposits x = compounded + loss) :
      Emission exact v [.userDepositChanged x newDeposit, .ETHGainWithdrawn x gain loss] { v with
        deposits := Function.update v.deposits x newDeposit
        tokens := v.tokens + (newDeposit - compounded) }
  | gainToTrove {x : Address} {compounded loss gain newDeposit : Nat}
      (loss_eq : v.deposits x = compounded + loss) :
      Emission exact v [.ETHGainWithdrawn x gain loss, .userDepositChanged x newDeposit] { v with
        deposits := Function.update v.deposits x newDeposit
        tokens := v.tokens + (newDeposit - compounded) }

/-- A log of emissions, one after the other. -/
inductive Emits (exact : Prop) : View → List Event → View → Prop
  | nil (v : View) : Emits exact v [] v
  | cons {v v' v'' : View} {log log' : List Event} (h : Emission exact v log v')
      (rest : Emits exact v' log' v'') : Emits exact v (log ++ log') v''

namespace Emits

variable {exact : Prop} {v v' v'' : View} {log log' : List Event}

theorem single (h : Emission exact v log v') : Emits exact v log v' := by
  have hlog : log ++ [] = log := List.append_nil log
  rw [← hlog]
  exact .cons h (.nil v')

theorem congr (h : Emits exact v log v') (hv : v'' = v') : Emits exact v log v'' := by
  rw [hv]
  exact h

theorem append (h : Emits exact v log v') (h' : Emits exact v' log' v'') :
    Emits exact v (log ++ log') v'' := by
  induction h with
  | nil => exact h'
  | cons he _ ih =>
    rw [List.append_assoc]
    exact .cons he (ih h')

end Emits

end Subgraph

end Liquity
