import Liquity.Deposits
import Liquity.Lib.Balances
import Liquity.Lib.Reachability
import Mathlib.Algebra.BigOperators.Group.Finset.Basic

/-!
# Transactions and reachable states

The transactions that accounts outside the protocol can send, the state a fresh deployment starts
in, and the states that finite sequences of successful transactions reach.
-/

open Lib

namespace Liquity

/-- The external entry points. -/
inductive Call where
  | openTrove (maxFeePercentage LUSDAmount : Nat) (upperHint lowerHint : Address)
  | addColl (upperHint lowerHint : Address)
  | withdrawColl (collWithdrawal : Nat) (upperHint lowerHint : Address)
  | withdrawLUSD (maxFeePercentage LUSDAmount : Nat) (upperHint lowerHint : Address)
  | repayLUSD (LUSDAmount : Nat) (upperHint lowerHint : Address)
  | adjustTrove (maxFeePercentage collWithdrawal LUSDChange : Nat) (isDebtIncrease : Bool)
      (upperHint lowerHint : Address)
  | closeTrove
  | claimCollateral
  | liquidate (borrower : Address)
  | liquidateTroves (n : Nat)
  | batchLiquidateTroves (troveArray : List Address)
  | redeemCollateral (LUSDamount : Nat) (hints : TroveManager.RedemptionHints)
      (maxIterations maxFeePercentage : Nat)
  | provideToSP (amount : Nat) (frontEndTag : Address)
  | withdrawFromSP (amount : Nat)
  | withdrawETHGainToTrove (upperHint lowerHint : Address)
  | registerFrontEnd (kickbackRate : Nat)
  | stake (LQTYamount : Nat)
  | unstake (LQTYamount : Nat)
  | transferLUSD (recipient : Address) (amount : Nat)
  | approveLUSD (spender : Address) (amount : Nat)
  | transferLUSDFrom (sender recipient : Address) (amount : Nat)
  | transferLQTY (recipient : Address) (amount : Nat)
  | approveLQTY (spender : Address) (amount : Nat)
  | transferLQTYFrom (sender recipient : Address) (amount : Nat)

namespace Call

/-- The functions declared `payable`; all others reject ether. -/
def isPayable : Call → Bool
  | openTrove .. | addColl .. | adjustTrove .. => true
  | _ => false

variable (d : Deployment)

/-- The body of an entry point. -/
def body (env : Env) : Call → System → Tx System
  | openTrove f a u l => BorrowerOperations.openTrove d env f a u l
  | addColl u l => BorrowerOperations.addColl d env u l
  | withdrawColl c u l => BorrowerOperations.withdrawColl d env c u l
  | withdrawLUSD f a u l => BorrowerOperations.withdrawLUSD d env f a u l
  | repayLUSD a u l => BorrowerOperations.repayLUSD d env a u l
  | adjustTrove f c a i u l => BorrowerOperations.adjustTrove d env f c a i u l
  | closeTrove => BorrowerOperations.closeTrove d env
  | claimCollateral => BorrowerOperations.claimCollateral d env
  | liquidate b => TroveManager.liquidate d env b
  | liquidateTroves n => TroveManager.liquidateTroves d env n
  | batchLiquidateTroves a => TroveManager.batchLiquidateTroves d env a
  | redeemCollateral a h i f => TroveManager.redeemCollateral d env a h i f
  | provideToSP a t => StabilityPool.provideToSP d env a t
  | withdrawFromSP a => StabilityPool.withdrawFromSP d env a
  | withdrawETHGainToTrove u l => StabilityPool.withdrawETHGainToTrove d env u l
  | registerFrontEnd k => StabilityPool.registerFrontEnd env k
  | stake a => LQTYStaking.stake d env a
  | unstake a => LQTYStaking.unstake d env a
  | transferLUSD r a => fun s => s.onLUSDToken (LUSDToken.transfer d env.sender r a)
  | approveLUSD p a => fun s => s.onLUSDToken (LUSDToken.approve env.sender p a)
  | transferLUSDFrom o r a => fun s => s.onLUSDToken (LUSDToken.transferFrom d env.sender o r a)
  | transferLQTY r a =>
      fun s => s.onLQTYToken (LQTYToken.transfer d env.timestamp env.sender r a)
  | approveLQTY p a => fun s => s.onLQTYToken (LQTYToken.approve d env.timestamp env.sender p a)
  | transferLQTYFrom o r a =>
      fun s => s.onLQTYToken (LQTYToken.transferFrom d env.timestamp env.sender o r a)

/-- Ether sent along arrives at `BorrowerOperations`, whose functions are the payable ones. -/
def receiveValue (env : Env) (call : Call) (s : System) : Tx System :=
  if env.value = 0 then .ok s
  else do
    require (call.isPayable = true) "function is not payable"
    require (env.value ≤ s.ether env.sender) "insufficient funds for transfer"
    return { s with
      ether := System.moveEther env.sender d.borrowerOperations env.value s.ether }

/-- One transaction. -/
def execute (env : Env) (call : Call) (s : System) : Tx System := do
  let s ← receiveValue d env call { s with timestamp := env.timestamp }
  call.body d env s

end Call

namespace System

/-- The state right after wiring: empty storage, `P = 1`, the LQTY allocation, and an arbitrary
distribution of ether. -/
def initial (d : Deployment) (ether : Address → Nat) (timestamp : Nat) : System where
  activePool := ⟨0, 0⟩
  defaultPool := ⟨0, 0⟩
  collSurplusPool := ⟨0, fun _ => 0⟩
  sortedTroves := SortedTroves.initial d.maxSize
  troveManager := {
    baseRate := 0, lastFeeOperationTime := 0
    troves := fun _ => ⟨0, 0, 0, .nonExistent, 0⟩
    totalStakes := 0, totalStakesSnapshot := 0, totalCollateralSnapshot := 0
    L_ETH := 0, L_LUSDDebt := 0
    rewardSnapshots := fun _ => ⟨0, 0⟩
    troveOwners := []
    lastETHError_Redistribution := 0, lastLUSDDebtError_Redistribution := 0 }
  stabilityPool := {
    ETH := 0, totalLUSDDeposits := 0
    deposits := fun _ => ⟨0, 0⟩
    depositSnapshots := fun _ => ⟨0, 0, 0, 0, 0⟩
    frontEnds := fun _ => ⟨0, false⟩
    frontEndStakes := fun _ => 0
    frontEndSnapshots := fun _ => ⟨0, 0, 0, 0, 0⟩
    P := DECIMAL_PRECISION, currentScale := 0, currentEpoch := 0
    epochToScaleToSum := fun _ _ => 0
    epochToScaleToG := fun _ _ => 0
    lastLQTYError := 0, lastETHError_Offset := 0, lastLUSDLossError_Offset := 0 }
  lusdToken := ⟨fun _ => 0, 0, fun _ _ => 0⟩
  lqtyToken := LQTYToken.initial d
  lqtyStaking := ⟨fun _ => 0, 0, 0, 0, fun _ => ⟨0, 0⟩⟩
  communityIssuance := ⟨0⟩
  ether := ether
  timestamp := timestamp

end System

/-- A freshly wired deployment.  The native coin's supply fits in 128 bits, as the source assumes
when it stores array indices in a `uint128`. -/
def IsInitial (d : Deployment) (s : System) : Prop :=
  ∃ ether timestamp, ∑ a, ether a < 2 ^ 128 ∧ s = System.initial d ether timestamp

/-- A transaction and the environment it runs in. -/
structure Transaction where
  env : Env
  call : Call

/-- What the chain guarantees of a transaction: it comes from outside the protocol, time does not
run backwards, and the price feed reports a positive price. -/
structure Transaction.Valid (d : Deployment) (t : Transaction) (s : System) : Prop where
  external : d.External t.env.sender
  time : s.timestamp ≤ t.env.timestamp
  price : 0 < t.env.price

/-- A successful transaction. -/
def Step (d : Deployment) (s : System) (t : Transaction) (s' : System) : Prop :=
  t.Valid d s ∧ t.call.execute d t.env s = .ok s'

/-- A call without ether. -/
theorem Step.of_body {d : Deployment} {s s' : System} {env : Env} {call : Call}
    (hvalid : Transaction.Valid d ⟨env, call⟩ s) (hvalue : env.value = 0)
    (h : call.body d env { s with timestamp := env.timestamp } = .ok s') :
    Step d s ⟨env, call⟩ s' := by
  refine ⟨hvalid, bind_ok.mpr ⟨{ s with timestamp := env.timestamp }, ?_, h⟩⟩
  rw [Call.receiveValue, if_pos hvalue]

/-- States reached by runs all of whose transactions meet `cond` in the state they start in. -/
def ReachableWhen (d : Deployment) (cond : System → Transaction → Prop) : System → Prop :=
  -- a condition is on the state before a transaction, never on what it does
  Lib.Reachable (IsInitial d) (Step d) cond

/-- States reached by any finite sequence of successful transactions. -/
def Reachable (d : Deployment) : System → Prop := ReachableWhen d fun _ _ => True

theorem ReachableWhen.reachable {d : Deployment} {cond : System → Transaction → Prop} {s : System}
    (h : ReachableWhen d cond s) : Reachable d s :=
  Lib.Reachable.mono (fun _ _ _ => trivial) h

/-! ## Running concrete transactions -/

instance (d : Deployment) (t : Transaction) (s : System) : Decidable (t.Valid d s) :=
  decidable_of_iff (d.External t.env.sender ∧ s.timestamp ≤ t.env.timestamp ∧ 0 < t.env.price)
    ⟨fun ⟨h₁, h₂, h₃⟩ => ⟨h₁, h₂, h₃⟩, fun ⟨h₁, h₂, h₃⟩ => ⟨h₁, h₂, h₃⟩⟩

/-- The state after a sequence of transactions, if all of them meet the condition, are valid and
succeed. -/
def run (d : Deployment) (cond : System → Transaction → Prop) [∀ s t, Decidable (cond s t)] :
    List Transaction → System → Option System
  | [], s => some s
  | t :: rest, s =>
    if cond s t ∧ t.Valid d s then
      match t.call.execute d t.env s with
      | .ok s' => run d cond rest s'
      | .error _ => none
    else none

theorem reachable_of_run {d : Deployment} {start : System → Prop}
    {cond : System → Transaction → Prop} [∀ s t, Decidable (cond s t)]
    {transactions : List Transaction} {s s' : System}
    (hs : Lib.Reachable start (Step d) cond s) (h : run d cond transactions s = some s') :
    Lib.Reachable start (Step d) cond s' := by
  induction transactions generalizing s with
  | nil =>
    cases h
    exact hs
  | cons t rest ih =>
    unfold run at h
    split at h
    next hok =>
      split at h
      next s₁ hs₁ => exact ih (.step hs hok.1 ⟨hok.2, hs₁⟩) h
      next => cases h
    next => cases h

/-- The given accounts each hold `amount` wei. -/
def funded (accounts : List Address) (amount : Nat) : Address → Nat :=
  accounts.foldr (fun a f => Function.update f a (f a + amount)) fun _ => 0

theorem sum_funded (accounts : List Address) (amount : Nat) :
    ∑ a, funded accounts amount a = accounts.length * amount := by
  induction accounts with
  | nil => simp [funded]
  | cons a rest ih =>
    have h := sum_update_add (fun n => n) (funded rest amount) a (funded rest amount a + amount)
    rw [List.length_cons, Nat.add_mul, Nat.one_mul, ← ih]
    change ∑ x, Function.update (funded rest amount) a (funded rest amount a + amount) x = _
    omega

theorem isInitial_funded (d : Deployment) {accounts : List Address} {amount timestamp : Nat}
    (h : accounts.length * amount < 2 ^ 128) :
    IsInitial d (System.initial d (funded accounts amount) timestamp) :=
  ⟨_, _, by rwa [sum_funded], rfl⟩

/-- The first state of the sample deployment, with four funded accounts. -/
def sampleInitial : System := .initial sampleDeployment (funded [101, 102, 103, 104] (10 ^ 36)) 0

theorem sampleInitial_reachable (cond : System → Transaction → Prop) :
    ReachableWhen sampleDeployment cond sampleInitial :=
  .init (isInitial_funded sampleDeployment (by decide))

/-- Two accounts open troves, with 10 and 0.6 ether at a price of 2000. -/
def sampleOpenings : List Transaction :=
  [⟨⟨101, 10 ^ 19, 0, 2000 * 10 ^ 18⟩, .openTrove (10 ^ 18) (3000 * 10 ^ 18) 0 0⟩,
    ⟨⟨102, 6 * 10 ^ 17, 0, 2000 * 10 ^ 18⟩, .openTrove (10 ^ 18) (1000 * 10 ^ 18) 0 0⟩]

/-- What a run of concrete transactions reaches, tested by evaluation. -/
theorem exists_reachable (cond : System → Transaction → Prop) [∀ s t, Decidable (cond s t)]
    (transactions : List Transaction) (p : System → Prop) [DecidablePred p]
    (h : (run sampleDeployment cond transactions sampleInitial).any (fun s => decide (p s)) = true) :
    ∃ s, ReachableWhen sampleDeployment cond s ∧ p s := by
  obtain ⟨s, hs, hp⟩ := (Option.any_eq_true _ _).mp h
  exact ⟨s, reachable_of_run (sampleInitial_reachable cond) hs, of_decide_eq_true hp⟩

/-- What one more transaction does after a run of concrete transactions, tested by evaluation. -/
theorem exists_step (transactions : List Transaction) (t : Transaction) (p : System → System → Prop)
    [∀ s s', Decidable (p s s')]
    (h : (run sampleDeployment (fun _ _ => True) transactions sampleInitial).any (fun s =>
      decide (t.Valid sampleDeployment s) &&
        (t.call.execute sampleDeployment t.env s).toOption.any (fun s' => decide (p s s'))) = true) :
    ∃ s s', Reachable sampleDeployment s ∧ Step sampleDeployment s t s' ∧ p s s' := by
  obtain ⟨s, hs, hp⟩ := (Option.any_eq_true _ _).mp h
  rw [Bool.and_eq_true] at hp
  obtain ⟨s', hs', hp'⟩ := exists_ok hp.2
  exact ⟨s, s', reachable_of_run (sampleInitial_reachable _) hs, ⟨of_decide_eq_true hp.1, hs'⟩, hp'⟩

end Liquity
