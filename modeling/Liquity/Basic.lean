import Mathlib.Data.Fintype.Basic
import Mathlib.Data.Fin.Basic
import Mathlib.Algebra.NeZero
import Mathlib.Logic.Function.Basic
import Mathlib.Data.List.Nodup
import Liquity.Lib.Transaction

/-!
# Addresses, wiring and checked arithmetic

The contracts of the protocol know each other by address.  A `Deployment` is the wiring that the
one-time `setAddresses` and `setParams` calls leave behind; it never changes afterwards, because
every setter renounces ownership.
-/

open Lib

namespace Liquity

def Address : Type := Fin (2 ^ 160)

namespace Address

instance : DecidableEq Address := inferInstanceAs (DecidableEq (Fin (2 ^ 160)))
instance : Fintype Address := inferInstanceAs (Fintype (Fin (2 ^ 160)))
instance (n : Nat) : OfNat Address n := ⟨⟨n % 2 ^ 160, Nat.mod_lt _ (Nat.two_pow_pos 160)⟩⟩
instance : Inhabited Address := ⟨0⟩

end Address

/-! ## `SafeMath` and `LiquitySafeMath128` -/

namespace SafeMath

def add (a b : Nat) : Tx Nat := checkedAdd 256 "SafeMath: addition overflow" a b
def sub (a b : Nat) : Tx Nat := checkedSub "SafeMath: subtraction overflow" a b
def mul (a b : Nat) : Tx Nat := checkedMul 256 "SafeMath: multiplication overflow" a b
def div (a b : Nat) : Tx Nat := checkedDiv "SafeMath: division by zero" a b

variable {a b c : Nat}

theorem add_ok : add a b = .ok c ↔ a + b < 2 ^ 256 ∧ a + b = c := checkedAdd_ok
theorem sub_ok : sub a b = .ok c ↔ b ≤ a ∧ a - b = c := checkedSub_ok
theorem mul_ok : mul a b = .ok c ↔ a * b < 2 ^ 256 ∧ a * b = c := checkedMul_ok
theorem div_ok : div a b = .ok c ↔ 0 < b ∧ a / b = c := checkedDiv_ok

end SafeMath

namespace LiquitySafeMath128

def add (a b : Nat) : Tx Nat := checkedAdd 128 "LiquitySafeMath128: addition overflow" a b
def sub (a b : Nat) : Tx Nat := checkedSub "LiquitySafeMath128: subtraction overflow" a b

variable {a b c : Nat}

theorem add_ok : add a b = .ok c ↔ a + b < 2 ^ 128 ∧ a + b = c := checkedAdd_ok
theorem sub_ok : sub a b = .ok c ↔ b ≤ a ∧ a - b = c := checkedSub_ok

end LiquitySafeMath128

/-- A subtraction below zero or a division by zero. -/
def IsUnderflow (e : Revert) : Prop :=
  e ∈ [.reason "SafeMath: subtraction overflow", .reason "LiquitySafeMath128: subtraction overflow",
    .reason "SafeMath: division by zero"]

instance (e : Revert) : Decidable (IsUnderflow e) := inferInstanceAs (Decidable (_ ∈ _))

/-- A number that does not fit its width. -/
def IsOverflow (e : Revert) : Prop :=
  e ∈ [.reason "SafeMath: addition overflow", .reason "SafeMath: multiplication overflow",
    .reason "LiquitySafeMath128: addition overflow"]

instance (e : Revert) : Decidable (IsOverflow e) := inferInstanceAs (Decidable (_ ∈ _))

theorem IsOverflow.not_isUnderflow {e : Revert} (h : IsOverflow e) : ¬ IsUnderflow e := by
  simp only [IsOverflow, List.mem_cons, List.not_mem_nil, or_false] at h
  rcases h with rfl | rfl | rfl
  all_goals decide

/-! ## Wiring -/

/-- The wired contracts, the receivers of the initial LQTY allocation, and what the constructors
and setters fix for good. -/
structure Deployment where
  borrowerOperations : Address
  troveManager : Address
  activePool : Address
  defaultPool : Address
  stabilityPool : Address
  gasPool : Address
  collSurplusPool : Address
  sortedTroves : Address
  priceFeed : Address
  lusdToken : Address
  lqtyToken : Address
  lqtyStaking : Address
  communityIssuance : Address
  /-- Receivers of the initial LQTY supply besides `communityIssuance`. -/
  bounty : Address
  lpRewards : Address
  multisig : Address
  /-- Lockup contracts registered in the `LockupContractFactory`. -/
  isRegisteredLockup : Address → Bool
  /-- `SortedTroves.setParams` size. -/
  maxSize : Nat
  /-- `LQTYToken.deploymentStartTime`. -/
  deploymentStartTime : Nat
  /-- `CommunityIssuance.deploymentTime`. -/
  deploymentTime : Nat

namespace Deployment

/-- The addresses that carry contract code of the protocol. -/
def contracts (d : Deployment) : List Address :=
  [d.borrowerOperations, d.troveManager, d.activePool, d.defaultPool, d.stabilityPool, d.gasPool,
    d.collSurplusPool, d.sortedTroves, d.priceFeed, d.lusdToken, d.lqtyToken, d.lqtyStaking,
    d.communityIssuance]

/-- What deploying and wiring the contracts guarantees: distinct non-zero addresses and a
non-empty list bound. -/
structure Wired (d : Deployment) : Prop where
  nodup : d.contracts.Nodup
  zero_notMem : 0 ∉ d.contracts
  maxSize_pos : 0 < d.maxSize

instance (d : Deployment) : Decidable d.Wired :=
  decidable_of_iff (d.contracts.Nodup ∧ 0 ∉ d.contracts ∧ 0 < d.maxSize)
    ⟨fun ⟨h₁, h₂, h₃⟩ => ⟨h₁, h₂, h₃⟩, fun ⟨h₁, h₂, h₃⟩ => ⟨h₁, h₂, h₃⟩⟩

/-- An account outside the protocol: the protocol's own contracts only make the calls that their
code makes, so a transaction never starts at one of them. -/
def External (d : Deployment) (a : Address) : Prop := a ≠ 0 ∧ a ∉ d.contracts

instance (d : Deployment) (a : Address) : Decidable (d.External a) :=
  inferInstanceAs (Decidable (_ ∧ _))

section Distinct

variable {d : Deployment} {a : Address}

/-- Two wired contracts, by their position in `contracts`. -/
theorem Wired.get_ne (hd : d.Wired) {i j : Fin 13} (hij : i ≠ j) :
    d.contracts.get i ≠ d.contracts.get j :=
  fun h => hij (List.nodup_iff_injective_get.mp hd.nodup h)

theorem Wired.borrowerOperations_ne_activePool (hd : d.Wired) : d.borrowerOperations ≠ d.activePool :=
  hd.get_ne (show (0 : Fin 13) ≠ 2 by decide)
theorem Wired.defaultPool_ne_activePool (hd : d.Wired) : d.defaultPool ≠ d.activePool :=
  hd.get_ne (show (3 : Fin 13) ≠ 2 by decide)
theorem Wired.stabilityPool_ne_activePool (hd : d.Wired) : d.stabilityPool ≠ d.activePool :=
  hd.get_ne (show (4 : Fin 13) ≠ 2 by decide)
theorem Wired.collSurplusPool_ne_activePool (hd : d.Wired) : d.collSurplusPool ≠ d.activePool :=
  hd.get_ne (show (6 : Fin 13) ≠ 2 by decide)
theorem Wired.lqtyStaking_ne_activePool (hd : d.Wired) : d.lqtyStaking ≠ d.activePool :=
  hd.get_ne (show (11 : Fin 13) ≠ 2 by decide)
theorem Wired.stabilityPool_ne_defaultPool (hd : d.Wired) : d.stabilityPool ≠ d.defaultPool :=
  hd.get_ne (show (4 : Fin 13) ≠ 3 by decide)
theorem Wired.collSurplusPool_ne_defaultPool (hd : d.Wired) : d.collSurplusPool ≠ d.defaultPool :=
  hd.get_ne (show (6 : Fin 13) ≠ 3 by decide)
theorem Wired.lqtyStaking_ne_defaultPool (hd : d.Wired) : d.lqtyStaking ≠ d.defaultPool :=
  hd.get_ne (show (11 : Fin 13) ≠ 3 by decide)
theorem Wired.collSurplusPool_ne_stabilityPool (hd : d.Wired) : d.collSurplusPool ≠ d.stabilityPool :=
  hd.get_ne (show (6 : Fin 13) ≠ 4 by decide)
theorem Wired.lqtyStaking_ne_stabilityPool (hd : d.Wired) : d.lqtyStaking ≠ d.stabilityPool :=
  hd.get_ne (show (11 : Fin 13) ≠ 4 by decide)
theorem Wired.lqtyStaking_ne_collSurplusPool (hd : d.Wired) : d.lqtyStaking ≠ d.collSurplusPool :=
  hd.get_ne (show (11 : Fin 13) ≠ 6 by decide)
theorem Wired.gasPool_ne_stabilityPool (hd : d.Wired) : d.gasPool ≠ d.stabilityPool :=
  hd.get_ne (show (5 : Fin 13) ≠ 4 by decide)
theorem Wired.lqtyStaking_ne_gasPool (hd : d.Wired) : d.lqtyStaking ≠ d.gasPool :=
  hd.get_ne (show (11 : Fin 13) ≠ 5 by decide)

theorem External.ne (ha : d.External a) (i : Fin 13) : a ≠ d.contracts.get i :=
  fun h => ha.2 (h ▸ List.get_mem _ _)

theorem External.ne_activePool (ha : d.External a) : a ≠ d.activePool := ha.ne 2
theorem External.ne_defaultPool (ha : d.External a) : a ≠ d.defaultPool := ha.ne 3
theorem External.ne_stabilityPool (ha : d.External a) : a ≠ d.stabilityPool := ha.ne 4
theorem External.ne_gasPool (ha : d.External a) : a ≠ d.gasPool := ha.ne 5
theorem External.ne_collSurplusPool (ha : d.External a) : a ≠ d.collSurplusPool := ha.ne 6
theorem External.ne_lqtyStaking (ha : d.External a) : a ≠ d.lqtyStaking := ha.ne 11

end Distinct

end Deployment

/-- A deployment with small addresses. -/
def sampleDeployment : Deployment where
  borrowerOperations := 1
  troveManager := 2
  activePool := 3
  defaultPool := 4
  stabilityPool := 5
  gasPool := 6
  collSurplusPool := 7
  sortedTroves := 8
  priceFeed := 9
  lusdToken := 10
  lqtyToken := 11
  lqtyStaking := 12
  communityIssuance := 13
  bounty := 14
  lpRewards := 15
  multisig := 16
  isRegisteredLockup := fun _ => false
  maxSize := 2 ^ 256 - 1
  deploymentStartTime := 0
  deploymentTime := 0

theorem sampleDeployment_wired : sampleDeployment.Wired := by decide

/-- What a transaction reads from its environment: `msg.sender`, `msg.value`, `block.timestamp`
and the price that `priceFeed.fetchPrice()` returns. -/
structure Env where
  sender : Address
  value : Nat
  timestamp : Nat
  price : Nat

end Liquity
