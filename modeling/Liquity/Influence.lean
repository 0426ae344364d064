import Liquity.Effects
import Liquity.Simulation.Troves
import Mathlib.Logic.Relation

/-!
# Elementary effects and who pays for them

A transaction is a sequence of elementary effects on the storage and the ether of the system.  Each
effect names the account that pays, which is the sender of the transaction or a contract of the
protocol, and the troves that may be written.  What all effects keep is kept by every transaction.
-/

open Lib

namespace Liquity

open SafeMath

variable {d : Deployment} {sender : Address} {writable : Address → Prop} {s s' : System}
  {caller a b : Address} {amount : Nat}

/-! ## The effects -/

/-- Only the given troves are written, and the reward accumulators do not fall. -/
structure TrovesLeft (writable : Address → Prop) (t t' : TroveManager) : Prop where
  trove : ∀ x, ¬ writable x → SameTrove t t' x ∧ (t'.troves x).status = (t.troves x).status
  L_ETH : t.L_ETH ≤ t'.L_ETH
  L_LUSDDebt : t.L_LUSDDebt ≤ t'.L_LUSDDebt

/-- The deposits and the registrations of everyone but the sender are left alone. -/
def DepositsLeft (sender : Address) (p p' : StabilityPool) : Prop :=
  ∀ x, x ≠ sender → p'.deposits x = p.deposits x ∧ p'.depositSnapshots x = p.depositSnapshots x ∧
    p'.frontEnds x = p.frontEnds x

/-- The LQTY stakes of everyone but the sender are left alone. -/
def StakesLeft (sender : Address) (l l' : LQTYStaking) : Prop :=
  ∀ x, x ≠ sender → l'.stakes x = l.stakes x ∧ l'.snapshots x = l.snapshots x

/-- The first year of the LQTY token, in which the multisig is held back. -/
def Deployment.FirstYear (d : Deployment) (timestamp : Nat) : Prop :=
  timestamp < d.deploymentStartTime + LQTYToken.ONE_YEAR_IN_SECONDS

/-- One elementary effect in a transaction of `sender`. -/
inductive Effect (d : Deployment) (sender : Address) (writable : Address → Prop) (s : System) :
    System → Prop
  | troves {troveManager : TroveManager} (sortedTroves : SortedTroves) (activeDebt defaultDebt : Nat)
      (left : TrovesLeft writable s.troveManager troveManager) :
      Effect d sender writable s { s with
        troveManager, sortedTroves
        activePool := { s.activePool with LUSDDebt := activeDebt }
        defaultPool := { s.defaultPool with LUSDDebt := defaultDebt } }
  | stabilityPool {stabilityPool : StabilityPool} (communityIssuance : CommunityIssuance)
      (left : DepositsLeft sender s.stabilityPool stabilityPool)
      (ETH_eq : stabilityPool.ETH = s.stabilityPool.ETH)
      (issued : communityIssuance = s.communityIssuance ∨ ∃ amount,
        s.communityIssuance.issueLQTY d d.stabilityPool s.timestamp = .ok (amount, communityIssuance)) :
      Effect d sender writable s { s with stabilityPool, communityIssuance }
  | staking {lqtyStaking : LQTYStaking} (left : StakesLeft sender s.lqtyStaking lqtyStaking) :
      Effect d sender writable s { s with lqtyStaking }
  | surplus {balances : Address → Nat}
      (le : ∀ x, x ≠ sender → s.collSurplusPool.balances x ≤ balances x) :
      Effect d sender writable s { s with
        collSurplusPool := { s.collSurplusPool with balances } }
  | mint {account : Address} {amount : Nat} :
      Effect d sender writable s { s with lusdToken := { s.lusdToken with
        totalSupply := s.lusdToken.totalSupply + amount
        balances := Function.update s.lusdToken.balances account
          (s.lusdToken.balances account + amount) } }
  | burn {account : Address} {amount : Nat} (payer : account = sender ∨ account ∈ d.contracts) :
      Effect d sender writable s { s with lusdToken := { s.lusdToken with
        totalSupply := s.lusdToken.totalSupply - amount
        balances := Function.update s.lusdToken.balances account
          (s.lusdToken.balances account - amount) } }
  | moveLUSD {a b : Address} {amount : Nat} (payer : a = sender ∨ a ∈ d.contracts) :
      Effect d sender writable s { s with lusdToken := { s.lusdToken with
        balances := move s.lusdToken.balances a b amount } }
  | approveLUSD {spender : Address} {amount : Nat} :
      Effect d sender writable s { s with lusdToken := { s.lusdToken with
        allowances := Function.update s.lusdToken.allowances sender
          (Function.update (s.lusdToken.allowances sender) spender amount) } }
  /-- The sender spends what an owner has allowed. -/
  | spendLUSD {owner recipient : Address} {amount : Nat}
      (le : amount ≤ s.lusdToken.allowances owner sender) :
      Effect d sender writable s { s with lusdToken := { s.lusdToken with
        balances := move s.lusdToken.balances owner recipient amount
        allowances := Function.update s.lusdToken.allowances owner
          (Function.update (s.lusdToken.allowances owner) sender
            (s.lusdToken.allowances owner sender - amount)) } }
  | moveLQTY {a b : Address} {amount : Nat} (payer : a = sender ∨ a ∈ d.contracts)
      (le : amount ≤ s.lqtyToken.balances a)
      (locked : d.FirstYear s.timestamp → a = d.multisig → d.isRegisteredLockup b = true) :
      Effect d sender writable s { s with lqtyToken := { s.lqtyToken with
        balances := move s.lqtyToken.balances a b amount } }
  | approveLQTY {spender : Address} {amount : Nat} :
      Effect d sender writable s { s with lqtyToken := { s.lqtyToken with
        allowances := Function.update s.lqtyToken.allowances sender
          (Function.update (s.lqtyToken.allowances sender) spender amount) } }
  | spendLQTY {owner recipient : Address} {amount : Nat}
      (le : amount ≤ s.lqtyToken.allowances owner sender)
      (balance : amount ≤ s.lqtyToken.balances owner)
      (locked : d.FirstYear s.timestamp → owner ≠ d.multisig) :
      Effect d sender writable s { s with lqtyToken := { s.lqtyToken with
        balances := move s.lqtyToken.balances owner recipient amount
        allowances := Function.update s.lqtyToken.allowances owner
          (Function.update (s.lqtyToken.allowances owner) sender
            (s.lqtyToken.allowances owner sender - amount)) } }
  /-- A payment of ether, which the four pools record on either side. -/
  | pay {a b : Address} {amount : Nat} (active default stability surplus : Nat)
      (payer : a = sender ∨ a ∈ d.contracts) (le : amount ≤ s.ether a)
      (active_eq : active + s.ether d.activePool =
        s.activePool.ETH + move s.ether a b amount d.activePool)
      (default_eq : default + s.ether d.defaultPool =
        s.defaultPool.ETH + move s.ether a b amount d.defaultPool)
      (stability_eq : stability + s.ether d.stabilityPool =
        s.stabilityPool.ETH + move s.ether a b amount d.stabilityPool)
      (surplus_eq : surplus + s.ether d.collSurplusPool =
        s.collSurplusPool.ETH + move s.ether a b amount d.collSurplusPool) :
      Effect d sender writable s { s with
        activePool := { s.activePool with ETH := active }
        defaultPool := { s.defaultPool with ETH := default }
        stabilityPool := { s.stabilityPool with ETH := stability }
        collSurplusPool := { s.collSurplusPool with ETH := surplus }
        ether := move s.ether a b amount }

/-- The step from `s` to `s'` is a sequence of effects in a transaction of `sender`. -/
abbrev Effects (d : Deployment) (sender : Address) (writable : Address → Prop) :
    System → System → Prop :=
  Relation.ReflTransGen (Effect d sender writable)

/-! ## Storage of the trove manager -/

namespace TrovesLeft

variable {t t' t'' : TroveManager}

theorem refl (t : TroveManager) : TrovesLeft writable t t :=
  ⟨fun x _ => ⟨.refl t x, rfl⟩, Nat.le_refl _, Nat.le_refl _⟩

theorem trans (h : TrovesLeft writable t t') (h' : TrovesLeft writable t' t'') :
    TrovesLeft writable t t'' where
  trove x hx := ⟨(h.trove x hx).1.trans (h'.trove x hx).1, (h'.trove x hx).2.trans (h.trove x hx).2⟩
  L_ETH := h.L_ETH.trans h'.L_ETH
  L_LUSDDebt := h.L_LUSDDebt.trans h'.L_LUSDDebt

/-- Whatever is written besides the troves and the accumulators. -/
theorem of_eq (htroves : t'.troves = t.troves) (hsnapshots : t'.rewardSnapshots = t.rewardSnapshots)
    (hETH : t.L_ETH ≤ t'.L_ETH) (hLUSDDebt : t.L_LUSDDebt ≤ t'.L_LUSDDebt) :
    TrovesLeft writable t t' := by
  refine ⟨fun x _ => ⟨⟨?_, ?_, ?_, ?_⟩, ?_⟩, hETH, hLUSDDebt⟩
  all_goals first | rw [htroves] | rw [hsnapshots]

theorem setTrove (hx : writable a) (trove : Trove) (t : TroveManager) :
    TrovesLeft writable t (t.setTrove a trove) := by
  refine ⟨fun x hno => ?_, Nat.le_refl _, Nat.le_refl _⟩
  have hne : x ≠ a := by
    rintro rfl
    exact hno hx
  have hsame : (t.setTrove a trove).troves x = t.troves x := Function.update_of_ne hne ..
  refine ⟨⟨?_, ?_, ?_, rfl⟩, ?_⟩
  all_goals rw [hsame]

theorem setSnapshot (hx : writable a) (snapshot : RewardSnapshot) (t : TroveManager) :
    TrovesLeft writable t
      { t with rewardSnapshots := Function.update t.rewardSnapshots a snapshot } := by
  refine ⟨fun x hno => ⟨⟨rfl, rfl, rfl, ?_⟩, rfl⟩, Nat.le_refl _, Nat.le_refl _⟩
  have hne : x ≠ a := by
    rintro rfl
    exact hno hx
  exact Function.update_of_ne hne ..

/-- The index of an owner that moves in the array does not count. -/
theorem setArrayIndex (x : Address) (index : Nat) (t : TroveManager) :
    TrovesLeft writable t (t.setTrove x { t.troves x with arrayIndex := index }) := by
  refine ⟨fun y _ => ?_, Nat.le_refl _, Nat.le_refl _⟩
  by_cases hyx : y = x
  · subst hyx
    have hself : (t.setTrove y { t.troves y with arrayIndex := index }).troves y =
        { t.troves y with arrayIndex := index } := Function.update_self ..
    refine ⟨⟨?_, ?_, ?_, rfl⟩, ?_⟩
    all_goals rw [hself]
  · have hsame : (t.setTrove x { t.troves x with arrayIndex := index }).troves y = t.troves y :=
      Function.update_of_ne hyx ..
    refine ⟨⟨?_, ?_, ?_, rfl⟩, ?_⟩
    all_goals rw [hsame]

theorem mono {writable' : Address → Prop} (hsub : ∀ x, writable x → writable' x)
    (h : TrovesLeft writable t t') : TrovesLeft writable' t t' :=
  ⟨fun x hx => h.trove x fun hw => hx (hsub x hw), h.L_ETH, h.L_LUSDDebt⟩

end TrovesLeft

/-! ## Sequences of effects -/

theorem Effect.mono {writable' : Address → Prop} (hsub : ∀ x, writable x → writable' x)
    (h : Effect d sender writable s s') : Effect d sender writable' s s' := by
  cases h with
  | troves sortedTroves activeDebt defaultDebt left =>
    exact .troves sortedTroves activeDebt defaultDebt (left.mono hsub)
  | stabilityPool communityIssuance left ETH_eq issued =>
    exact .stabilityPool communityIssuance left ETH_eq issued
  | staking left => exact .staking left
  | surplus le => exact .surplus le
  | mint => exact .mint
  | burn payer => exact .burn payer
  | moveLUSD payer => exact .moveLUSD payer
  | approveLUSD => exact .approveLUSD
  | spendLUSD le => exact .spendLUSD le
  | moveLQTY payer le locked => exact .moveLQTY payer le locked
  | approveLQTY => exact .approveLQTY
  | spendLQTY le balance locked => exact .spendLQTY le balance locked
  | pay active default stability surplus payer le active_eq default_eq stability_eq surplus_eq =>
    exact .pay active default stability surplus payer le active_eq default_eq stability_eq surplus_eq

theorem Effect.trovesLeft (h : Effect d sender writable s s') :
    TrovesLeft writable s.troveManager s'.troveManager := by
  cases h with
  | troves _ _ _ left => exact left
  | _ => exact .refl _

namespace Effects

theorem one (h : Effect d sender writable s s') : Effects d sender writable s s' := .single h

theorem mono {writable' : Address → Prop} (hsub : ∀ x, writable x → writable' x)
    (h : Effects d sender writable s s') : Effects d sender writable' s s' :=
  Relation.ReflTransGen.mono (fun _ _ => Effect.mono hsub) _ _ h

/-- Time stands still in a transaction. -/
theorem timestamp_eq (h : Effects d sender writable s s') : s'.timestamp = s.timestamp := by
  induction h with
  | refl => rfl
  | tail _ hlast ih =>
    rw [← ih]
    cases hlast <;> rfl

theorem trovesLeft (h : Effects d sender writable s s') :
    TrovesLeft writable s.troveManager s'.troveManager := by
  induction h with
  | refl => exact .refl _
  | tail _ hlast ih => exact ih.trans hlast.trovesLeft

end Effects

theorem DepositsLeft.trans {p p' p'' : StabilityPool} (h : DepositsLeft sender p p')
    (h' : DepositsLeft sender p' p'') : DepositsLeft sender p p'' := by
  intro x hx
  obtain ⟨hdeposit, hsnapshots, hfrontEnd⟩ := h x hx
  obtain ⟨hdeposit', hsnapshots', hfrontEnd'⟩ := h' x hx
  exact ⟨hdeposit'.trans hdeposit, hsnapshots'.trans hsnapshots, hfrontEnd'.trans hfrontEnd⟩

/-! ## Setters of the trove manager -/

namespace TroveManager

variable {t t' : TroveManager} (hx : writable a)

include hx

theorem setTroveStatus_left {status : Status} (h : setTroveStatus d caller a status t = .ok t') :
    TrovesLeft writable t t' := by
  simp only [setTroveStatus, bind_ok, pure_ok] at h
  obtain ⟨-, -, rfl⟩ := h
  exact .setTrove hx _ t

theorem increaseTroveColl_left (h : increaseTroveColl d caller a amount t = .ok t') :
    TrovesLeft writable t t' := by
  simp only [increaseTroveColl, bind_ok, pure_ok] at h
  obtain ⟨-, -, _, -, rfl⟩ := h
  exact .setTrove hx _ t

theorem decreaseTroveColl_left (h : decreaseTroveColl d caller a amount t = .ok t') :
    TrovesLeft writable t t' := by
  simp only [decreaseTroveColl, bind_ok, pure_ok] at h
  obtain ⟨-, -, _, -, rfl⟩ := h
  exact .setTrove hx _ t

theorem increaseTroveDebt_left (h : increaseTroveDebt d caller a amount t = .ok t') :
    TrovesLeft writable t t' := by
  simp only [increaseTroveDebt, bind_ok, pure_ok] at h
  obtain ⟨-, -, _, -, rfl⟩ := h
  exact .setTrove hx _ t

theorem decreaseTroveDebt_left (h : decreaseTroveDebt d caller a amount t = .ok t') :
    TrovesLeft writable t t' := by
  simp only [decreaseTroveDebt, bind_ok, pure_ok] at h
  obtain ⟨-, -, _, -, rfl⟩ := h
  exact .setTrove hx _ t

theorem updateTroveRewardSnapshots_left (h : updateTroveRewardSnapshots d caller a t = .ok t') :
    TrovesLeft writable t t' := by
  simp only [updateTroveRewardSnapshots, bind_ok, pure_ok] at h
  obtain ⟨-, -, rfl⟩ := h
  exact .setSnapshot hx _ t

theorem removeStakeInternal_left (h : removeStakeInternal a t = .ok t') :
    TrovesLeft writable t t' := by
  simp only [removeStakeInternal, bind_ok, pure_ok] at h
  obtain ⟨totalStakes, -, rfl⟩ := h
  have htotal : TrovesLeft writable t { t with totalStakes } :=
    .of_eq rfl rfl (Nat.le_refl _) (Nat.le_refl _)
  exact htotal.trans (.setTrove hx _ _)

theorem updateStakeAndTotalStakesInternal_left
    (h : updateStakeAndTotalStakesInternal a t = .ok t') : TrovesLeft writable t t' := by
  simp only [updateStakeAndTotalStakesInternal, bind_ok, pure_ok] at h
  obtain ⟨_, -, _, -, _, -, rfl⟩ := h
  exact (TrovesLeft.setTrove hx _ t).trans (.of_eq rfl rfl (Nat.le_refl _) (Nat.le_refl _))

theorem updateStakeAndTotalStakes_left (h : updateStakeAndTotalStakes d caller a t = .ok t') :
    TrovesLeft writable t t' := by
  obtain ⟨-, -, h⟩ := bind_ok.mp h
  exact updateStakeAndTotalStakesInternal_left hx h

omit hx in
theorem addTroveOwnerToArray_left (h : addTroveOwnerToArray d caller a t = .ok t') :
    TrovesLeft writable t t' := by
  simp only [addTroveOwnerToArray, addTroveOwnerToArrayInternal, bind_ok, pure_ok] at h
  obtain ⟨-, -, _, -, rfl⟩ := h
  have howners : TrovesLeft writable t { t with troveOwners := t.troveOwners ++ [a] } :=
    .of_eq rfl rfl (Nat.le_refl _) (Nat.le_refl _)
  exact howners.trans (.setArrayIndex a _ _)

omit hx in
theorem removeTroveOwner_left {n : Nat} (h : removeTroveOwner a n t = .ok t') :
    TrovesLeft writable t t' := by
  simp only [removeTroveOwner, bind_ok, pure_ok] at h
  obtain ⟨-, -, _, -, -, -, -, -, rfl⟩ := h
  generalize (t.troveOwners.set _ _).dropLast = troveOwners
  have howners : TrovesLeft writable t { t with troveOwners } :=
    .of_eq rfl rfl (Nat.le_refl _) (Nat.le_refl _)
  exact howners.trans (.setArrayIndex _ _ _)

omit hx in
theorem updateLastFeeOpTime_left {timestamp : Nat} (h : updateLastFeeOpTime timestamp t = .ok t') :
    TrovesLeft writable t t' := by
  simp only [updateLastFeeOpTime, bind_ok, pure_ok] at h
  obtain ⟨_, -, rfl⟩ := h
  split
  · exact .of_eq rfl rfl (Nat.le_refl _) (Nat.le_refl _)
  · exact .refl t

omit hx in
theorem decayBaseRateFromBorrowing_left {timestamp : Nat}
    (h : decayBaseRateFromBorrowing d caller timestamp t = .ok t') : TrovesLeft writable t t' := by
  simp only [decayBaseRateFromBorrowing, bind_ok] at h
  obtain ⟨-, -, baseRate, -, -, -, h⟩ := h
  have hrate : TrovesLeft writable t { t with baseRate } :=
    .of_eq rfl rfl (Nat.le_refl _) (Nat.le_refl _)
  exact hrate.trans (updateLastFeeOpTime_left h)

omit hx in
theorem updateBaseRateFromRedemption_left {ETHDrawn price supply timestamp : Nat}
    (h : updateBaseRateFromRedemption ETHDrawn price supply timestamp t = .ok t') :
    TrovesLeft writable t t' := by
  simp only [updateBaseRateFromRedemption, bind_ok] at h
  obtain ⟨_, -, _, -, _, -, _, -, _, -, -, -, h⟩ := h
  generalize LiquityMath.min _ _ = baseRate at h
  have hrate : TrovesLeft writable t { t with baseRate } :=
    .of_eq rfl rfl (Nat.le_refl _) (Nat.le_refl _)
  exact hrate.trans (updateLastFeeOpTime_left h)

end TroveManager

/-! ## Calls on one contract -/

namespace Effects

theorem onTroveManager {f : TroveManager → Tx TroveManager} (h : s.onTroveManager f = .ok s')
    (hf : ∀ t, f s.troveManager = .ok t → TrovesLeft writable s.troveManager t) :
    Effects d sender writable s s' := by
  obtain ⟨t, ht, rfl⟩ := System.onTroveManager_ok.mp h
  exact one (.troves s.sortedTroves s.activePool.LUSDDebt s.defaultPool.LUSDDebt (hf t ht))

theorem onSortedTroves {f : SortedTroves → Tx SortedTroves} (h : s.onSortedTroves f = .ok s') :
    Effects d sender writable s s' := by
  obtain ⟨l, -, rfl⟩ := System.onSortedTroves_ok.mp h
  exact one (.troves l s.activePool.LUSDDebt s.defaultPool.LUSDDebt (.refl _))

theorem increaseLUSDDebt (h : s.onActivePool (ActivePool.increaseLUSDDebt d caller amount) = .ok s') :
    Effects d sender writable s s' := by
  obtain ⟨p, hp, rfl⟩ := System.onActivePool_ok.mp h
  obtain rfl := ActivePool.increaseLUSDDebt_ok hp
  exact one (.troves s.sortedTroves _ s.defaultPool.LUSDDebt (.refl _))

theorem decreaseLUSDDebt (h : s.onActivePool (ActivePool.decreaseLUSDDebt d caller amount) = .ok s') :
    Effects d sender writable s s' := by
  obtain ⟨p, hp, rfl⟩ := System.onActivePool_ok.mp h
  obtain ⟨-, rfl⟩ := ActivePool.decreaseLUSDDebt_ok hp
  exact one (.troves s.sortedTroves _ s.defaultPool.LUSDDebt (.refl _))

theorem increaseDefaultDebt
    (h : s.onDefaultPool (DefaultPool.increaseLUSDDebt d caller amount) = .ok s') :
    Effects d sender writable s s' := by
  obtain ⟨p, hp, rfl⟩ := System.onDefaultPool_ok.mp h
  obtain rfl := DefaultPool.increaseLUSDDebt_ok hp
  exact one (.troves s.sortedTroves s.activePool.LUSDDebt _ (.refl _))

theorem decreaseDefaultDebt
    (h : s.onDefaultPool (DefaultPool.decreaseLUSDDebt d caller amount) = .ok s') :
    Effects d sender writable s s' := by
  obtain ⟨p, hp, rfl⟩ := System.onDefaultPool_ok.mp h
  obtain ⟨-, rfl⟩ := DefaultPool.decreaseLUSDDebt_ok hp
  exact one (.troves s.sortedTroves s.activePool.LUSDDebt _ (.refl _))

theorem onStabilityPool {f : StabilityPool → Tx StabilityPool} (h : s.onStabilityPool f = .ok s')
    (hf : ∀ p, f s.stabilityPool = .ok p →
      DepositsLeft sender s.stabilityPool p ∧ p.ETH = s.stabilityPool.ETH) :
    Effects d sender writable s s' := by
  obtain ⟨p, hp, rfl⟩ := System.onStabilityPool_ok.mp h
  obtain ⟨hleft, hETH⟩ := hf p hp
  exact one (.stabilityPool s.communityIssuance hleft hETH (.inl rfl))

theorem onLQTYStaking {f : LQTYStaking → Tx LQTYStaking} (h : s.onLQTYStaking f = .ok s')
    (hf : ∀ l, f s.lqtyStaking = .ok l → StakesLeft sender s.lqtyStaking l) :
    Effects d sender writable s s' := by
  obtain ⟨l, hl, rfl⟩ := System.onLQTYStaking_ok.mp h
  exact one (.staking (hf l hl))

theorem accountSurplus
    (h : s.onCollSurplusPool (CollSurplusPool.accountSurplus d caller b amount) = .ok s') :
    Effects d sender writable s s' := by
  obtain ⟨p, hp, rfl⟩ := System.onCollSurplusPool_ok.mp h
  simp only [CollSurplusPool.accountSurplus, bind_ok, pure_ok, add_ok] at hp
  obtain ⟨-, -, _, ⟨-, rfl⟩, rfl⟩ := hp
  refine one (.surplus fun x _ => ?_)
  by_cases hxb : x = b
  · subst hxb
    rw [Function.update_self]
    omega
  · rw [Function.update_of_ne hxb]

/-! ## LUSD -/

theorem mint (h : s.onLUSDToken (LUSDToken.mint d caller a amount) = .ok s') :
    Effects d sender writable s s' := by
  obtain ⟨t, ht, rfl⟩ := System.onLUSDToken_ok.mp h
  obtain ⟨-, rfl⟩ := LUSDToken.mint_ok ht
  exact one .mint

theorem burn (ha : a = sender ∨ a ∈ d.contracts)
    (h : s.onLUSDToken (LUSDToken.burn d caller a amount) = .ok s') :
    Effects d sender writable s s' := by
  obtain ⟨t, ht, rfl⟩ := System.onLUSDToken_ok.mp h
  obtain ⟨-, -, rfl⟩ := LUSDToken.burn_ok ht
  exact one (.burn ha)

theorem returnFromPool (ha : a ∈ d.contracts)
    (h : s.onLUSDToken (LUSDToken.returnFromPool d caller a b amount) = .ok s') :
    Effects d sender writable s s' := by
  obtain ⟨t, ht, rfl⟩ := System.onLUSDToken_ok.mp h
  obtain ⟨-, rfl⟩ := LUSDToken.returnFromPool_ok ht
  exact one (.moveLUSD (.inr ha))

theorem sendToPool
    (h : s.onLUSDToken (LUSDToken.sendToPool d caller sender b amount) = .ok s') :
    Effects d sender writable s s' := by
  obtain ⟨t, ht, rfl⟩ := System.onLUSDToken_ok.mp h
  obtain ⟨-, rfl⟩ := LUSDToken.sendToPool_ok ht
  exact one (.moveLUSD (.inl rfl))

theorem transferLUSD (ha : a = sender ∨ a ∈ d.contracts)
    (h : s.onLUSDToken (LUSDToken.transfer d a b amount) = .ok s') :
    Effects d sender writable s s' := by
  obtain ⟨t, ht, rfl⟩ := System.onLUSDToken_ok.mp h
  obtain ⟨-, rfl⟩ := LUSDToken.transfer_ok ht
  exact one (.moveLUSD ha)

end Effects

/-! ## LQTY -/

namespace LQTYToken

variable {t t' : LQTYToken} {timestamp : Nat}

theorem isFirstYear_of_firstYear (hyear : d.FirstYear timestamp) {firstYear : Bool}
    (h : isFirstYear d timestamp = .ok firstYear) : firstYear = true := by
  simp only [isFirstYear, bind_ok, sub_ok, pure_ok] at h
  obtain ⟨_, ⟨hstarted, rfl⟩, rfl⟩ := h
  unfold Deployment.FirstYear at hyear
  exact decide_eq_true (by omega)

theorem transfer_locked (h : transfer d timestamp d.multisig b amount t = .ok t')
    (hyear : d.FirstYear timestamp) : d.isRegisteredLockup b = true := by
  obtain ⟨_, h, -⟩ := bind_ok.mp h
  unfold requireMultisigRecipient at h
  rw [if_pos rfl] at h
  obtain ⟨firstYear, hfirst, h⟩ := bind_ok.mp h
  exact require_ok.mp h (isFirstYear_of_firstYear hyear hfirst)

theorem transferFrom_locked (h : transferFrom d timestamp caller a b amount t = .ok t')
    (hyear : d.FirstYear timestamp) : a ≠ d.multisig := by
  obtain ⟨firstYear, hfirst, h⟩ := bind_ok.mp h
  obtain ⟨_, h, -⟩ := bind_ok.mp h
  exact require_ok.mp h (isFirstYear_of_firstYear hyear hfirst)

theorem sendToLQTYStaking_locked (h : sendToLQTYStaking d timestamp caller a amount t = .ok t')
    (hyear : d.FirstYear timestamp) : a ≠ d.multisig := by
  obtain ⟨-, -, h⟩ := bind_ok.mp h
  obtain ⟨firstYear, hfirst, h⟩ := bind_ok.mp h
  obtain ⟨_, h, -⟩ := bind_ok.mp h
  exact require_ok.mp h (isFirstYear_of_firstYear hyear hfirst)

end LQTYToken

namespace Effects

variable {timestamp : Nat} (htime : s.timestamp = timestamp)

include htime

theorem transferLQTY (ha : a = sender ∨ a ∈ d.contracts)
    (h : s.onLQTYToken (LQTYToken.transfer d timestamp a b amount) = .ok s') :
    Effects d sender writable s s' := by
  obtain ⟨t, ht, rfl⟩ := System.onLQTYToken_ok.mp h
  subst htime
  have hlocked : d.FirstYear s.timestamp → a = d.multisig → d.isRegisteredLockup b = true := by
    rintro hyear rfl
    exact LQTYToken.transfer_locked ht hyear
  obtain ⟨-, hle, rfl⟩ := LQTYToken.transfer_ok ht
  exact one (.moveLQTY ha hle hlocked)

theorem sendToLQTYStaking
    (h : s.onLQTYToken (LQTYToken.sendToLQTYStaking d timestamp caller sender amount) = .ok s') :
    Effects d sender writable s s' := by
  obtain ⟨t, ht, rfl⟩ := System.onLQTYToken_ok.mp h
  subst htime
  have hlocked := LQTYToken.sendToLQTYStaking_locked ht
  obtain ⟨-, hle, rfl⟩ := LQTYToken.sendToLQTYStaking_ok ht
  exact one (.moveLQTY (.inl rfl) hle fun hyear heq => absurd heq (hlocked hyear))

end Effects

/-! ## Ether -/

namespace Effects

/-- A payment that none of the pools makes or receives. -/
theorem payOutside (ha : a = sender ∨ a ∈ d.contracts) (hle : amount ≤ s.ether a)
    (hpools : ∀ q ∈ [d.activePool, d.defaultPool, d.stabilityPool, d.collSurplusPool], q ≠ a ∧ q ≠ b) :
    Effects d sender writable s { s with ether := move s.ether a b amount } := by
  have hkept : ∀ q ∈ [d.activePool, d.defaultPool, d.stabilityPool, d.collSurplusPool],
      move s.ether a b amount q = s.ether q := fun q hq => move_of_ne (hpools q hq).1 (hpools q hq).2
  refine one (.pay s.activePool.ETH s.defaultPool.ETH
    s.stabilityPool.ETH s.collSurplusPool.ETH ha hle ?_ ?_ ?_ ?_)
  all_goals rw [hkept _ (by simp)]

section Wired

variable (hd : d.Wired)

include hd

theorem sendETH_external (hb : d.External b) (h : ActivePool.sendETH d caller b amount s = .ok s') :
    Effects d sender writable s s' := by
  obtain ⟨hle, hether, h⟩ := ActivePool.sendETH_ok h
  obtain rfl := System.receiveETH_external hb h
  have hpayer : d.activePool ∈ d.contracts := by simp [Deployment.contracts]
  refine one (.pay (s.activePool.ETH - amount) s.defaultPool.ETH
    s.stabilityPool.ETH s.collSurplusPool.ETH (.inr hpayer) hether ?_ ?_ ?_ ?_)
  · rw [move_source hb.ne_activePool.symm]
    omega
  · rw [move_of_ne hd.defaultPool_ne_activePool hb.ne_defaultPool.symm]
  · rw [move_of_ne hd.stabilityPool_ne_activePool hb.ne_stabilityPool.symm]
  · rw [move_of_ne hd.collSurplusPool_ne_activePool hb.ne_collSurplusPool.symm]

theorem sendETH_defaultPool (h : ActivePool.sendETH d caller d.defaultPool amount s = .ok s') :
    Effects d sender writable s s' := by
  have hpaid := ActivePool.sendETH_ether h
  obtain ⟨-, hether, -⟩ := ActivePool.sendETH_ok h
  obtain ⟨hle, -, ether, rfl⟩ := ActivePool.sendETH_defaultPool hd h
  obtain rfl : ether = move s.ether d.activePool d.defaultPool amount := hpaid
  have hpayer : d.activePool ∈ d.contracts := by simp [Deployment.contracts]
  refine one (.pay (s.activePool.ETH - amount) (s.defaultPool.ETH + amount)
    s.stabilityPool.ETH s.collSurplusPool.ETH (.inr hpayer) hether ?_ ?_ ?_ ?_)
  · rw [move_source hd.defaultPool_ne_activePool.symm]
    omega
  · rw [move_target hd.defaultPool_ne_activePool.symm]
    omega
  · rw [move_of_ne hd.stabilityPool_ne_activePool hd.stabilityPool_ne_defaultPool]
  · rw [move_of_ne hd.collSurplusPool_ne_activePool hd.collSurplusPool_ne_defaultPool]

theorem sendETH_stabilityPool (h : ActivePool.sendETH d caller d.stabilityPool amount s = .ok s') :
    Effects d sender writable s s' := by
  have hpaid := ActivePool.sendETH_ether h
  obtain ⟨-, hether, -⟩ := ActivePool.sendETH_ok h
  obtain ⟨hle, -, ether, rfl⟩ := ActivePool.sendETH_stabilityPool hd h
  obtain rfl : ether = move s.ether d.activePool d.stabilityPool amount := hpaid
  have hpayer : d.activePool ∈ d.contracts := by simp [Deployment.contracts]
  refine one (.pay (s.activePool.ETH - amount) s.defaultPool.ETH
    (s.stabilityPool.ETH + amount) s.collSurplusPool.ETH (.inr hpayer)
    hether ?_ ?_ ?_ ?_)
  · rw [move_source hd.stabilityPool_ne_activePool.symm]
    omega
  · rw [move_of_ne hd.defaultPool_ne_activePool hd.stabilityPool_ne_defaultPool.symm]
  · rw [move_target hd.stabilityPool_ne_activePool.symm]
    omega
  · rw [move_of_ne hd.collSurplusPool_ne_activePool hd.collSurplusPool_ne_stabilityPool]

theorem sendETH_collSurplusPool
    (h : ActivePool.sendETH d caller d.collSurplusPool amount s = .ok s') :
    Effects d sender writable s s' := by
  have hpaid := ActivePool.sendETH_ether h
  obtain ⟨-, hether, -⟩ := ActivePool.sendETH_ok h
  obtain ⟨hle, -, ether, rfl⟩ := ActivePool.sendETH_collSurplusPool hd h
  obtain rfl : ether = move s.ether d.activePool d.collSurplusPool amount := hpaid
  have hpayer : d.activePool ∈ d.contracts := by simp [Deployment.contracts]
  refine one (.pay (s.activePool.ETH - amount) s.defaultPool.ETH
    s.stabilityPool.ETH (s.collSurplusPool.ETH + amount) (.inr hpayer)
    hether ?_ ?_ ?_ ?_)
  · rw [move_source hd.collSurplusPool_ne_activePool.symm]
    omega
  · rw [move_of_ne hd.defaultPool_ne_activePool hd.collSurplusPool_ne_defaultPool.symm]
  · rw [move_of_ne hd.stabilityPool_ne_activePool hd.collSurplusPool_ne_stabilityPool.symm]
  · rw [move_target hd.collSurplusPool_ne_activePool.symm]
    omega

theorem sendETH_lqtyStaking (h : ActivePool.sendETH d caller d.lqtyStaking amount s = .ok s') :
    Effects d sender writable s s' := by
  have hpaid := ActivePool.sendETH_ether h
  obtain ⟨-, hether, -⟩ := ActivePool.sendETH_ok h
  obtain ⟨hle, -, ether, rfl⟩ := ActivePool.sendETH_lqtyStaking hd h
  obtain rfl : ether = move s.ether d.activePool d.lqtyStaking amount := hpaid
  have hpayer : d.activePool ∈ d.contracts := by simp [Deployment.contracts]
  refine one (.pay (s.activePool.ETH - amount) s.defaultPool.ETH
    s.stabilityPool.ETH s.collSurplusPool.ETH (.inr hpayer) hether ?_ ?_ ?_ ?_)
  · rw [move_source hd.lqtyStaking_ne_activePool.symm]
    omega
  · rw [move_of_ne hd.defaultPool_ne_activePool hd.lqtyStaking_ne_defaultPool.symm]
  · rw [move_of_ne hd.stabilityPool_ne_activePool hd.lqtyStaking_ne_stabilityPool.symm]
  · rw [move_of_ne hd.collSurplusPool_ne_activePool hd.lqtyStaking_ne_collSurplusPool.symm]

/-- The Default Pool pays the Active Pool, which records the payment. -/
theorem sendETHToActivePool (h : DefaultPool.sendETHToActivePool d caller amount s = .ok s') :
    Effects d sender writable s s' := by
  have hpaid := DefaultPool.sendETHToActivePool_ether h
  have hether : amount ≤ s.ether d.defaultPool := by
    simp only [DefaultPool.sendETHToActivePool, bind_ok, orRevert_ok] at h
    obtain ⟨-, -, _, -, h⟩ := h
    exact (System.callValue_ok h).1
  obtain ⟨hle, -, ether, rfl⟩ := DefaultPool.sendETHToActivePool_ok hd h
  obtain rfl : ether = move s.ether d.defaultPool d.activePool amount := hpaid
  have hpayer : d.defaultPool ∈ d.contracts := by simp [Deployment.contracts]
  refine one (.pay (s.activePool.ETH + amount) (s.defaultPool.ETH - amount)
    s.stabilityPool.ETH s.collSurplusPool.ETH (.inr hpayer) hether ?_ ?_ ?_ ?_)
  · rw [move_target hd.defaultPool_ne_activePool]
    omega
  · rw [move_source hd.defaultPool_ne_activePool]
    omega
  · rw [move_of_ne hd.stabilityPool_ne_defaultPool hd.stabilityPool_ne_activePool]
  · rw [move_of_ne hd.collSurplusPool_ne_defaultPool hd.collSurplusPool_ne_activePool]

end Wired

end Effects

end Liquity
