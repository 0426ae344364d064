import Liquity.Execution
import Liquity.Lib.Balances

/-!
# What the elementary calls do

One lemma for each call on a single contract and each payment of ether: from its success, the exact
new state and the checks that passed.
-/

open Lib

namespace Liquity

open SafeMath

variable {d : Deployment} {s s' : System} {caller a b : Address} {amount : Nat}

/-! ## LUSD -/

namespace LUSDToken

variable {t t' : LUSDToken}

theorem transferInternal_ok (h : transferInternal a b amount t = .ok t') :
    amount ≤ t.balances a ∧ t' = { t with balances := move t.balances a b amount } := by
  simp only [transferInternal, bind_ok, assertThat_ok, pure_ok, checkedSub_ok, add_ok] at h
  obtain ⟨-, -, -, -, x, ⟨hle, rfl⟩, y, ⟨-, rfl⟩, rfl⟩ := h
  exact ⟨hle, rfl⟩

theorem mint_ok (h : mint d caller a amount t = .ok t') :
    t.totalSupply + amount < 2 ^ 256 ∧
      t' = { t with
        totalSupply := t.totalSupply + amount
        balances := Function.update t.balances a (t.balances a + amount) } := by
  simp only [mint, mintInternal, bind_ok, assertThat_ok, pure_ok, add_ok] at h
  obtain ⟨-, -, -, -, x, ⟨hlt, rfl⟩, y, ⟨-, rfl⟩, rfl⟩ := h
  exact ⟨hlt, rfl⟩

theorem burn_ok (h : burn d caller a amount t = .ok t') :
    amount ≤ t.balances a ∧ amount ≤ t.totalSupply ∧
      t' = { t with
        totalSupply := t.totalSupply - amount
        balances := Function.update t.balances a (t.balances a - amount) } := by
  simp only [burn, burnInternal, bind_ok, assertThat_ok, pure_ok, checkedSub_ok, sub_ok] at h
  obtain ⟨-, -, -, -, x, ⟨hle, rfl⟩, y, ⟨hsupply, rfl⟩, rfl⟩ := h
  exact ⟨hle, hsupply, rfl⟩

theorem sendToPool_ok (h : sendToPool d caller a b amount t = .ok t') :
    amount ≤ t.balances a ∧ t' = { t with balances := move t.balances a b amount } := by
  obtain ⟨-, -, h⟩ := bind_ok.mp h
  exact transferInternal_ok h

theorem returnFromPool_ok (h : returnFromPool d caller a b amount t = .ok t') :
    amount ≤ t.balances a ∧ t' = { t with balances := move t.balances a b amount } := by
  obtain ⟨-, -, h⟩ := bind_ok.mp h
  exact transferInternal_ok h

theorem transfer_ok (h : transfer d a b amount t = .ok t') :
    amount ≤ t.balances a ∧ t' = { t with balances := move t.balances a b amount } := by
  obtain ⟨-, -, h⟩ := bind_ok.mp h
  exact transferInternal_ok h

theorem transferFrom_ok (h : transferFrom d caller a b amount t = .ok t') :
    amount ≤ t.balances a ∧ amount ≤ t.allowances a caller ∧
      t' = { t with
        balances := move t.balances a b amount
        allowances := Function.update t.allowances a
          (Function.update (t.allowances a) caller (t.allowances a caller - amount)) } := by
  simp only [transferFrom, approveInternal, bind_ok, assertThat_ok, pure_ok, checkedSub_ok] at h
  obtain ⟨-, -, t₁, ht₁, x, ⟨hallow, rfl⟩, -, -, -, -, rfl⟩ := h
  obtain ⟨hle, rfl⟩ := transferInternal_ok ht₁
  exact ⟨hle, hallow, rfl⟩

theorem approve_ok (h : approve a b amount t = .ok t') :
    t' = { t with
      allowances := Function.update t.allowances a (Function.update (t.allowances a) b amount) } := by
  simp only [approve, approveInternal, bind_ok, assertThat_ok, pure_ok] at h
  obtain ⟨-, -, -, -, rfl⟩ := h
  rfl

theorem burn_of_le {account : Address}
    (hcaller : caller = d.borrowerOperations ∨ caller = d.troveManager ∨ caller = d.stabilityPool)
    (haccount : account ≠ 0) (hle : amount ≤ t.balances account)
    (hsupply : amount ≤ t.totalSupply) : ∃ t', burn d caller account amount t = .ok t' := by
  simp only [burn, requireCallerIsBOorTroveMorSP, burnInternal, bind_ok, require_ok, assertThat_ok,
    pure_ok, checkedSub_ok, sub_ok]
  exact ⟨_, (), hcaller, (), haccount, _, ⟨hle, rfl⟩, _, ⟨hsupply, rfl⟩, rfl⟩

theorem transferInternal_of_le {sender recipient : Address}
    (hsender : sender ≠ 0) (hrecipient : recipient ≠ 0) (hle : amount ≤ t.balances sender)
    (hsum : ∑ x, t.balances x < 2 ^ 256) :
    ∃ t', transferInternal sender recipient amount t = .ok t' := by
  have hmoved := le_sum (move t.balances sender recipient amount) recipient
  rw [sum_move hle] at hmoved
  have htarget : move t.balances sender recipient amount recipient =
      Function.update t.balances sender (t.balances sender - amount) recipient + amount :=
    Function.update_self ..
  simp only [transferInternal, bind_ok, assertThat_ok, pure_ok, checkedSub_ok, add_ok]
  exact ⟨_, (), hsender, (), hrecipient, _, ⟨hle, rfl⟩, _, ⟨by omega, rfl⟩, rfl⟩

end LUSDToken

/-! ## LQTY -/

namespace LQTYToken

variable {t t' : LQTYToken} {timestamp : Nat}

theorem transferInternal_ok (h : transferInternal a b amount t = .ok t') :
    amount ≤ t.balances a ∧ t' = { t with balances := move t.balances a b amount } := by
  simp only [transferInternal, bind_ok, pure_ok, checkedSub_ok, add_ok] at h
  obtain ⟨-, -, -, -, x, ⟨hle, rfl⟩, y, ⟨-, rfl⟩, rfl⟩ := h
  exact ⟨hle, rfl⟩

theorem requireValidRecipient_ok {u : Unit} (h : requireValidRecipient d a = .ok u) :
    a ≠ d.communityIssuance ∧ a ≠ d.lqtyStaking := by
  simp only [requireValidRecipient, bind_ok, require_ok] at h
  obtain ⟨-, -, hne⟩ := h
  exact hne

theorem transfer_ok (h : transfer d timestamp a b amount t = .ok t') :
    (b ≠ d.communityIssuance ∧ b ≠ d.lqtyStaking) ∧ amount ≤ t.balances a ∧
      t' = { t with balances := move t.balances a b amount } := by
  simp only [transfer, bind_ok] at h
  obtain ⟨-, -, _, hrecipient, h⟩ := h
  exact ⟨requireValidRecipient_ok hrecipient, transferInternal_ok h⟩

theorem sendToLQTYStaking_ok (h : sendToLQTYStaking d timestamp caller a amount t = .ok t') :
    d.deploymentStartTime ≤ timestamp ∧ amount ≤ t.balances a ∧
      t' = { t with balances := move t.balances a d.lqtyStaking amount } := by
  simp only [sendToLQTYStaking, isFirstYear, bind_ok, sub_ok] at h
  obtain ⟨-, -, _, ⟨_, ⟨hstarted, -⟩, -⟩, -, -, h⟩ := h
  exact ⟨hstarted, transferInternal_ok h⟩

theorem approve_ok (h : approve d timestamp a b amount t = .ok t') :
    t' = { t with
      allowances := Function.update t.allowances a (Function.update (t.allowances a) b amount) } := by
  simp only [approve, approveInternal, bind_ok, pure_ok] at h
  obtain ⟨_, -, -, -, -, -, -, -, rfl⟩ := h
  rfl

theorem transferFrom_ok {sender recipient : Address}
    (h : transferFrom d timestamp caller sender recipient amount t = .ok t') :
    (recipient ≠ d.communityIssuance ∧ recipient ≠ d.lqtyStaking) ∧ amount ≤ t.balances sender ∧
      amount ≤ t.allowances sender caller ∧
      t' = { t with
        balances := move t.balances sender recipient amount
        allowances := Function.update t.allowances sender
          (Function.update (t.allowances sender) caller (t.allowances sender caller - amount)) } := by
  simp only [transferFrom, approveInternal, bind_ok, pure_ok, checkedSub_ok] at h
  obtain ⟨_, -, -, -, _, hrecipient, t₁, ht₁, _, ⟨hallow, rfl⟩, -, -, -, -, rfl⟩ := h
  obtain ⟨hle, rfl⟩ := transferInternal_ok ht₁
  exact ⟨requireValidRecipient_ok hrecipient, hle, hallow, rfl⟩

theorem transferInternal_of_le {sender recipient : Address}
    (hsender : sender ≠ 0) (hrecipient : recipient ≠ 0) (hle : amount ≤ t.balances sender)
    (hsum : ∑ x, t.balances x < 2 ^ 256) :
    ∃ t', transferInternal sender recipient amount t = .ok t' := by
  have hmoved := le_sum (move t.balances sender recipient amount) recipient
  rw [sum_move hle] at hmoved
  have htarget : move t.balances sender recipient amount recipient =
      Function.update t.balances sender (t.balances sender - amount) recipient + amount :=
    Function.update_self ..
  simp only [transferInternal, bind_ok, require_ok, pure_ok, checkedSub_ok, add_ok]
  exact ⟨_, (), hsender, (), hrecipient, _, ⟨hle, rfl⟩, _, ⟨by omega, rfl⟩, rfl⟩

end LQTYToken

/-! ## Lifted calls -/

namespace System

theorem onActivePool_ok {f : ActivePool → Tx ActivePool} :
    s.onActivePool f = .ok s' ↔ ∃ p, f s.activePool = .ok p ∧ { s with activePool := p } = s' := by
  simp only [onActivePool, bind_ok, pure_ok]

theorem onDefaultPool_ok {f : DefaultPool → Tx DefaultPool} :
    s.onDefaultPool f = .ok s' ↔
      ∃ p, f s.defaultPool = .ok p ∧ { s with defaultPool := p } = s' := by
  simp only [onDefaultPool, bind_ok, pure_ok]

theorem onCollSurplusPool_ok {f : CollSurplusPool → Tx CollSurplusPool} :
    s.onCollSurplusPool f = .ok s' ↔
      ∃ p, f s.collSurplusPool = .ok p ∧ { s with collSurplusPool := p } = s' := by
  simp only [onCollSurplusPool, bind_ok, pure_ok]

theorem onSortedTroves_ok {f : SortedTroves → Tx SortedTroves} :
    s.onSortedTroves f = .ok s' ↔
      ∃ l, f s.sortedTroves = .ok l ∧ { s with sortedTroves := l } = s' := by
  simp only [onSortedTroves, bind_ok, pure_ok]

theorem onTroveManager_ok {f : TroveManager → Tx TroveManager} :
    s.onTroveManager f = .ok s' ↔
      ∃ t, f s.troveManager = .ok t ∧ { s with troveManager := t } = s' := by
  simp only [onTroveManager, bind_ok, pure_ok]

theorem onStabilityPool_ok {f : StabilityPool → Tx StabilityPool} :
    s.onStabilityPool f = .ok s' ↔
      ∃ p, f s.stabilityPool = .ok p ∧ { s with stabilityPool := p } = s' := by
  simp only [onStabilityPool, bind_ok, pure_ok]

theorem onLUSDToken_ok {f : LUSDToken → Tx LUSDToken} :
    s.onLUSDToken f = .ok s' ↔ ∃ t, f s.lusdToken = .ok t ∧ { s with lusdToken := t } = s' := by
  simp only [onLUSDToken, bind_ok, pure_ok]

theorem onLQTYToken_ok {f : LQTYToken → Tx LQTYToken} :
    s.onLQTYToken f = .ok s' ↔ ∃ t, f s.lqtyToken = .ok t ∧ { s with lqtyToken := t } = s' := by
  simp only [onLQTYToken, bind_ok, pure_ok]

theorem onLQTYStaking_ok {f : LQTYStaking → Tx LQTYStaking} :
    s.onLQTYStaking f = .ok s' ↔
      ∃ l, f s.lqtyStaking = .ok l ∧ { s with lqtyStaking := l } = s' := by
  simp only [onLQTYStaking, bind_ok, pure_ok]

end System

/-! ## Debt counters -/

theorem ActivePool.increaseLUSDDebt_ok {p p' : ActivePool}
    (h : ActivePool.increaseLUSDDebt d caller amount p = .ok p') :
    p' = { p with LUSDDebt := p.LUSDDebt + amount } := by
  simp only [ActivePool.increaseLUSDDebt, bind_ok, pure_ok, add_ok] at h
  obtain ⟨-, -, x, ⟨-, rfl⟩, rfl⟩ := h
  rfl

theorem ActivePool.decreaseLUSDDebt_ok {p p' : ActivePool}
    (h : ActivePool.decreaseLUSDDebt d caller amount p = .ok p') :
    amount ≤ p.LUSDDebt ∧ p' = { p with LUSDDebt := p.LUSDDebt - amount } := by
  simp only [ActivePool.decreaseLUSDDebt, bind_ok, pure_ok, sub_ok] at h
  obtain ⟨-, -, x, ⟨hle, rfl⟩, rfl⟩ := h
  exact ⟨hle, rfl⟩

theorem DefaultPool.increaseLUSDDebt_ok {p p' : DefaultPool}
    (h : DefaultPool.increaseLUSDDebt d caller amount p = .ok p') :
    p' = { p with LUSDDebt := p.LUSDDebt + amount } := by
  simp only [DefaultPool.increaseLUSDDebt, bind_ok, pure_ok, add_ok] at h
  obtain ⟨-, -, x, ⟨-, rfl⟩, rfl⟩ := h
  rfl

theorem DefaultPool.decreaseLUSDDebt_ok {p p' : DefaultPool}
    (h : DefaultPool.decreaseLUSDDebt d caller amount p = .ok p') :
    amount ≤ p.LUSDDebt ∧ p' = { p with LUSDDebt := p.LUSDDebt - amount } := by
  simp only [DefaultPool.decreaseLUSDDebt, bind_ok, pure_ok, sub_ok] at h
  obtain ⟨-, -, x, ⟨hle, rfl⟩, rfl⟩ := h
  exact ⟨hle, rfl⟩

/-! ## Payments of ether -/

/-- Ether is only moved around, and the Active Pool's balance changes by what it records. -/
structure EtherKept (d : Deployment) (s s' : System) : Prop where
  sum_eq : ∑ a, s'.ether a = ∑ a, s.ether a
  activePool_eq : s'.ether d.activePool + s.activePool.ETH = s.ether d.activePool + s'.activePool.ETH

namespace EtherKept

theorem refl (s : System) : EtherKept d s s := ⟨rfl, rfl⟩

theorem trans {s₁ s₂ s₃ : System} (h : EtherKept d s₁ s₂) (h' : EtherKept d s₂ s₃) :
    EtherKept d s₁ s₃ := by
  have h₁ := h.activePool_eq
  have h₂ := h'.activePool_eq
  exact ⟨h'.sum_eq.trans h.sum_eq, by omega⟩

/-- A step that touches neither ether nor the Active Pool's record. -/
theorem of_eq (hether : s'.ether = s.ether) (hpool : s'.activePool.ETH = s.activePool.ETH) :
    EtherKept d s s' := by
  constructor
  · rw [hether]
  · rw [hether, hpool]

/-- Only ether and the Active Pool's record count. -/
theorem congr {s₁ s₁' : System} (h : EtherKept d s₁ s₁') (hether : s₁.ether = s.ether)
    (hpool : s₁.activePool.ETH = s.activePool.ETH) (hether' : s'.ether = s₁'.ether)
    (hpool' : s'.activePool.ETH = s₁'.activePool.ETH) : EtherKept d s s' :=
  ((of_eq hether hpool).trans h).trans (of_eq hether' hpool')

/-- A payment that the Active Pool has no part in. -/
theorem moveEther (ha : a ≠ d.activePool) (hb : b ≠ d.activePool) (hle : amount ≤ s.ether a) :
    EtherKept d s { s with ether := System.moveEther a b amount s.ether } := by
  have hkeep : System.moveEther a b amount s.ether d.activePool = s.ether d.activePool :=
    move_of_ne ha.symm hb.symm
  exact ⟨sum_move hle, by simp only [hkeep]⟩

end EtherKept

namespace System

theorem callValue_ok {recipient : Address}
    (h : s.callValue d a recipient amount = .ok s') :
    amount ≤ s.ether a ∧
      receiveETH d a recipient amount { s with ether := move s.ether a recipient amount } = .ok s' := by
  simp only [callValue, bind_ok, require_ok] at h
  obtain ⟨-, hle, h⟩ := h
  exact ⟨hle, h⟩

theorem receiveETH_external (hb : d.External b)
    (h : receiveETH d a b amount s = .ok s') : s' = s := by
  simp only [receiveETH, if_neg hb.ne_activePool, if_neg hb.ne_defaultPool,
    if_neg hb.ne_stabilityPool, if_neg hb.ne_collSurplusPool, if_neg hb.ne_lqtyStaking, bind_ok,
    pure_ok] at h
  obtain ⟨-, -, rfl⟩ := h
  rfl

/-- The receiver records a payment at most in its own pool. -/
theorem receiveETH_ok (h : receiveETH d a b amount s = .ok s') :
    ∃ activePool defaultPool stabilityPool collSurplusPool,
      s' = { s with activePool, defaultPool, stabilityPool, collSurplusPool } ∧
      (b ≠ d.stabilityPool → stabilityPool = s.stabilityPool) ∧
      (b ≠ d.collSurplusPool → collSurplusPool = s.collSurplusPool) := by
  unfold receiveETH at h
  split at h
  · obtain ⟨p, -, rfl⟩ := onActivePool_ok.mp h
    exact ⟨p, _, _, _, rfl, fun _ => rfl, fun _ => rfl⟩
  split at h
  · obtain ⟨p, -, rfl⟩ := onDefaultPool_ok.mp h
    exact ⟨_, p, _, _, rfl, fun _ => rfl, fun _ => rfl⟩
  split at h
  next hpool =>
    obtain ⟨p, -, rfl⟩ := onStabilityPool_ok.mp h
    exact ⟨_, _, p, _, rfl, fun hne => absurd hpool hne, fun _ => rfl⟩
  split at h
  next hpool =>
    obtain ⟨p, -, rfl⟩ := onCollSurplusPool_ok.mp h
    exact ⟨_, _, _, p, rfl, fun _ => rfl, fun hne => absurd hpool hne⟩
  split at h
  all_goals
    simp only [bind_ok, pure_ok] at h
    obtain ⟨-, -, rfl⟩ := h
    exact ⟨_, _, _, _, rfl, fun _ => rfl, fun _ => rfl⟩

theorem callValue_ether (h : s.callValue d a b amount = .ok s') :
    s'.ether = move s.ether a b amount := by
  obtain ⟨-, h⟩ := callValue_ok h
  obtain ⟨_, _, _, _, rfl, -, -⟩ := receiveETH_ok h
  rfl

/-- A payment from a contract other than the Active Pool to an account outside the protocol. -/
theorem callValue_external (ha : a ≠ d.activePool) (hb : d.External b)
    (h : s.callValue d a b amount = .ok s') :
    ∃ ether, s' = { s with ether } ∧ EtherKept d s s' := by
  obtain ⟨hle, h⟩ := callValue_ok h
  obtain rfl := receiveETH_external hb h
  exact ⟨_, rfl, .moveEther ha hb.ne_activePool hle⟩

/-- An account outside the protocol takes whatever the sender has. -/
theorem callValue_external_of_le (hb : d.External b) (hle : amount ≤ s.ether a) :
    s.callValue d a b amount = .ok { s with ether := move s.ether a b amount } := by
  simp only [callValue, bind_ok, require_ok, receiveETH, if_neg hb.ne_activePool,
    if_neg hb.ne_defaultPool, if_neg hb.ne_stabilityPool, if_neg hb.ne_collSurplusPool,
    if_neg hb.ne_lqtyStaking, pure_ok]
  exact ⟨(), hle, (), hb.2, rfl⟩

/-- A payment into the Active Pool. -/
theorem callValue_activePool (ha : a ≠ d.activePool)
    (h : s.callValue d a d.activePool amount = .ok s') :
    ∃ ether, s' = { s with activePool := { s.activePool with ETH := s.activePool.ETH + amount }, ether } ∧
      EtherKept d s s' := by
  obtain ⟨hle, h⟩ := callValue_ok h
  simp only [receiveETH, if_true, onActivePool_ok, ActivePool.receive, bind_ok, pure_ok, add_ok] at h
  obtain ⟨p, ⟨-, -, x, ⟨-, rfl⟩, rfl⟩, rfl⟩ := h
  refine ⟨_, rfl, sum_move hle, ?_⟩
  simp only [move_target ha]
  omega

end System

namespace ActivePool

/-- What every payment out of the Active Pool does before the receiver runs. -/
theorem sendETH_ok (h : sendETH d caller b amount s = .ok s') :
    amount ≤ s.activePool.ETH ∧ amount ≤ s.ether d.activePool ∧
      System.receiveETH d d.activePool b amount
        { s with
          activePool := { s.activePool with ETH := s.activePool.ETH - amount }
          ether := move s.ether d.activePool b amount } = .ok s' := by
  simp only [sendETH, bind_ok, sub_ok, orRevert_ok] at h
  obtain ⟨-, -, x, ⟨hle, rfl⟩, h⟩ := h
  obtain ⟨hether, h⟩ := System.callValue_ok h
  exact ⟨hle, hether, h⟩

theorem sendETH_ether (h : sendETH d caller b amount s = .ok s') :
    s'.ether = move s.ether d.activePool b amount := by
  simp only [sendETH, bind_ok, orRevert_ok] at h
  obtain ⟨-, -, _, -, h⟩ := h
  rw [System.callValue_ether h]

/-- Paying out of the Active Pool to another account keeps ether and record in step. -/
theorem etherKept_of_payment (hb : b ≠ d.activePool) (hle : amount ≤ s.activePool.ETH)
    (hether : amount ≤ s.ether d.activePool)
    (he : s'.ether = move s.ether d.activePool b amount)
    (hp : s'.activePool.ETH = s.activePool.ETH - amount) : EtherKept d s s' := by
  constructor
  · rw [he, sum_move hether]
  · rw [he, hp, move_source hb.symm]
    omega

theorem sendETH_external (hb : d.External b) (h : sendETH d caller b amount s = .ok s') :
    amount ≤ s.activePool.ETH ∧ EtherKept d s s' ∧
      ∃ ether, s' = { s with
        activePool := { s.activePool with ETH := s.activePool.ETH - amount }, ether } := by
  obtain ⟨hle, hether, h⟩ := sendETH_ok h
  obtain rfl := System.receiveETH_external hb h
  exact ⟨hle, etherKept_of_payment hb.ne_activePool hle hether rfl rfl, _, rfl⟩

section Wired

variable (hd : d.Wired)

include hd

theorem sendETH_defaultPool (h : sendETH d caller d.defaultPool amount s = .ok s') :
    amount ≤ s.activePool.ETH ∧ EtherKept d s s' ∧
      ∃ ether, s' = { s with
        activePool := { s.activePool with ETH := s.activePool.ETH - amount }
        defaultPool := { s.defaultPool with ETH := s.defaultPool.ETH + amount }, ether } := by
  obtain ⟨hle, hether, h⟩ := sendETH_ok h
  have hne := hd.defaultPool_ne_activePool
  simp only [System.receiveETH, if_neg hne, if_true, System.onDefaultPool_ok, DefaultPool.receive,
    bind_ok, pure_ok, add_ok] at h
  obtain ⟨p, ⟨-, -, x, ⟨-, rfl⟩, rfl⟩, rfl⟩ := h
  exact ⟨hle, etherKept_of_payment hne hle hether rfl rfl, _, rfl⟩

theorem sendETH_stabilityPool (h : sendETH d caller d.stabilityPool amount s = .ok s') :
    amount ≤ s.activePool.ETH ∧ EtherKept d s s' ∧
      ∃ ether, s' = { s with
        activePool := { s.activePool with ETH := s.activePool.ETH - amount }
        stabilityPool := { s.stabilityPool with ETH := s.stabilityPool.ETH + amount }, ether } := by
  obtain ⟨hle, hether, h⟩ := sendETH_ok h
  have hne := hd.stabilityPool_ne_activePool
  simp only [System.receiveETH, if_neg hne, if_neg hd.stabilityPool_ne_defaultPool, if_true,
    System.onStabilityPool_ok, StabilityPool.receive, bind_ok, pure_ok, add_ok] at h
  obtain ⟨p, ⟨-, -, x, ⟨-, rfl⟩, rfl⟩, rfl⟩ := h
  exact ⟨hle, etherKept_of_payment hne hle hether rfl rfl, _, rfl⟩

theorem sendETH_collSurplusPool (h : sendETH d caller d.collSurplusPool amount s = .ok s') :
    amount ≤ s.activePool.ETH ∧ EtherKept d s s' ∧
      ∃ ether, s' = { s with
        activePool := { s.activePool with ETH := s.activePool.ETH - amount }
        collSurplusPool := { s.collSurplusPool with ETH := s.collSurplusPool.ETH + amount }
        ether } := by
  obtain ⟨hle, hether, h⟩ := sendETH_ok h
  have hne := hd.collSurplusPool_ne_activePool
  simp only [System.receiveETH, if_neg hne, if_neg hd.collSurplusPool_ne_defaultPool,
    if_neg hd.collSurplusPool_ne_stabilityPool, if_true, System.onCollSurplusPool_ok,
    CollSurplusPool.receive, bind_ok, pure_ok, add_ok] at h
  obtain ⟨p, ⟨-, -, x, ⟨-, rfl⟩, rfl⟩, rfl⟩ := h
  exact ⟨hle, etherKept_of_payment hne hle hether rfl rfl, _, rfl⟩

theorem sendETH_lqtyStaking (h : sendETH d caller d.lqtyStaking amount s = .ok s') :
    amount ≤ s.activePool.ETH ∧ EtherKept d s s' ∧
      ∃ ether, s' = { s with
        activePool := { s.activePool with ETH := s.activePool.ETH - amount }, ether } := by
  obtain ⟨hle, hether, h⟩ := sendETH_ok h
  have hne := hd.lqtyStaking_ne_activePool
  simp only [System.receiveETH, if_neg hne, if_neg hd.lqtyStaking_ne_defaultPool,
    if_neg hd.lqtyStaking_ne_stabilityPool, if_neg hd.lqtyStaking_ne_collSurplusPool, if_true,
    bind_ok, pure_ok] at h
  obtain ⟨-, -, rfl⟩ := h
  exact ⟨hle, etherKept_of_payment hne hle hether rfl rfl, _, rfl⟩

end Wired

end ActivePool

theorem DefaultPool.sendETHToActivePool_ok (hd : d.Wired)
    (h : DefaultPool.sendETHToActivePool d caller amount s = .ok s') :
    amount ≤ s.defaultPool.ETH ∧ EtherKept d s s' ∧
      ∃ ether, s' = { s with
        defaultPool := { s.defaultPool with ETH := s.defaultPool.ETH - amount }
        activePool := { s.activePool with ETH := s.activePool.ETH + amount }, ether } := by
  simp only [DefaultPool.sendETHToActivePool, bind_ok, sub_ok, orRevert_ok] at h
  obtain ⟨-, -, x, ⟨hle, rfl⟩, h⟩ := h
  obtain ⟨ether, rfl, hkept⟩ := System.callValue_activePool hd.defaultPool_ne_activePool h
  exact ⟨hle, ⟨hkept.sum_eq, hkept.activePool_eq⟩, ether, rfl⟩

theorem DefaultPool.sendETHToActivePool_ether
    (h : DefaultPool.sendETHToActivePool d caller amount s = .ok s') :
    s'.ether = move s.ether d.defaultPool d.activePool amount := by
  simp only [DefaultPool.sendETHToActivePool, bind_ok, orRevert_ok] at h
  obtain ⟨-, -, _, -, h⟩ := h
  rw [System.callValue_ether h]

end Liquity
