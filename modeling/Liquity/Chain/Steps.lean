import Liquity.Chain
import Liquity.Influence.Steps

/-!
# What one transaction on the chain does

Whatever is called, what happens to the storage of the protocol is a sequence of elementary effects that
one account answers for: the sender, the owner who signed a permit, or the lockup that pays out.
-/

open Lib

namespace Liquity

open SafeMath

variable {d : Deployment} {around : Surroundings} {writable : Address → Prop} {s s' : System}
  {owner spender : Address} {amount timestamp : Nat} {env : Env} {c c' : Chain}

/-! ## Allowances -/

theorem LQTYToken.approveInternal_ok {t t' : LQTYToken} (h : approveInternal owner spender amount t = .ok t') :
    t' = { t with
      allowances := Function.update t.allowances owner
        (Function.update (t.allowances owner) spender amount) } := by
  simp only [approveInternal, bind_ok, pure_ok] at h
  obtain ⟨-, -, -, -, rfl⟩ := h
  rfl

namespace Chain

/-- An allowance, whatever its amount was computed from. -/
theorem approveInternal_effects {token : Token} (h : approveInternal token owner spender amount s = .ok s') :
    Effects d owner writable s s' := by
  cases token with
  | LUSD =>
    obtain ⟨t, ht, rfl⟩ := System.onLUSDToken_ok.mp h
    obtain rfl := LUSDToken.approve_ok ht
    exact Effects.one .approveLUSD
  | LQTY =>
    obtain ⟨t, ht, rfl⟩ := System.onLQTYToken_ok.mp h
    obtain rfl := LQTYToken.approveInternal_ok ht
    exact Effects.one .approveLQTY

theorem increaseAllowance_ok {token : Token}
    (h : increaseAllowance d env token spender amount s = .ok s') :
    ∃ allowance, approveInternal token env.sender spender allowance s = .ok s' := by
  cases token with
  | LUSD =>
    obtain ⟨t, ht, rfl⟩ := System.onLUSDToken_ok.mp h
    obtain ⟨allowance, -, ht⟩ := bind_ok.mp ht
    exact ⟨allowance, System.onLUSDToken_ok.mpr ⟨t, ht, rfl⟩⟩
  | LQTY =>
    obtain ⟨t, ht, rfl⟩ := System.onLQTYToken_ok.mp h
    obtain ⟨-, -, ht⟩ := bind_ok.mp ht
    obtain ⟨allowance, -, ht⟩ := bind_ok.mp ht
    exact ⟨allowance, System.onLQTYToken_ok.mpr ⟨t, ht, rfl⟩⟩

theorem decreaseAllowance_ok {token : Token}
    (h : decreaseAllowance d env token spender amount s = .ok s') :
    ∃ allowance, approveInternal token env.sender spender allowance s = .ok s' := by
  cases token with
  | LUSD =>
    obtain ⟨t, ht, rfl⟩ := System.onLUSDToken_ok.mp h
    obtain ⟨allowance, -, ht⟩ := bind_ok.mp ht
    exact ⟨allowance, System.onLUSDToken_ok.mpr ⟨t, ht, rfl⟩⟩
  | LQTY =>
    obtain ⟨t, ht, rfl⟩ := System.onLQTYToken_ok.mp h
    obtain ⟨-, -, ht⟩ := bind_ok.mp ht
    obtain ⟨allowance, -, ht⟩ := bind_ok.mp ht
    exact ⟨allowance, System.onLQTYToken_ok.mpr ⟨t, ht, rfl⟩⟩

/-! ## Permits and lockups -/

theorem permit_ok {token : Token} {p : Permit} {signature : Signature} {chainId : Nat}
    (h : permit d around env token p signature chainId c = .ok c') :
    around.ecrecover (token.digest d around chainId (c.nonces token p.owner) p) signature = p.owner ∧
      ∃ system, approveInternal token p.owner p.spender p.amount c.system = .ok system ∧
        c' = { c with
          system
          nonces := Function.update c.nonces token (Function.update (c.nonces token) p.owner
            ((c.nonces token p.owner + 1) % 2 ^ 256)) } := by
  simp only [permit, bind_ok, require_ok, pure_ok] at h
  obtain ⟨-, -, -, hsigned, system, happroved, rfl⟩ := h
  exact ⟨hsigned, system, happroved, rfl⟩

theorem withdrawLQTY_ok {lockup : Address} (h : withdrawLQTY d env lockup c = .ok c') :
    ∃ l system, c.lockups lockup = some l ∧ env.sender = l.beneficiary ∧ l.unlockTime ≤ env.timestamp ∧
      c' = { c with system } ∧ (l.lqtyToken = d.lqtyToken → c.system.onLQTYToken (LQTYToken.transfer d
        env.timestamp lockup l.beneficiary (c.system.lqtyToken.balances lockup)) = .ok system) ∧
      (l.lqtyToken ≠ d.lqtyToken → system = c.system) := by
  unfold withdrawLQTY at h
  split at h
  next l hl =>
    obtain ⟨system, hbody, hc'⟩ := bind_ok.mp h
    cases hc'
    simp only [LockupContract.withdrawLQTY, bind_ok, require_ok] at hbody
    obtain ⟨-, hbeneficiary, -, htime, hpaid⟩ := hbody
    refine ⟨l, system, hl, hbeneficiary, htime, rfl, fun htoken => ?_, fun hforeign => ?_⟩
    · rwa [if_pos htoken] at hpaid
    · rw [if_neg hforeign] at hpaid
      cases hpaid
      rfl
  next => cases h

theorem construct_ok {lqtyToken beneficiary : Address} {unlockTime : Nat} {l : LockupContract}
    (h : LockupContract.construct d around lqtyToken beneficiary unlockTime = .ok l) :
    l = ⟨lqtyToken, beneficiary, unlockTime⟩ ∧ (lqtyToken = d.lqtyToken →
      d.deploymentStartTime + LockupContract.SECONDS_IN_ONE_YEAR ≤ unlockTime) := by
  simp only [LockupContract.construct, bind_ok, require_ok, add_ok, pure_ok] at h
  obtain ⟨start, hstart, _, ⟨-, rfl⟩, -, hle, rfl⟩ := h
  refine ⟨rfl, ?_⟩
  rintro rfl
  rw [LockupContract.getDeploymentStartTime, if_pos rfl] at hstart
  cases hstart
  exact hle

/-! ## One transaction -/

/-- The account that answers for what a call does. -/
def Call.payer (env : Env) : Call → Address
  | side (.permit _ p _ _) => p.owner
  | side (.withdrawLQTY lockup) => lockup
  | _ => env.sender

theorem SideCall.body_effects {call : SideCall} (htime : c.system.timestamp = env.timestamp)
    (h : call.body d around env c = .ok c') :
    Effects d ((Call.side call).payer env) (fun _ => False) c.system c'.system := by
  cases call with
  | increaseAllowance =>
    obtain ⟨system, hbody, hc'⟩ := bind_ok.mp h
    cases hc'
    obtain ⟨allowance, happroved⟩ := increaseAllowance_ok hbody
    exact approveInternal_effects happroved
  | decreaseAllowance =>
    obtain ⟨system, hbody, hc'⟩ := bind_ok.mp h
    cases hc'
    obtain ⟨allowance, happroved⟩ := decreaseAllowance_ok hbody
    exact approveInternal_effects happroved
  | permit =>
    obtain ⟨-, system, happroved, rfl⟩ := permit_ok h
    exact approveInternal_effects happroved
  | setLQTYTokenAddress | newLockupContract =>
    obtain ⟨_, -, hc'⟩ := bind_ok.mp h
    cases hc'
    exact .refl
  | deployLockupContract =>
    obtain ⟨_, -, hc'⟩ := bind_ok.mp h
    cases hc'
    exact .refl
  | withdrawLQTY lockup =>
    obtain ⟨l, system, -, -, -, rfl, hpaid, hforeign⟩ := withdrawLQTY_ok h
    by_cases htoken : l.lqtyToken = d.lqtyToken
    · exact Effects.transferLQTY htime (.inl rfl) (hpaid htoken)
    · rw [hforeign htoken]

theorem Call.execute_ok {call : Call} (h : call.execute d around env c = .ok c') :
    ∃ c₁, call.body d around env c = .ok c₁ ∧ c' = { c₁ with senders := env.sender :: c₁.senders } := by
  obtain ⟨c₁, hbody, hc'⟩ := bind_ok.mp h
  cases hc'
  exact ⟨c₁, hbody, rfl⟩

/-- A transaction of the protocol is one of the model of the protocol. -/
theorem Step.protocol {call : Liquity.Call} (h : Step d around c (env, .protocol call) c') :
    ∃ system, Liquity.Step d c.system ⟨env, call⟩ system ∧
      c' = { c with system, senders := env.sender :: c.senders } := by
  obtain ⟨hvalid, h⟩ := h
  obtain ⟨c₁, hbody, rfl⟩ := Call.execute_ok h
  obtain ⟨system, hexecuted, hc₁⟩ := bind_ok.mp hbody
  cases hc₁
  exact ⟨system, ⟨⟨hvalid.external, hvalid.time, hvalid.price⟩, hexecuted⟩, rfl⟩

theorem Step.side {call : SideCall} (h : Step d around c (env, .side call) c') :
    ∃ c₁, call.body d around env { c with system := { c.system with timestamp := env.timestamp } } = .ok c₁ ∧
      c' = { c₁ with senders := env.sender :: c₁.senders } := by
  obtain ⟨c₁, hexecuted, rfl⟩ := Call.execute_ok h.2
  obtain ⟨-, -, hbody⟩ := bind_ok.mp hexecuted
  exact ⟨c₁, hbody, rfl⟩

/-- What a transaction on the chain does to the protocol, its payer answers for. -/
theorem Step.effects (hd : d.Wired) {t : Env × Call} (h : Step d around c t c') :
    ∃ writable, Effects d (t.2.payer t.1) writable { c.system with timestamp := t.1.timestamp } c'.system := by
  obtain ⟨env, call⟩ := t
  cases call with
  | protocol call =>
    obtain ⟨system, hstep, rfl⟩ := h.protocol
    exact ⟨_, hstep.effects hd⟩
  | side call =>
    obtain ⟨c₁, hbody, rfl⟩ := h.side
    exact ⟨_, SideCall.body_effects rfl hbody⟩

theorem Step.timestamp_eq (hd : d.Wired) {t : Env × Call} (h : Step d around c t c') :
    c'.system.timestamp = t.1.timestamp := by
  obtain ⟨writable, heffects⟩ := h.effects hd
  exact Effects.timestamp_eq heffects

theorem SideCall.body_senders {call : SideCall} (h : call.body d around env c = .ok c') :
    c'.senders = c.senders := by
  cases call with
  | increaseAllowance | decreaseAllowance | setLQTYTokenAddress | newLockupContract |
      deployLockupContract =>
    obtain ⟨_, -, hc'⟩ := bind_ok.mp h
    cases hc'
    rfl
  | permit =>
    obtain ⟨-, system, -, rfl⟩ := permit_ok h
    rfl
  | withdrawLQTY =>
    obtain ⟨l, system, -, -, -, rfl, -, -⟩ := withdrawLQTY_ok h
    rfl

theorem Step.senders_eq {t : Env × Call} (h : Step d around c t c') :
    c'.senders = t.1.sender :: c.senders := by
  obtain ⟨env, call⟩ := t
  cases call with
  | protocol call =>
    obtain ⟨system, -, rfl⟩ := h.protocol
    rfl
  | side call =>
    obtain ⟨c₁, hbody, rfl⟩ := h.side
    rw [SideCall.body_senders hbody]

/-- Lockups stay where they are. -/
theorem SideCall.body_lockups {call : SideCall} (h : call.body d around env c = .ok c') {a : Address}
    (hfresh : ∀ b ∈ (Call.side call).created, c.lockups b = none) :
    c'.lockups a = c.lockups a ∨ c.lockups a = none ∧ (Call.side call).created = some a ∧
      ∃ l, c'.lockups a = some l ∧ (l.lqtyToken = d.lqtyToken →
        d.deploymentStartTime + LockupContract.SECONDS_IN_ONE_YEAR ≤ l.unlockTime) := by
  have hdeployed : ∀ {lockup token beneficiary : Address} {unlockTime : Nat} {l : LockupContract},
      LockupContract.construct d around token beneficiary unlockTime = .ok l →
      (Call.side call).created = some lockup → c'.lockups = Function.update c.lockups lockup (some l) →
      c'.lockups a = c.lockups a ∨ c.lockups a = none ∧ (Call.side call).created = some a ∧
        ∃ l, c'.lockups a = some l ∧ (l.lqtyToken = d.lqtyToken →
          d.deploymentStartTime + LockupContract.SECONDS_IN_ONE_YEAR ≤ l.unlockTime) := by
    intro lockup token beneficiary unlockTime l hl hcreated hlockups
    rw [hlockups]
    by_cases ha : a = lockup
    · subst ha
      obtain ⟨rfl, hunlock⟩ := construct_ok hl
      exact .inr ⟨hfresh a hcreated, hcreated, _, Function.update_self .., hunlock⟩
    · exact .inl (Function.update_of_ne ha ..)
  cases call with
  | increaseAllowance | decreaseAllowance | setLQTYTokenAddress =>
    obtain ⟨_, -, hc'⟩ := bind_ok.mp h
    cases hc'
    exact .inl rfl
  | permit =>
    obtain ⟨-, system, -, rfl⟩ := permit_ok h
    exact .inl rfl
  | withdrawLQTY =>
    obtain ⟨l, system, -, -, -, rfl, -, -⟩ := withdrawLQTY_ok h
    exact .inl rfl
  | newLockupContract =>
    obtain ⟨l, hl, hc'⟩ := bind_ok.mp h
    cases hc'
    exact hdeployed hl rfl rfl
  | deployLockupContract =>
    obtain ⟨⟨l, factory⟩, hfactory, hc'⟩ := bind_ok.mp h
    cases hc'
    obtain ⟨-, -, hfactory⟩ := bind_ok.mp hfactory
    obtain ⟨l', hl, heq⟩ := bind_ok.mp hfactory
    cases heq
    exact hdeployed hl rfl rfl

/-- A transaction leaves every lockup as it is, and puts a new one only where there was none. -/
theorem Step.lockups {t : Env × Call} (h : Step d around c t c') (a : Address) :
    c'.lockups a = c.lockups a ∨ Fresh d t.1 a c ∧ ∃ l, c'.lockups a = some l ∧
      (l.lqtyToken = d.lqtyToken →
        d.deploymentStartTime + LockupContract.SECONDS_IN_ONE_YEAR ≤ l.unlockTime) := by
  obtain ⟨env, call⟩ := t
  have hcreated := h.1.created
  cases call with
  | protocol call =>
    obtain ⟨system, -, rfl⟩ := h.protocol
    exact .inl rfl
  | side call =>
    obtain ⟨c₁, hbody, rfl⟩ := h.side
    rcases SideCall.body_lockups (a := a) hbody fun b hb => (hcreated b hb).lockups with heq | hnew
    · exact .inl heq
    · obtain ⟨-, hthis, hl⟩ := hnew
      exact .inr ⟨hcreated a hthis, hl⟩

theorem Step.lockups_none {t : Env × Call} (h : Step d around c t c') {a : Address}
    (hnone : c'.lockups a = none) : c.lockups a = none := by
  rcases h.lockups a with heq | ⟨hfresh, -⟩
  · exact heq.symm.trans hnone
  · exact hfresh.lockups

theorem Step.lockups_some {t : Env × Call} (h : Step d around c t c') {a : Address} {l : LockupContract}
    (hl : c.lockups a = some l) : c'.lockups a = some l := by
  rcases h.lockups a with heq | ⟨hfresh, -⟩
  · exact heq.trans hl
  · rw [hfresh.lockups] at hl
    cases hl

end Chain

end Liquity
