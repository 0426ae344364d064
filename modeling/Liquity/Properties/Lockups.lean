import Liquity.Properties.Permits

/-!
# Locked LQTY

A lockup keeps its LQTY until its unlock time, which is at least a year after the LQTY token was deployed,
and pays it to its beneficiary only.  The token itself holds the multisig back for that year: the token
never learns the address of the factory, so that it accepts no recipient at all.
-/

open Lib

namespace Liquity

variable {d : Deployment} {around : Surroundings} {writable : Address → Prop} {sender : Address}
  {s s' : System}

/-! ## The multisig in the first year -/

/-- In its first year the token lets nothing leave the multisig but to registered lockups. -/
theorem Effect.multisig_le (hnone : ∀ a, d.isRegisteredLockup a = false) (hyear : d.FirstYear s.timestamp)
    (h : Effect d sender writable s s') :
    s.lqtyToken.balances d.multisig ≤ s'.lqtyToken.balances d.multisig := by
  cases h with
  | @moveLQTY a b amount payer le locked =>
    refine le_move fun heq => ?_
    have hregistered := locked hyear heq.symm
    rw [hnone b] at hregistered
    cases hregistered
  | spendLQTY le balance locked => exact le_move (locked hyear).symm
  | _ => exact Nat.le_refl _

theorem Effects.multisig_le (hnone : ∀ a, d.isRegisteredLockup a = false) (hyear : d.FirstYear s.timestamp)
    (h : Effects d sender writable s s') :
    s.lqtyToken.balances d.multisig ≤ s'.lqtyToken.balances d.multisig := by
  induction h with
  | refl => exact Nat.le_refl _
  | tail hfirst hlast ih =>
    rw [← Effects.timestamp_eq hfirst] at hyear
    exact ih.trans (hlast.multisig_le hnone hyear)

namespace Chain

variable {c c' : Chain} {t : Env × Call} {a : Address} {l : LockupContract}

/-- The allocation of the multisig. -/
def multisigEntitlement : Nat := 10 ^ 24 * 100 - 10 ^ 24 * 2 - 10 ^ 24 * 32 - 10 ^ 24 * 4 / 3

/-- Whatever anyone does, the multisig included, its allocation is still there a year later. -/
theorem multisig_locked (hd : d.Wired) (hnone : ∀ a, d.isRegisteredLockup a = false)
    (hc : Reachable d around c) (hyear : d.FirstYear c.system.timestamp) :
    multisigEntitlement ≤ c.system.lqtyToken.balances d.multisig := by
  induction hc with
  | init hc =>
    obtain ⟨⟨ether, timestamp, -, hsystem⟩, -⟩ := hc
    rw [hsystem]
    show multisigEntitlement ≤ (LQTYToken.initial d).balances d.multisig
    dsimp only [LQTYToken.initial, multisigEntitlement]
    rw [Function.update_self]
    exact Nat.le_add_left _ _
  | @step c c' t _ _ hstep ih =>
    have htime := hstep.timestamp_eq hd
    obtain ⟨writable, heffects⟩ := hstep.effects hd
    have hvalid := hstep.1.time
    -- the time of a transaction is not before the one of the transaction before
    have hbefore : d.FirstYear c.system.timestamp := by
      unfold Deployment.FirstYear at hyear ⊢
      omega
    have hyear' : d.FirstYear t.1.timestamp := by
      rw [← htime]
      exact hyear
    have hle := heffects.multisig_le hnone hyear'
    exact (ih hbefore).trans hle

/-- Two permits are accepted in the first minute. -/
theorem multisig_locked_sample : ∃ c, Reachable sampleDeployment .sample c ∧ c.system.timestamp = 60 ∧
    multisigEntitlement ≤ c.system.lqtyToken.balances sampleDeployment.multisig := by
  obtain ⟨c, log, hlog, htime⟩ := exists_logged (fun _ => True) samplePermits
    (fun x => x.1.system.timestamp = 60) (by decide +kernel)
  have hc : Reachable sampleDeployment .sample c := hlog.reachable sample_reachable
  have hyear : sampleDeployment.FirstYear c.system.timestamp := by
    have htime : c.system.timestamp = 60 := htime
    show c.system.timestamp < 0 + 31536000
    omega
  exact ⟨c, hc, htime, multisig_locked sampleDeployment_wired (fun _ => rfl) hc hyear⟩

/-! ## Invariants -/

/-- An address that no signature leads to.  The address of a contract is one. -/
def Keyless (around : Surroundings) (a : Address) : Prop :=
  ∀ digest signature, around.ecrecover digest signature ≠ a

theorem Reachable.lockup (hc : Reachable d around c) (hl : c.lockups a = some l) :
    d.External a ∧ a ∉ c.senders ∧ (l.lqtyToken = d.lqtyToken →
      d.deploymentStartTime + LockupContract.SECONDS_IN_ONE_YEAR ≤ l.unlockTime) := by
  induction hc with
  | init hc =>
    rw [hc.2.2.1] at hl
    cases hl
  | @step c c' t _ _ hstep ih =>
    have hsenders : c'.senders = t.1.sender :: c.senders := hstep.senders_eq
    rcases hstep.lockups a with heq | ⟨hfresh, l', hl', hunlock⟩
    · obtain ⟨hexternal, hsent, hunlock⟩ := ih (heq.symm.trans hl)
      refine ⟨hexternal, ?_, hunlock⟩
      rw [hsenders, List.mem_cons]
      rintro (rfl | hmem)
      · -- contracts send nothing
        rw [heq, hstep.1.sender] at hl
        cases hl
      · exact hsent hmem
    · rw [hl'] at hl
      cases hl
      refine ⟨hfresh.external, ?_, hunlock⟩
      rw [hsenders]
      exact hfresh.senders

/-- What others do leaves the allowances and the tokens of a keyless account alone, up to what a lockup
there pays out. -/
theorem Step.keyless_left (hd : d.Wired) (hkeyless : Keyless around a) (ha : d.External a)
    (hother : t.1.sender ≠ a) (h : Step d around c t c') :
    HoldingsLeft a { c.system with timestamp := t.1.timestamp } c'.system ∨
      t.2 = .side (.withdrawLQTY a) ∧ c'.system.lqtyToken.allowances = c.system.lqtyToken.allowances := by
  by_cases hpayer : t.2.payer t.1 = a
  · obtain ⟨env, call⟩ := t
    cases call with
    | protocol call => exact absurd hpayer hother
    | side call =>
      obtain ⟨c₁, hbody, rfl⟩ := h.side
      cases call with
      | permit token p signature chainId =>
        have howner : p.owner = a := hpayer
        exact absurd ((permit_ok hbody).1.trans howner) (hkeyless _ _)
      | withdrawLQTY lockup =>
        have hlockup : lockup = a := hpayer
        subst hlockup
        refine .inr ⟨rfl, ?_⟩
        obtain ⟨l, system, -, -, -, rfl, hpaid, hforeign⟩ := withdrawLQTY_ok hbody
        by_cases htoken : l.lqtyToken = d.lqtyToken
        · obtain ⟨token, htransfer, rfl⟩ := System.onLQTYToken_ok.mp (hpaid htoken)
          obtain ⟨-, -, rfl⟩ := LQTYToken.transfer_ok htransfer
          rfl
        · rw [hforeign htoken]
      | _ => exact absurd hpayer hother
  · obtain ⟨writable, heffects⟩ := h.effects hd
    exact .inl (Effects.holdingsLeft ha hpayer heffects)

/-- Where nobody has sent anything from and nobody can sign, nothing is allowed. -/
theorem Reachable.unapproved (hd : d.Wired) (hkeyless : Keyless around a) (ha : d.External a)
    (hc : Reachable d around c) (hsent : a ∉ c.senders) (x : Address) :
    c.system.lqtyToken.allowances a x = 0 := by
  induction hc with
  | init hc =>
    obtain ⟨⟨ether, timestamp, -, hsystem⟩, -⟩ := hc
    rw [hsystem]
    rfl
  | step _ _ hstep ih =>
    rw [hstep.senders_eq, List.mem_cons, not_or] at hsent
    have hbefore := ih hsent.2
    rcases hstep.keyless_left hd hkeyless ha (Ne.symm hsent.1) with hleft | ⟨-, hsame⟩
    · have hle := hleft.LQTY.allowance_le x
      exact Nat.le_zero.mp (hle.trans hbefore.le)
    · rw [hsame]
      exact hbefore

/-! ## Lockups -/

/-- One transaction takes nothing from a lockup, or is the withdrawal of its beneficiary. -/
theorem Step.lockup_left (hd : d.Wired) (hkeyless : Keyless around a) (hc : Reachable d around c)
    (hl : c.lockups a = some l) (h : Step d around c t c') :
    c.system.lqtyToken.balances a ≤ c'.system.lqtyToken.balances a ∨ t.2 = .side (.withdrawLQTY a) := by
  obtain ⟨ha, hsent, -⟩ := hc.lockup hl
  have hother : t.1.sender ≠ a := by
    rintro rfl
    rw [h.1.sender] at hl
    cases hl
  rcases h.keyless_left hd hkeyless ha hother with hleft | ⟨hcall, -⟩
  · have hspent := hleft.LQTY.spent
    have hnone : ∑ x, c.system.lqtyToken.allowances a x = 0 :=
      Finset.sum_eq_zero fun x _ => hc.unapproved hd hkeyless ha hsent x
    dsimp only at hspent
    exact .inl (by omega)
  · exact .inr hcall

/-- A withdrawal is the beneficiary's, not before the unlock time, and it empties the lockup. -/
theorem Step.withdrawal {env : Env} (hl : c.lockups a = some l) (htoken : l.lqtyToken = d.lqtyToken)
    (h : Step d around c (env, .side (.withdrawLQTY a)) c') :
    env.sender = l.beneficiary ∧ l.unlockTime ≤ env.timestamp ∧
      c'.system.lqtyToken.balances a = 0 ∧ c'.system.lqtyToken.balances l.beneficiary =
        c.system.lqtyToken.balances l.beneficiary + c.system.lqtyToken.balances a := by
  have hne : a ≠ env.sender := by
    rintro rfl
    rw [h.1.sender] at hl
    cases hl
  obtain ⟨c₁, hbody, rfl⟩ := h.side
  obtain ⟨l', system, hl', hbeneficiary, hunlock, rfl, hpaid, -⟩ := withdrawLQTY_ok hbody
  obtain rfl : l = l' := Option.some.inj (hl.symm.trans hl')
  obtain ⟨token, htransfer, rfl⟩ := System.onLQTYToken_ok.mp (hpaid htoken)
  obtain ⟨-, -, rfl⟩ := LQTYToken.transfer_ok htransfer
  rw [hbeneficiary] at hne
  refine ⟨hbeneficiary, hunlock, ?_, move_target hne⟩
  dsimp only
  rw [move_source hne, Nat.sub_self]

/-- A lockup keeps its LQTY for at least a year after the deployment of the token: until its unlock time
nothing takes any, and afterwards only its beneficiary does, who gets everything. -/
theorem lockups_hold (hd : d.Wired) (hkeyless : Keyless around a) (hc : Reachable d around c)
    (hl : c.lockups a = some l) (htoken : l.lqtyToken = d.lqtyToken)
    (h : RunFrom d around (fun _ _ => True) c c') :
    d.deploymentStartTime + LockupContract.SECONDS_IN_ONE_YEAR ≤ l.unlockTime ∧ c'.lockups a = some l ∧
    (c'.system.timestamp < l.unlockTime →
      c.system.lqtyToken.balances a ≤ c'.system.lqtyToken.balances a) ∧
    ∀ env call c'', Step d around c' (env, call) c'' →
      c''.system.lqtyToken.balances a < c'.system.lqtyToken.balances a →
      call = .side (.withdrawLQTY a) ∧ env.sender = l.beneficiary ∧ l.unlockTime ≤ env.timestamp ∧
        c''.system.lqtyToken.balances a = 0 ∧ c''.system.lqtyToken.balances l.beneficiary =
          c'.system.lqtyToken.balances l.beneficiary + c'.system.lqtyToken.balances a := by
  refine ⟨(hc.lockup hl).2.2 htoken, ?_⟩
  have hrun : Reachable d around c' ∧ c'.lockups a = some l ∧ (c'.system.timestamp < l.unlockTime →
      c.system.lqtyToken.balances a ≤ c'.system.lqtyToken.balances a) := by
    induction h with
    | init heq =>
      subst heq
      exact ⟨hc, hl, fun _ => Nat.le_refl _⟩
    | @step c₁ c₂ t _ _ hstep ih =>
      obtain ⟨hc₁, hl₁, hheld⟩ := ih
      refine ⟨.step hc₁ trivial hstep, hstep.lockups_some hl₁, fun hlocked => ?_⟩
      have htime := hstep.timestamp_eq hd
      have hlater := hstep.1.time
      have hbefore := hheld (by omega)
      rcases hstep.lockup_left hd hkeyless hc₁ hl₁ with hle | hcall
      · exact hbefore.trans hle
      · -- a withdrawal would be at the unlock time or later
        obtain ⟨env, call⟩ := t
        obtain rfl : call = .side (.withdrawLQTY a) := hcall
        have hunlock := (hstep.withdrawal hl₁ htoken).2.1
        dsimp only at htime
        omega
  obtain ⟨hc', hl', hheld⟩ := hrun
  refine ⟨hl', hheld, fun env call c'' hstep hless => ?_⟩
  rcases hstep.lockup_left hd hkeyless hc' hl' with hle | hcall
  · omega
  · obtain rfl : call = .side (.withdrawLQTY a) := hcall
    exact ⟨rfl, hstep.withdrawal hl' htoken⟩

/-- The lockup of 102 is deployed and gets 1000 LQTY. -/
def sampleLockup : List (Env × Call) :=
  [(⟨104, 0, 0, 2000 * 10 ^ 18⟩, .side (.setLQTYTokenAddress 11)),
    (⟨101, 0, 0, 2000 * 10 ^ 18⟩, .side (.deployLockupContract 201 102 31536000)),
    (⟨14, 0, 0, 2000 * 10 ^ 18⟩, .protocol (.transferLQTY 201 (1000 * 10 ^ 18)))]

theorem sample_keyless : Keyless Surroundings.sample 201 := by
  intro digest signature
  dsimp only [Surroundings.sample]
  split
  · decide
  · decide

/-- A transfer of the bounty account leaves the lockup alone. -/
theorem lockups_hold_sample : ∃ c c', Reachable sampleDeployment .sample c ∧
    RunFrom sampleDeployment .sample (fun _ _ => True) c c' ∧
    c.system.lqtyToken.balances 201 = 1000 * 10 ^ 18 ∧
    c.system.lqtyToken.balances 201 ≤ c'.system.lqtyToken.balances 201 := by
  obtain ⟨c, c', hc, hstep, hl, hbalance, htime⟩ := exists_chain_step sampleLockup
    (⟨14, 0, 60, 2000 * 10 ^ 18⟩, .protocol (.transferLQTY 103 (500 * 10 ^ 18)))
    (fun c c' => c.lockups 201 = some ⟨11, 102, 31536000⟩ ∧
      c.system.lqtyToken.balances 201 = 1000 * 10 ^ 18 ∧ c'.system.timestamp = 60) (by decide +kernel)
  have hrun : RunFrom sampleDeployment .sample (fun _ _ => True) c c' := .step (.init rfl) trivial hstep
  have hlocked : c'.system.timestamp < 31536000 := by omega
  exact ⟨c, c', hc, hrun, hbalance,
    (lockups_hold sampleDeployment_wired sample_keyless hc hl rfl hrun).2.2.1 hlocked⟩

/-! ## Withdrawals -/

theorem Reachable.sum_LQTY (hd : d.Wired) (hc : Reachable d around c) :
    ∑ a, c.system.lqtyToken.balances a = 100 * 10 ^ 24 := by
  induction hc with
  | init hc =>
    obtain ⟨⟨ether, timestamp, -, hsystem⟩, -⟩ := hc
    rw [hsystem]
    exact LQTYToken.sum_initial d
  | step _ _ hstep ih =>
    obtain ⟨writable, heffects⟩ := hstep.effects hd
    exact (Effects.conserved heffects).LQTY.trans ih

/-- After the first year a transfer to an account outside the protocol needs the balance only. -/
theorem transfer_succeeds {token : LQTYToken} {b : Address} {amount timestamp : Nat} (ha : a ≠ 0)
    (hb : d.External b) (hlater : d.deploymentStartTime + LQTYToken.ONE_YEAR_IN_SECONDS ≤ timestamp)
    (hle : amount ≤ token.balances a) (hsum : ∑ x, token.balances x < 2 ^ 256) :
    ∃ token', LQTYToken.transfer d timestamp a b amount token = .ok token' := by
  obtain ⟨token', htransfer⟩ := LQTYToken.transferInternal_of_le ha hb.1 hle hsum
  have hover : LQTYToken.isFirstYear d timestamp = .ok false := by
    refine bind_ok.mpr ⟨timestamp - d.deploymentStartTime, SafeMath.sub_ok.mpr ⟨by omega, rfl⟩, ?_⟩
    exact congrArg Except.ok (decide_eq_false (by omega))
  have hmultisig : LQTYToken.requireMultisigRecipient d timestamp a b = .ok () := by
    unfold LQTYToken.requireMultisigRecipient
    split
    · exact bind_ok.mpr ⟨false, hover, require_ok.mpr fun htrue => by cases htrue⟩
    · rfl
  have hrecipient : LQTYToken.requireValidRecipient d b = .ok () :=
    bind_ok.mpr ⟨(), require_ok.mpr ⟨hb.1, hb.ne 10⟩, require_ok.mpr ⟨hb.ne 12, hb.ne_lqtyStaking⟩⟩
  exact ⟨token', bind_ok.mpr ⟨(), hmultisig, bind_ok.mpr ⟨(), hrecipient, htransfer⟩⟩⟩

/-- From the unlock time on the beneficiary can withdraw, and nobody else ever can. -/
theorem withdrawLQTY_succeeds_iff (hd : d.Wired) (hc : Reachable d around c) (hl : c.lockups a = some l)
    (htoken : l.lqtyToken = d.lqtyToken) {env : Env} (hvalid : (Call.side (.withdrawLQTY a)).Valid d env c)
    (hvalue : env.value = 0) :
    (∃ c', (Call.side (.withdrawLQTY a)).execute d around env c = .ok c') ↔
      env.sender = l.beneficiary ∧ l.unlockTime ≤ env.timestamp := by
  constructor
  · rintro ⟨c', h⟩
    have hstep : Step d around c (env, .side (.withdrawLQTY a)) c' := ⟨hvalid, h⟩
    exact ⟨(hstep.withdrawal hl htoken).1, (hstep.withdrawal hl htoken).2.1⟩
  · rintro ⟨hbeneficiary, hunlock⟩
    have hsum := hc.sum_LQTY hd
    obtain ⟨ha, -, hyear⟩ := hc.lockup hl
    have hlater : d.deploymentStartTime + LQTYToken.ONE_YEAR_IN_SECONDS ≤ env.timestamp :=
      (hyear htoken).trans hunlock
    have hbalance : c.system.lqtyToken.balances a ≤ c.system.lqtyToken.balances a := Nat.le_refl _
    obtain ⟨token, htransfer⟩ := transfer_succeeds ha.1 hvalid.external hlater hbalance (by omega)
    rw [hbeneficiary] at htransfer
    have hpaid : l.withdrawLQTY d env a { c.system with timestamp := env.timestamp } =
        .ok { c.system with timestamp := env.timestamp, lqtyToken := token } := by
      unfold LockupContract.withdrawLQTY
      rw [if_pos htoken]
      exact bind_ok.mpr ⟨(), require_ok.mpr hbeneficiary, bind_ok.mpr ⟨(), require_ok.mpr hunlock,
        System.onLQTYToken_ok.mpr ⟨token, htransfer, rfl⟩⟩⟩
    have hbody : withdrawLQTY d env a { c with system := { c.system with timestamp := env.timestamp } } =
        .ok { c with system := { c.system with timestamp := env.timestamp, lqtyToken := token } } := by
      unfold withdrawLQTY
      dsimp only
      rw [hl]
      exact bind_ok.mpr ⟨_, hpaid, rfl⟩
    exact ⟨_, bind_ok.mpr ⟨_, bind_ok.mpr ⟨(), require_ok.mpr hvalue, hbody⟩, rfl⟩⟩

/-- Account 102 withdraws a year after the deployment. -/
theorem withdrawLQTY_succeeds_sample : ∃ c c', Reachable sampleDeployment .sample c ∧
    c.system.lqtyToken.balances 201 = 1000 * 10 ^ 18 ∧ (Call.side (.withdrawLQTY 201)).execute
      sampleDeployment .sample ⟨102, 0, 31536000, 2000 * 10 ^ 18⟩ c = .ok c' := by
  obtain ⟨c, log, hlog, hl, hbalance, hvalid⟩ := exists_logged (fun _ => True) sampleLockup
    (fun x => x.1.lockups 201 = some ⟨11, 102, 31536000⟩ ∧
      x.1.system.lqtyToken.balances 201 = 1000 * 10 ^ 18 ∧ (Call.side (.withdrawLQTY 201)).Valid
        sampleDeployment ⟨102, 0, 31536000, 2000 * 10 ^ 18⟩ x.1) (by decide +kernel)
  have hc : Reachable sampleDeployment .sample c := hlog.reachable sample_reachable
  obtain ⟨c', h⟩ := (withdrawLQTY_succeeds_iff sampleDeployment_wired hc hl rfl hvalid rfl).mpr
    ⟨rfl, Nat.le_refl _⟩
  exact ⟨c, c', hc, hbalance, h⟩

end Chain

end Liquity
