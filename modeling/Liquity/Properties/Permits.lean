import Liquity.Chain.Steps
import Liquity.Properties.Authority

/-!
# Permits

Each accepted permit of an owner is for the next nonce, so that no message is accepted twice.  Tokens
leave an account that sends nothing under the allowances that it gave before and under the permits that it
signed, and in no other way.
-/

open Lib

namespace Liquity

namespace Token

def balances : Token → System → Address → Nat
  | LUSD, s => s.lusdToken.balances
  | LQTY, s => s.lqtyToken.balances

def allowances : Token → System → Address → Address → Nat
  | LUSD, s => s.lusdToken.allowances
  | LQTY, s => s.lqtyToken.allowances

end Token

namespace Chain

variable {d : Deployment} {around : Surroundings} {c c' : Chain} {t : Env × Call} {token : Token}
  {b owner : Address}

/-! ## The log of accepted permits -/

/-- A permit that a token accepted, with the nonce it was for. -/
structure Accepted where
  token : Token
  permit : Permit
  nonce : Nat
  deriving DecidableEq

/-- Some signature on the message was recovered to the owner. -/
def Accepted.Signed (d : Deployment) (around : Surroundings) (a : Accepted) : Prop :=
  ∃ chainId signature,
    around.ecrecover (a.token.digest d around chainId a.nonce a.permit) signature = a.permit.owner

/-- The permits of one owner to one token. -/
def Accepted.By (token : Token) (owner : Address) (a : Accepted) : Prop :=
  a.token = token ∧ a.permit.owner = owner

instance (token : Token) (owner : Address) (a : Accepted) : Decidable (a.By token owner) :=
  inferInstanceAs (Decidable (_ ∧ _))

/-- The permit that a successful call carries. -/
def Call.accepted (c : Chain) : Call → List Accepted
  | side (.permit token p _ _) => [⟨token, p, c.nonces token p.owner⟩]
  | _ => []

/-- A run from `c`, and the permits accepted in it. -/
def LoggedFrom (d : Deployment) (around : Surroundings) (cond : Chain → Env × Call → Prop) (c : Chain) :
    Chain × List Accepted → Prop :=
  Lib.Reachable (fun x => x = (c, []))
    (fun x t x' => Step d around x.1 t x'.1 ∧ x'.2 = x.2 ++ t.2.accepted x.1) (fun x t => cond x.1 t)

theorem LoggedFrom.reachable {cond : Chain → Env × Call → Prop} {x : Chain × List Accepted}
    (h : LoggedFrom d around cond c x) (hc : Reachable d around c) : Reachable d around x.1 := by
  induction h with
  | init heq =>
    subst heq
    exact hc
  | step _ _ hstep ih => exact .step ih trivial hstep.1

/-- The end of a run of concrete transactions, if all of them meet the condition, are valid and succeed. -/
def runLogged (d : Deployment) (around : Surroundings) (cond : Env × Call → Prop) [DecidablePred cond] :
    List (Env × Call) → Chain × List Accepted → Option (Chain × List Accepted)
  | [], x => some x
  | t :: rest, x =>
    if cond t ∧ t.2.Valid d t.1 x.1 then
      match t.2.execute d around t.1 x.1 with
      | .ok c => runLogged d around cond rest (c, x.2 ++ t.2.accepted x.1)
      | .error _ => none
    else none

theorem loggedFrom_of_runLogged {cond : Env × Call → Prop} [DecidablePred cond]
    {transactions : List (Env × Call)} {x x' : Chain × List Accepted}
    (hx : LoggedFrom d around (fun _ => cond) c x)
    (h : runLogged d around cond transactions x = some x') :
    LoggedFrom d around (fun _ => cond) c x' := by
  induction transactions generalizing x with
  | nil =>
    cases h
    exact hx
  | cons t rest ih =>
    unfold runLogged at h
    split at h
    next hok =>
      split at h
      next c₁ hc₁ => exact ih (.step hx hok.1 ⟨⟨hok.2, hc₁⟩, rfl⟩) h
      next => cases h
    next => cases h

/-- What a run of concrete transactions does, tested by evaluation. -/
theorem exists_logged (cond : Env × Call → Prop) [DecidablePred cond] (transactions : List (Env × Call))
    (p : Chain × List Accepted → Prop) [DecidablePred p]
    (h : (runLogged sampleDeployment .sample cond transactions (sample, [])).any
      (fun x => decide (p x)) = true) :
    ∃ c log, LoggedFrom sampleDeployment .sample (fun _ => cond) sample (c, log) ∧ p (c, log) := by
  obtain ⟨⟨c, log⟩, hrun, hp⟩ := (Option.any_eq_true _ _).mp h
  exact ⟨c, log, loggedFrom_of_runLogged (.init rfl) hrun, of_decide_eq_true hp⟩

/-- What one more transaction does after a run of concrete transactions, tested by evaluation. -/
theorem exists_chain_step (transactions : List (Env × Call)) (t : Env × Call) (p : Chain → Chain → Prop)
    [∀ c c', Decidable (p c c')]
    (h : (runLogged sampleDeployment .sample (fun _ => True) transactions (sample, [])).any (fun x =>
      decide (t.2.Valid sampleDeployment t.1 x.1) &&
        (t.2.execute sampleDeployment .sample t.1 x.1).toOption.any (fun c' => decide (p x.1 c'))) = true) :
    ∃ c c', Reachable sampleDeployment .sample c ∧ Step sampleDeployment .sample c t c' ∧ p c c' := by
  obtain ⟨⟨c, log⟩, hrun, hp⟩ := (Option.any_eq_true _ _).mp h
  rw [Bool.and_eq_true] at hp
  obtain ⟨c', hc', hp'⟩ := exists_ok hp.2
  have hlog : LoggedFrom sampleDeployment .sample (fun _ _ => True) sample (c, log) :=
    loggedFrom_of_runLogged (.init rfl) hrun
  exact ⟨c, c', hlog.reachable sample_reachable, ⟨of_decide_eq_true hp.1, hc'⟩, hp'⟩

/-- Two permits of one owner, handed in by account 101. -/
def samplePermits : List (Env × Call) :=
  [(⟨101, 0, 0, 2000 * 10 ^ 18⟩, .side (.permit .LUSD (samplePermit (500 * 10 ^ 18)) sampleSignature 31337)),
    (⟨101, 0, 60, 2000 * 10 ^ 18⟩,
      .side (.permit .LUSD (samplePermit (700 * 10 ^ 18)) sampleSecondSignature 31337))]

/-! ## Nonces -/

/-- The permits of one owner in a log. -/
def permitsOf (token : Token) (owner : Address) (log : List Accepted) : List Accepted :=
  log.filter fun a => decide (a.By token owner)

theorem permitsOf_append (log log' : List Accepted) :
    permitsOf token owner (log ++ log') = permitsOf token owner log ++ permitsOf token owner log' :=
  List.filter_append ..

theorem permitsOf_singleton_of_by {a : Accepted} (h : a.By token owner) : permitsOf token owner [a] = [a] :=
  List.filter_cons_of_pos (decide_eq_true h)

theorem permitsOf_singleton_of_not_by {a : Accepted} (h : ¬ a.By token owner) :
    permitsOf token owner [a] = [] :=
  List.filter_cons_of_neg (by rw [decide_eq_true_eq]; exact h)

/-- Only a permit of the owner touches the nonce, and it is for the nonce that it finds. -/
theorem SideCall.body_nonces {env : Env} {call : SideCall} (h : call.body d around env c = .ok c') :
    permitsOf token owner (Call.accepted c (.side call)) = [] ∧
        c'.nonces token owner = c.nonces token owner ∨
      ∃ p, permitsOf token owner (Call.accepted c (.side call)) = [⟨token, p, c.nonces token owner⟩] ∧
        c'.nonces token owner = (c.nonces token owner + 1) % 2 ^ 256 := by
  cases call with
  | increaseAllowance | decreaseAllowance | setLQTYTokenAddress | newLockupContract |
      deployLockupContract =>
    obtain ⟨_, -, hc'⟩ := bind_ok.mp h
    cases hc'
    exact .inl ⟨rfl, rfl⟩
  | withdrawLQTY =>
    obtain ⟨l, system, -, -, -, rfl, -, -⟩ := withdrawLQTY_ok h
    exact .inl ⟨rfl, rfl⟩
  | permit token' p =>
    obtain ⟨-, system, -, rfl⟩ := permit_ok h
    dsimp only [Call.accepted]
    by_cases hby : token' = token ∧ p.owner = owner
    · obtain ⟨rfl, rfl⟩ := hby
      refine .inr ⟨p, permitsOf_singleton_of_by ⟨rfl, rfl⟩, ?_⟩
      rw [Function.update_self, Function.update_self]
    · refine .inl ⟨permitsOf_singleton_of_not_by hby, ?_⟩
      by_cases htoken : token = token'
      · subst htoken
        have howner : owner ≠ p.owner := fun heq => hby ⟨rfl, heq.symm⟩
        rw [Function.update_self, Function.update_of_ne howner]
      · rw [Function.update_of_ne htoken]

theorem Step.nonces (h : Step d around c t c') :
    permitsOf token owner (t.2.accepted c) = [] ∧ c'.nonces token owner = c.nonces token owner ∨
      ∃ p, permitsOf token owner (t.2.accepted c) = [⟨token, p, c.nonces token owner⟩] ∧
        c'.nonces token owner = (c.nonces token owner + 1) % 2 ^ 256 := by
  obtain ⟨env, call⟩ := t
  cases call with
  | protocol call =>
    obtain ⟨system, -, rfl⟩ := h.protocol
    exact .inl ⟨rfl, rfl⟩
  | side call =>
    obtain ⟨c₁, hbody, rfl⟩ := h.side
    have hsame : Call.accepted { c with system := { c.system with timestamp := env.timestamp } }
        (.side call) = Call.accepted c (.side call) := by
      cases call <;> rfl
    have hnonces := @SideCall.body_nonces _ _ _ _ token owner _ _ hbody
    rw [hsame] at hnonces
    exact hnonces

/-- Every permit that is accepted was signed. -/
theorem Step.signed (h : Step d around c t c') : ∀ a ∈ t.2.accepted c, a.Signed d around := by
  obtain ⟨env, call⟩ := t
  rintro a ha
  cases call with
  | protocol call => cases ha
  | side call =>
    obtain ⟨c₁, hbody, rfl⟩ := h.side
    cases call with
    | permit token p signature chainId =>
      obtain rfl := List.mem_singleton.mp ha
      exact ⟨chainId, signature, (permit_ok hbody).1⟩
    | _ => cases ha

/-- The nonces of a token are words. -/
theorem Reachable.nonces_lt (h : Reachable d around c) : c.nonces token owner < 2 ^ 256 := by
  induction h with
  | init h =>
    rw [h.2.1]
    exact Nat.two_pow_pos 256
  | step _ _ hstep ih =>
    rcases hstep.nonces with ⟨-, heq⟩ | ⟨p, -, heq⟩
    · rw [heq]
      exact ih
    · rw [heq]
      exact Nat.mod_lt _ (Nat.two_pow_pos 256)

/-- The permits of an owner are numbered from the nonce at the start of the run. -/
theorem LoggedFrom.numbered {cond : Chain → Env × Call → Prop} {x : Chain × List Accepted}
    (h : LoggedFrom d around cond c x) (hlt : c.nonces token owner < 2 ^ 256) :
    x.1.nonces token owner = (c.nonces token owner + (permitsOf token owner x.2).length) % 2 ^ 256 ∧
      (permitsOf token owner x.2).map Accepted.nonce =
        (List.range (permitsOf token owner x.2).length).map
          fun i => (c.nonces token owner + i) % 2 ^ 256 := by
  induction h with
  | init heq =>
    subst heq
    exact ⟨(Nat.mod_eq_of_lt hlt).symm, rfl⟩
  | step _ _ hstep ih =>
    obtain ⟨hnonce, hnumbers⟩ := ih
    rw [hstep.2, permitsOf_append]
    rcases hstep.1.nonces with ⟨hnone, heq⟩ | ⟨p, hone, heq⟩
    · rw [hnone, List.append_nil, heq]
      exact ⟨hnonce, hnumbers⟩
    · rw [hone, heq, List.length_append, List.length_singleton, List.range_succ, List.map_append,
        List.map_append, hnumbers, List.map_singleton, List.map_singleton, hnonce]
      exact ⟨by omega, rfl⟩

theorem LoggedFrom.signed {cond : Chain → Env × Call → Prop} {x : Chain × List Accepted}
    (h : LoggedFrom d around cond c x) : ∀ a ∈ x.2, a.Signed d around := by
  induction h with
  | init heq =>
    subst heq
    exact fun a ha => nomatch ha
  | step _ _ hstep ih =>
    rw [hstep.2]
    exact List.forall_mem_append.mpr ⟨ih, hstep.1.signed⟩

/-- Fewer numbers than there are words do not repeat. -/
theorem nodup_numbers {n k : Nat} (hk : k ≤ 2 ^ 256) :
    ((List.range k).map fun i => (n + i) % 2 ^ 256).Nodup := by
  refine List.Nodup.map_on (fun i hi j hj heq => ?_) List.nodup_range
  rw [List.mem_range] at hi hj
  omega

/-- In every run the permits of an owner are for consecutive nonces, each of them is signed, and none is
accepted twice as long as the nonces do not wrap around. -/
theorem permits_consecutive (hc : Reachable d around c) {cond : Chain → Env × Call → Prop}
    {log : List Accepted} (h : LoggedFrom d around cond c (c', log)) :
    (∀ a ∈ log, a.Signed d around) ∧
    (∀ token owner, (permitsOf token owner log).map Accepted.nonce =
      (List.range (permitsOf token owner log).length).map
        fun i => (c.nonces token owner + i) % 2 ^ 256) ∧
    (log.length ≤ 2 ^ 256 → log.Nodup) := by
  have hnumbers : ∀ token owner, (permitsOf token owner log).map Accepted.nonce =
      (List.range (permitsOf token owner log).length).map
        fun i => (c.nonces token owner + i) % 2 ^ 256 :=
    fun token owner => (h.numbered hc.nonces_lt).2
  refine ⟨h.signed, hnumbers, fun hlength => List.nodup_iff_count_le_one.mpr fun a => ?_⟩
  -- the permits of one owner to one token differ in their nonces
  have hshort : (permitsOf a.token a.permit.owner log).length ≤ 2 ^ 256 :=
    (List.length_filter_le _ _).trans hlength
  have hdistinct : ((permitsOf a.token a.permit.owner log).map Accepted.nonce).Nodup := by
    rw [hnumbers]
    exact nodup_numbers hshort
  calc log.count a
      = (permitsOf a.token a.permit.owner log).count a := (List.count_filter (by simp [Accepted.By])).symm
    _ ≤ ((permitsOf a.token a.permit.owner log).map Accepted.nonce).count a.nonce :=
        List.count_le_count_map
    _ ≤ 1 := List.nodup_iff_count_le_one.mp hdistinct _

/-- Two permits in a row are for the nonces 0 and 1. -/
theorem permits_consecutive_sample : ∃ c log, LoggedFrom sampleDeployment .sample (fun _ _ => True) sample
    (c, log) ∧ log.map Accepted.nonce = [0, 1] ∧ log.Nodup := by
  obtain ⟨c, log, hlog, hnonces⟩ := exists_logged (fun _ => True) samplePermits
    (fun x => x.2.map Accepted.nonce = [0, 1]) (by decide +kernel)
  have hlength : log.length = 2 := by
    rw [← List.length_map Accepted.nonce, hnonces]
    rfl
  have hshort : log.length ≤ 2 ^ 256 := by
    rw [hlength]
    decide
  exact ⟨c, log, hlog, hnonces, (permits_consecutive sample_reachable hlog).2.2 hshort⟩

/-! ## Spending -/

/-- What the permits of an owner allow in total. -/
def permitted (token : Token) (owner : Address) (log : List Accepted) : Nat :=
  ((permitsOf token owner log).map fun a => a.permit.amount).sum

theorem permitted_append (log log' : List Accepted) :
    permitted token owner (log ++ log') = permitted token owner log + permitted token owner log' := by
  rw [permitted, permitsOf_append, List.map_append, List.sum_append]
  rfl

/-- Tokens that leave are charged to allowances, which grow by what is permitted only. -/
def Charged (token : Token) (b : Address) (amount : Nat) (s s' : System) : Prop :=
  token.balances s b + ∑ x, token.allowances s' b x ≤
    token.balances s' b + ∑ x, token.allowances s b x + amount

theorem Charged.trans {amount amount' : Nat} {s s' s'' : System} (h : Charged token b amount s s')
    (h' : Charged token b amount' s' s'') : Charged token b (amount + amount') s s'' := by
  unfold Charged at h h' ⊢
  omega

theorem Charged.refl (s : System) : Charged token b 0 s s := by
  unfold Charged
  omega

/-- The clock is no matter. -/
theorem Charged.of_timestamp {amount timestamp : Nat} {s s' : System}
    (h : Charged token b amount { s with timestamp } s') : Charged token b amount s s' := by
  cases token with
  | LUSD => exact h
  | LQTY => exact h

theorem charged_of_holdingsLeft {amount : Nat} {s s' : System} (h : HoldingsLeft b s s') :
    Charged token b amount s s' := by
  have hspent : token.balances s b + ∑ x, token.allowances s' b x ≤
      token.balances s' b + ∑ x, token.allowances s b x := by
    cases token with
    | LUSD => exact h.LUSD.spent
    | LQTY => exact h.LQTY.spent
  unfold Charged
  omega

/-- A permit replaces an allowance by the permitted amount. -/
theorem approveInternal_charged {token' : Token} {spender : Address} {amount : Nat} {s s' : System}
    (h : approveInternal token' b spender amount s = .ok s') :
    Charged token b (if token' = token then amount else 0) s s' := by
  have hupdate : ∀ allow : Address → Address → Nat,
      ∑ x, Function.update allow b (Function.update (allow b) spender amount) b x ≤
        ∑ x, allow b x + amount := by
    intro allow
    have hsum := sum_update_add (fun n => n) (allow b) spender amount
    rw [Function.update_self]
    omega
  unfold Charged
  cases token' with
  | LUSD =>
    obtain ⟨t, ht, rfl⟩ := System.onLUSDToken_ok.mp h
    obtain rfl := LUSDToken.approve_ok ht
    cases token with
    | LUSD =>
      have hthis := hupdate s.lusdToken.allowances
      show s.lusdToken.balances b + _ ≤ s.lusdToken.balances b + _ + amount
      dsimp only [Token.allowances]
      omega
    | LQTY => exact Nat.le_add_right _ _
  | LQTY =>
    obtain ⟨t, ht, rfl⟩ := System.onLQTYToken_ok.mp h
    obtain rfl := LQTYToken.approveInternal_ok ht
    cases token with
    | LUSD => exact Nat.le_add_right _ _
    | LQTY =>
      have hthis := hupdate s.lqtyToken.allowances
      show s.lqtyToken.balances b + _ ≤ s.lqtyToken.balances b + _ + amount
      dsimp only [Token.allowances]
      omega

theorem Step.charged (hd : d.Wired) (hb : d.External b) (h : Step d around c t c')
    (hother : t.1.sender ≠ b) (hlockup : c.lockups b = none) :
    Charged token b (permitted token b (t.2.accepted c)) c.system c'.system := by
  by_cases hpayer : t.2.payer t.1 = b
  · -- a permit of `b` is the only call of others that `b` answers for
    obtain ⟨env, call⟩ := t
    cases call with
    | protocol call => exact absurd hpayer hother
    | side call =>
      obtain ⟨c₁, hbody, rfl⟩ := h.side
      cases call with
      | permit token' p signature chainId =>
        obtain ⟨-, system, happroved, rfl⟩ := permit_ok hbody
        have howner : p.owner = b := hpayer
        subst howner
        have hamount : permitted token p.owner (Call.accepted c (.side (.permit token' p signature chainId))) =
            if token' = token then p.amount else 0 := by
          unfold permitted
          by_cases htoken : token' = token
          · have hby : Accepted.By token p.owner ⟨token', p, c.nonces token' p.owner⟩ := ⟨htoken, rfl⟩
            rw [Call.accepted, permitsOf_singleton_of_by hby, if_pos htoken]
            exact List.sum_singleton
          · have hby : ¬ Accepted.By token p.owner ⟨token', p, c.nonces token' p.owner⟩ :=
              fun hby => htoken hby.1
            rw [Call.accepted, permitsOf_singleton_of_not_by hby, if_neg htoken]
            rfl
        rw [hamount]
        exact (approveInternal_charged happroved).of_timestamp
      | withdrawLQTY lockup =>
        have heq : lockup = b := hpayer
        subst heq
        obtain ⟨l, -, hl, -⟩ := withdrawLQTY_ok hbody
        rw [hlockup] at hl
        cases hl
      | _ => exact absurd hpayer hother
  · obtain ⟨writable, heffects⟩ := h.effects hd
    have hleft := Effects.holdingsLeft hb hpayer heffects
    exact (charged_of_holdingsLeft hleft).of_timestamp

/-- However others and their permits are ordered, LUSD and LQTY leave an account that sends nothing under
the allowances that it gave before or under permits that it signed, each of them counted once. -/
theorem tokens_leave_by_permission (hd : d.Wired) (hb : d.External b) {log : List Accepted}
    (h : LoggedFrom d around (fun _ t => t.1.sender ≠ b) c (c', log)) (hlockup : c'.lockups b = none) :
    Charged token b (permitted token b log) c.system c'.system ∧
      ∀ a ∈ permitsOf token b log, a.Signed d around ∧ a.permit.owner = b := by
  refine ⟨?_, fun a ha => ?_⟩
  · generalize hx : (c', log) = x at h
    have hlast : x.1.lockups b = none := by
      rw [← hx]
      exact hlockup
    have hcharged : Charged token b (permitted token b x.2) c.system x.1.system := by
      clear hx hlockup
      induction h with
      | init heq =>
        subst heq
        exact .refl _
      | step _ hother hstep ih =>
        have hbefore := hstep.1.lockups_none hlast
        rw [hstep.2, permitted_append]
        exact (ih hbefore).trans (hstep.1.charged hd hb hother hbefore)
    rw [← hx] at hcharged
    exact hcharged
  · obtain ⟨hmem, hby⟩ := List.mem_filter.mp ha
    exact ⟨h.signed a hmem, (of_decide_eq_true hby).2⟩

/-- The owner of the sample permits never sends anything. -/
theorem tokens_leave_by_permission_sample : ∃ c log,
    LoggedFrom sampleDeployment .sample (fun _ t => t.1.sender ≠ sampleOwner) sample (c, log) ∧
      permitted .LUSD sampleOwner log = 1200 * 10 ^ 18 ∧
      Charged .LUSD sampleOwner (permitted .LUSD sampleOwner log) sample.system c.system := by
  obtain ⟨c, log, hlog, hamount, hlockup⟩ := exists_logged (fun t => t.1.sender ≠ sampleOwner) samplePermits
    (fun x => permitted .LUSD sampleOwner x.2 = 1200 * 10 ^ 18 ∧ x.1.lockups sampleOwner = none)
    (by decide +kernel)
  exact ⟨c, log, hlog, hamount,
    (tokens_leave_by_permission sampleDeployment_wired (by decide) hlog hlockup).1⟩

end Chain

end Liquity
