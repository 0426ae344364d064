import Liquity.Liveness
import Liquity.Properties.FrontEnds
import Liquity.Properties.Issuance
import Liquity.Properties.LQTYGains
import Liquity.Properties.Views

/-!
# Depositors can always withdraw

Nothing but a number that does not fit its width stops a withdrawal from the Stability Pool: the LQTY
issuance is on time, all gains are covered by what the contracts hold, and so are the deposit and the
stake of the front end.
-/

open Lib

namespace Liquity

open SafeMath

variable {d : Deployment} {s s' : System} {sender b : Address} {writable : Address → Prop}
  {timestamp amount : Nat}

/-! ## The issuance is on time -/

namespace CommunityIssuance

/-- An issuance brings the total to what is due at its time. -/
theorem issueLQTY_issuedAt {c : CommunityIssuance} {caller : Address} {issued : Nat × CommunityIssuance}
    (h : c.issueLQTY d caller timestamp = .ok issued) :
    issued.2.totalLQTYIssued = issuedAt d timestamp := by
  have hstarted : d.deploymentTime ≤ timestamp := by
    simp only [issueLQTY, getCumulativeIssuanceFraction, bind_ok, sub_ok] at h
    obtain ⟨-, -, _, ⟨_, ⟨hle, -⟩, -⟩, -⟩ := h
    exact hle
  simp only [issueLQTY, bind_ok, mul_ok, div_ok, pure_ok, getCumulativeIssuanceFraction_eq hstarted] at h
  obtain ⟨-, -, fraction, hfraction, _, ⟨-, rfl⟩, _, ⟨-, rfl⟩, _, -, rfl⟩ := h
  cases hfraction
  rfl

theorem issueLQTY_succeeds {c : CommunityIssuance} (hstarted : d.deploymentTime ≤ timestamp)
    (hle : c.totalLQTYIssued ≤ issuedAt d timestamp) :
    ∃ issued, c.issueLQTY d d.stabilityPool timestamp = .ok issued := by
  have hfits : LQTYSupplyCap * (DECIMAL_PRECISION -
      LiquityMath.power ISSUANCE_FACTOR ((timestamp - d.deploymentTime) / SECONDS_IN_ONE_MINUTE)) <
        2 ^ 256 :=
    (Nat.mul_le_mul_left _ (Nat.sub_le _ _)).trans_lt (by decide)
  simp only [issueLQTY, requireCallerIsStabilityPool, bind_ok, require_ok, mul_ok, div_ok, sub_ok, pure_ok]
  exact ⟨_, (), trivial, _, getCumulativeIssuanceFraction_eq hstarted, _, ⟨hfits, rfl⟩, _,
    ⟨by decide, rfl⟩, _, ⟨hle, rfl⟩, rfl⟩

end CommunityIssuance

open CommunityIssuance (issuedAt LQTYSupplyCap)

theorem Effects.issued_le (h : Effects d sender writable s s')
    (hs : s.communityIssuance.totalLQTYIssued ≤ issuedAt d s.timestamp) :
    s'.communityIssuance.totalLQTYIssued ≤ issuedAt d s'.timestamp := by
  induction h with
  | refl => exact hs
  | tail _ hlast ih =>
    cases hlast with
    | stabilityPool _ _ _ issued =>
      rcases issued with heq | ⟨amount, hissued⟩
      · rw [heq]
        exact ih
      · exact (CommunityIssuance.issueLQTY_issuedAt hissued).le
    | _ => exact ih

/-- No more was issued than is due. -/
theorem reachable_issued_le (hd : d.Wired) (h : Reachable d s) :
    s.communityIssuance.totalLQTYIssued ≤ issuedAt d s.timestamp := by
  refine Lib.Reachable.invariant
    (fun s => s.communityIssuance.totalLQTYIssued ≤ issuedAt d s.timestamp) ?_ ?_ h
  · rintro _ ⟨ether, timestamp, -, rfl⟩
    exact Nat.zero_le _
  · intro s t s' _ hs _ hstep
    exact (hstep.effects hd).issued_le (hs.trans (CommunityIssuance.issuedAt_mono hstep.1.time))

/-! ## Front ends -/

theorem Effects.depositsLeft (h : Effects d sender writable s s') :
    DepositsLeft sender s.stabilityPool s'.stabilityPool := by
  induction h with
  | refl => exact fun _ _ => ⟨rfl, rfl, rfl⟩
  | tail _ hlast ih =>
    refine ih.trans ?_
    cases hlast with
    | stabilityPool _ left => exact left
    | _ => exact fun _ _ => ⟨rfl, rfl, rfl⟩

/-- Front ends are accounts outside the protocol. -/
theorem reachable_frontEnds_external (hd : d.Wired) (h : Reachable d s) {f : Address}
    (hf : (s.stabilityPool.frontEnds f).registered = true) : d.External f := by
  refine Lib.Reachable.invariant
    (fun s => (s.stabilityPool.frontEnds f).registered = true → d.External f) ?_ ?_ h hf
  · rintro _ ⟨ether, timestamp, -, rfl⟩ hregistered
    cases hregistered
  · intro s t s' _ hs _ hstep hregistered
    by_cases hsender : f = t.env.sender
    · rw [hsender]
      exact hstep.1.external
    · have hsame := ((hstep.effects hd).depositsLeft f hsender).2.2
      rw [hsame] at hregistered
      exact hs hregistered

/-! ## What is left of the allocation -/

/-- What the community issuance has not sent it still holds. -/
theorem sendingRun_balance {cond : System → Transaction → Prop} {sent : Nat}
    (h : SendingRun d cond s sent) :
    LQTYSupplyCap ≤ s.lqtyToken.balances d.communityIssuance + sent := by
  induction h with
  | init h =>
    obtain ⟨ether, timestamp, -, rfl⟩ := h
    -- the allocations of others do not count
    have hissuance : LQTYSupplyCap ≤ Ledger.credit (Ledger.credit (fun _ => 0) d.bounty (10 ^ 24 * 2))
        d.communityIssuance (10 ^ 24 * 32) d.communityIssuance := by
      rw [Ledger.credit, Function.update_self]
      exact Nat.le_add_left _ _
    exact ((hissuance.trans (Ledger.le_credit _ d.lpRewards _ _)).trans
      (Ledger.le_credit _ d.multisig _ _)).trans (Nat.le_add_right _ _)
  | step _ _ _ ih =>
    unfold System.LQTYSent
    omega

/-- A run with a condition, with all LQTY that was sent in it. -/
theorem exists_sendingRun {cond : System → Transaction → Prop} (h : ReachableWhen d cond s) :
    ∃ sent, SendingRun d cond s sent := by
  induction h with
  | init h => exact ⟨0, .init h⟩
  | step _ hcond hstep ih =>
    obtain ⟨sent, hsent⟩ := ih
    exact ⟨_, .step hsent hstep hcond⟩

/-! ## Paying out LQTY -/

namespace StabilityPool

/-- What the community issuance holds covers all gains. -/
structure LQTYPayable (d : Deployment) (s : System) : Prop where
  restricted : s.lqtyToken.Restricted d
  external : ∀ f, (s.stabilityPool.frontEnds f).registered = true → d.External f
  tag : ∀ i, (s.stabilityPool.deposits i).initialValue ≠ 0 →
    (s.stabilityPool.deposits i).frontEndTag = 0 ∨
      (s.stabilityPool.frontEnds (s.stabilityPool.deposits i).frontEndTag).registered = true
  gains_le : ∑ i, okOr (s.stabilityPool.getDepositorLQTYGain i) 0 +
    ∑ f, s.stabilityPool.registeredLQTYGain f ≤ s.lqtyToken.balances d.communityIssuance

theorem sendLQTY_succeeds (hd : d.Wired) (hmultisig : d.multisig ≠ d.communityIssuance)
    {account : Address} (haccount : d.External account)
    (hle : amount ≤ s.lqtyToken.balances d.communityIssuance)
    (hsum : ∑ a, s.lqtyToken.balances a < 2 ^ 256) :
    ∃ s', CommunityIssuance.sendLQTY d d.stabilityPool account amount timestamp s = .ok s' := by
  have hissuance : d.communityIssuance ≠ 0 :=
    fun hzero => hd.zero_notMem (by simp [Deployment.contracts, hzero])
  have htoken : account ≠ d.lqtyToken := haccount.ne 10
  have hself : account ≠ d.communityIssuance := haccount.ne 12
  obtain ⟨t, ht⟩ := LQTYToken.transferInternal_of_le hissuance haccount.1 hle hsum
  simp only [CommunityIssuance.sendLQTY, CommunityIssuance.requireCallerIsStabilityPool, LQTYToken.transfer,
    LQTYToken.requireMultisigRecipient, LQTYToken.requireValidRecipient, if_neg hmultisig.symm,
    bind_ok, require_ok, System.onLQTYToken_ok]
  exact ⟨_, (), trivial, t, ⟨(), trivial, (), ⟨(), ⟨haccount.1, htoken⟩, hself, haccount.ne_lqtyStaking⟩, ht⟩,
    rfl⟩

theorem registeredLQTYGain_le (p : StabilityPool) (f : Address) :
    p.registeredLQTYGain f ≤ ∑ f, p.registeredLQTYGain f :=
  le_sum (fun f => p.registeredLQTYGain f) f

/-- The depositor and the front end are paid what they have earned. -/
theorem payOutLQTYGains_onlyOverflows (hd : d.Wired) (hmultisig : d.multisig ≠ d.communityIssuance)
    (hs : LQTYPayable d s) (hreadable : s.stabilityPool.Readable) (hb : d.External b)
    (hdeposit : (s.stabilityPool.deposits b).initialValue ≠ 0) :
    OnlyOverflows (payOutLQTYGains d timestamp b (s.stabilityPool.deposits b).frontEndTag s) := by
  have htag := hs.tag b hdeposit
  generalize (s.stabilityPool.deposits b).frontEndTag = f at htag ⊢
  have hgains := hs.gains_le
  have hone := le_sum (fun i => okOr (s.stabilityPool.getDepositorLQTYGain i) 0) b
  have htwo := s.stabilityPool.registeredLQTYGain_le f
  -- the front end takes its gain first
  have hfrontEnd : OnlyOverflows (payOutFrontEndLQTYGain d timestamp f s) := by
    unfold payOutFrontEndLQTYGain
    split
    next hne =>
      have hregistered := htag.resolve_left hne
      refine (hreadable.getFrontEndLQTYGain_avoids overflow_not_bad f).bind fun gain hgain => ?_
      refine avoids_of_ok (sendLQTY_succeeds hd hmultisig (hs.external f hregistered) ?_
        hs.restricted.sum_lt)
      rw [registeredLQTYGain, if_pos hregistered, hgain, okOr_ok] at htwo
      omega
    next => exact avoids_ok s
  refine hfrontEnd.bind fun s₁ h₁ => ?_
  obtain ⟨balances, rfl, hsum, hleft⟩ : ∃ balances,
      s₁ = { s with lqtyToken := { s.lqtyToken with balances } } ∧
      ∑ a, balances a = ∑ a, s.lqtyToken.balances a ∧
      s.lqtyToken.balances d.communityIssuance ≤
        balances d.communityIssuance + s.stabilityPool.registeredLQTYGain f := by
    unfold payOutFrontEndLQTYGain at h₁
    split at h₁
    next hne =>
      obtain ⟨gain, hgain, h₁⟩ := bind_ok.mp h₁
      obtain ⟨haccount, hle, rfl⟩ := sendLQTY_moves h₁
      refine ⟨_, rfl, sum_move hle, ?_⟩
      rw [registeredLQTYGain, if_pos (htag.resolve_left hne), hgain, okOr_ok, move_source haccount.symm]
      omega
    next =>
      cases h₁
      exact ⟨_, rfl, rfl, Nat.le_add_right _ _⟩
  refine (hreadable.getDepositorLQTYGain_avoids overflow_not_bad b).bind fun gain hgain => ?_
  refine avoids_of_ok (sendLQTY_succeeds hd hmultisig hb ?_ ?_)
  · dsimp only at hgain hone ⊢
    rw [hgain, okOr_ok] at hone
    omega
  · rw [hsum]
    exact hs.restricted.sum_lt

/-! ## The withdrawal -/

/-- What a withdrawal needs of the system: every stake covers its deposits, and the contracts hold the
deposits, the ether gains and the LQTY gains. -/
structure Withdrawable (d : Deployment) (s : System) : Prop where
  stakes : s.stabilityPool.StakesCover
  pool : s.stabilityPool.pool.Covered SCALE_FACTOR DECIMAL_PRECISION
  payable : LQTYPayable d s
  ether : s.stabilityPool.ETH ≤ s.ether d.stabilityPool
  deposits : s.stabilityPool.totalLUSDDeposits ≤ s.lusdToken.balances d.stabilityPool
  supply : ∑ a, s.lusdToken.balances a < 2 ^ 256

theorem updateG_onlyOverflows (issuance : Nat) (p : StabilityPool) :
    OnlyOverflows (p.updateG issuance) := by
  unfold updateG
  split
  next => exact avoids_ok p
  next hsome =>
    have htotal : 0 < p.totalLUSDDeposits := by omega
    unfold computeLQTYPerUnitStaked
    refine Avoids.bind ?_ fun r _ => ?_
    · refine (onlyOverflows_mul _ _).bind fun scaled _ => ?_
      refine (onlyOverflows_add _ _).bind fun numerator _ => ?_
      refine (avoids_checkedDiv htotal).bind fun perUnit hperUnit => ?_
      obtain ⟨-, rfl⟩ := div_ok.mp hperUnit
      refine (onlyOverflows_mul _ _).bind fun distributed hdistributed => ?_
      obtain ⟨-, rfl⟩ := mul_ok.mp hdistributed
      exact (avoids_checkedSub (Nat.div_mul_le_self _ _)).bind fun _ _ => avoids_ok _
    · refine (onlyOverflows_mul _ _).bind fun marginal _ => ?_
      exact (onlyOverflows_add _ _).bind fun _ _ => avoids_ok _

theorem triggerLQTYIssuance_onlyOverflows (hstarted : d.deploymentTime ≤ timestamp)
    (hle : s.communityIssuance.totalLQTYIssued ≤ issuedAt d timestamp) :
    OnlyOverflows (triggerLQTYIssuance d timestamp s) := by
  unfold triggerLQTYIssuance
  refine (avoids_of_ok (CommunityIssuance.issueLQTY_succeeds hstarted hle)).bind fun issued _ => ?_
  exact (updateG_onlyOverflows issued.1 _).bind fun _ _ => avoids_ok _

theorem readDeposit_onlyOverflows {p : StabilityPool} (hp : p.Readable) (i : Address) :
    OnlyOverflows (p.readDeposit i (p.deposits i).initialValue) := by
  unfold readDeposit
  refine (hp.getDepositorETHGain_avoids overflow_not_bad i).bind fun gain _ => ?_
  refine (hp.getCompoundedLUSDDeposit_avoids overflow_not_bad i).bind fun compounded hcompounded => ?_
  have hle : compounded ≤ (p.deposits i).initialValue := by
    simp only [getCompoundedLUSDDeposit] at hcompounded
    split at hcompounded
    · cases hcompounded
      exact Nat.zero_le _
    next hi => exact compoundedStake_le (hp.deposit i hi) hcompounded
  exact (avoids_checkedSub hle).bind fun _ _ => avoids_ok _

theorem sendETHGainToDepositor_succeeds (hb : d.External b) (hle : amount ≤ s.stabilityPool.ETH)
    (hether : amount ≤ s.ether d.stabilityPool) :
    ∃ s', sendETHGainToDepositor d b amount s = .ok s' := by
  unfold sendETHGainToDepositor
  split
  · exact ⟨s, rfl⟩
  · simp only [bind_ok, sub_ok, orRevert_ok]
    exact ⟨_, _, ⟨hle, rfl⟩, System.callValue_external_of_le hb hether⟩

theorem updateFrontEndStakeAndSnapshots_total (p : StabilityPool) (f : Address) (value : Nat) :
    (p.updateFrontEndStakeAndSnapshots f value).totalLUSDDeposits = p.totalLUSDDeposits := by
  unfold updateFrontEndStakeAndSnapshots
  split
  all_goals rfl

theorem le_sumCompounded {p : StabilityPool} {i : Address} {compounded : Nat}
    (h : p.getCompoundedLUSDDeposit i = .ok compounded) :
    compounded ≤ p.sumCompounded (p.deposits i).frontEndTag := by
  have hone := le_sum (fun j => if p.tagOf j = (p.deposits i).frontEndTag then
    okOr (p.getCompoundedLUSDDeposit j) 0 else 0) i
  have htag : p.tagOf i = (p.deposits i).frontEndTag := rfl
  simp only [htag, if_true, h, okOr_ok] at hone
  exact hone

/-- Where the system is in order once the LQTY is issued, nothing but an overflow stops a depositor. -/
theorem withdrawFromSP_onlyOverflows (hd : d.Wired) (hmultisig : d.multisig ≠ d.communityIssuance)
    {env : Env} (hb : d.External env.sender)
    (hissuance : OnlyOverflows (triggerLQTYIssuance d env.timestamp s))
    (hs : ∀ s₁, triggerLQTYIssuance d env.timestamp s = .ok s₁ → Withdrawable d s₁)
    (hdeposit : (s.stabilityPool.deposits env.sender).initialValue ≠ 0)
    (hallowed : requireWithdrawalAllowed env.price amount s = .ok ()) :
    OnlyOverflows (withdrawFromSP d env amount s) := by
  unfold withdrawFromSP
  refine (avoids_of_ok ⟨(), hallowed⟩).bind fun _ _ => ?_
  refine (avoids_of_ok ⟨(), require_ok.mpr (Nat.pos_of_ne_zero hdeposit)⟩).bind fun _ _ => ?_
  refine hissuance.bind fun s₁ h₁ => ?_
  have hs := hs s₁ h₁
  have hreadable := hs.stakes.readable
  have hsame : s.stabilityPool.deposits = s₁.stabilityPool.deposits := by
    simp only [triggerLQTYIssuance, bind_ok, System.onStabilityPool_ok] at h₁
    obtain ⟨issued, -, p, hp, rfl⟩ := h₁
    obtain ⟨error, G, rfl⟩ := (updateG_ok hp).1
    rfl
  rw [hsame] at hdeposit ⊢
  refine (readDeposit_onlyOverflows hreadable env.sender).bind fun reading hreading => ?_
  obtain ⟨hcompounded, hgain⟩ : s₁.stabilityPool.getCompoundedLUSDDeposit env.sender =
      .ok reading.compoundedLUSDDeposit ∧ s₁.stabilityPool.getDepositorETHGain env.sender =
      .ok reading.depositorETHGain := by
    rw [← setFrontEndTag_self s₁.stabilityPool env.sender] at hreading
    exact readDeposit_setFrontEndTag hreading
  dsimp only
  rw [LiquityMath.min_eq]
  generalize hwithdrawn : Min.min amount reading.compoundedLUSDDeposit = withdrawn
  have hwithdrawn_le : withdrawn ≤ reading.compoundedLUSDDeposit := by omega
  refine (payOutLQTYGains_onlyOverflows hd hmultisig hs.payable hreadable hb hdeposit).bind
    fun s₂ h₂ => ?_
  obtain ⟨token, rfl⟩ := payOutLQTYGains_ok h₂
  refine (hreadable.getCompoundedFrontEndStake_avoids overflow_not_bad _).bind fun stake hstake => ?_
  -- the deposit is one of those that the stake covers
  have hstake_le : reading.compoundedLUSDDeposit ≤ stake :=
    (le_sumCompounded hcompounded).trans (hs.stakes.sumCompounded_le hstake)
  refine (avoids_checkedSub (hwithdrawn_le.trans hstake_le)).bind fun newStake _ => ?_
  -- and the pool's total covers all deposits
  have htotal : reading.compoundedLUSDDeposit ≤ s₁.stabilityPool.totalLUSDDeposits := by
    have hone := le_sum (fun i => okOr (s₁.stabilityPool.getCompoundedLUSDDeposit i) 0) env.sender
    rw [hcompounded, okOr_ok] at hone
    exact hone.trans (sum_compounded_le hs.pool)
  generalize hp : s₁.stabilityPool.updateFrontEndStakeAndSnapshots _ newStake = p
  have hp_total : p.totalLUSDDeposits = s₁.stabilityPool.totalLUSDDeposits := by
    rw [← hp, updateFrontEndStakeAndSnapshots_total]
  have hp_ETH : p.ETH = s₁.stabilityPool.ETH := by
    rw [← hp, (@updateFrontEndStakeAndSnapshots_left 0 _ _ _).2]
  refine (avoids_of_ok (sendLUSDToDepositor_succeeds hd hb ?_ ?_ ?_)).bind fun s₃ h₃ => ?_
  · show withdrawn ≤ p.totalLUSDDeposits
    omega
  · show p.totalLUSDDeposits ≤ s₁.lusdToken.balances d.stabilityPool
    rw [hp_total]
    exact hs.deposits
  · exact hs.supply
  obtain ⟨-, -, rfl⟩ := sendLUSDToDepositor_ok h₃
  refine (avoids_checkedSub hwithdrawn_le).bind fun newDeposit _ => ?_
  have hgain_le : reading.depositorETHGain ≤ s₁.stabilityPool.ETH := by
    have hone := le_sum (fun i => okOr (s₁.stabilityPool.getDepositorETHGain i) 0) env.sender
    rw [hgain, okOr_ok] at hone
    exact hone.trans (sum_ETHGain_le hs.pool)
  refine avoids_of_ok (sendETHGainToDepositor_succeeds hb ?_ (hgain_le.trans hs.ether))
  dsimp only
  rw [(@updateDepositAndSnapshots_left env.sender _ _).2]
  show reading.depositorETHGain ≤ p.ETH
  omega

/-- The condition on runs: no offset charges the deposits too little, and no stake is rounded further
down than its deposits. -/
def DepositsFollow (d : Deployment) (s : System) (t : Transaction) : Prop :=
  OffsetsCovered d s t ∧ StakesFollow d s t

theorem reachable_withdrawable (hd : d.Wired) (h : ReachableWhen d (DepositsFollow d) s)
    (h₁ : triggerLQTYIssuance d timestamp { s with timestamp } = .ok s') : Withdrawable d s' := by
  have hreachable := h.reachable
  have hoffsets : ReachableWhen d (OffsetsCovered d) s := Lib.Reachable.mono (fun _ _ hc => hc.1) h
  have hstakes : ReachableWhen d (StakesFollow d) s := Lib.Reachable.mono (fun _ _ hc => hc.2) h
  have hreserved := hreachable.reserved hd
  obtain ⟨sent, hrun⟩ := exists_sendingRun hoffsets
  have hcovers : IssuanceCovers sent { s with timestamp } := (sendingRun_issuanceCovers hd hrun).congr rfl rfl
  obtain ⟨⟨reserve, hsent_le, hgains⟩, -, -⟩ := triggerLQTYIssuance_covers hcovers h₁
  simp only [triggerLQTYIssuance, bind_ok, System.onStabilityPool_ok] at h₁
  obtain ⟨issued, hissued, p, hp, rfl⟩ := h₁
  obtain ⟨error, G, hpool⟩ := (updateG_ok hp).1
  dsimp only at hsent_le hgains
  constructor
  · exact (reachable_stakesCover hd hstakes).issued hp
  · show p.pool.Covered _ _
    rw [(updateG_ok hp).1.pool_eq]
    exact reachable_covered hd hoffsets
  · refine ⟨hreserved.restricted, fun f hf => ?_, hgains.tag, ?_⟩
    · rw [hpool] at hf
      exact reachable_frontEnds_external hd hreachable hf
    · -- what is not sent yet is still there
      have hcap : issued.2.totalLQTYIssued ≤ LQTYSupplyCap := by
        rw [CommunityIssuance.issueLQTY_issuedAt hissued]
        exact CommunityIssuance.issuedAt_le d timestamp
      have hbalance := sendingRun_balance hrun
      have hsum := hgains.sum_le
      dsimp only
      omega
  · show p.ETH ≤ s.ether d.stabilityPool
    rw [hpool]
    exact (reachable_poolsBacked hd hreachable).stability
  · show p.totalLUSDDeposits ≤ s.lusdToken.balances d.stabilityPool
    rw [hpool]
    exact hreserved.sound.books.deposits
  · exact hreserved.sound.books.sum_balances.trans_lt hreserved.sound.books.supply_lt

/-- In every state of such a run a depositor can withdraw any amount: where no trove is
undercollateralised, or only gains are collected, the transaction fails at most because a number does
not fit its width. -/
theorem depositors_can_withdraw (hd : d.Wired) (hmultisig : d.multisig ≠ d.communityIssuance)
    (h : ReachableWhen d (DepositsFollow d) s) {env : Env} {amount : Nat}
    (hvalid : Transaction.Valid d ⟨env, .withdrawFromSP amount⟩ s) (hvalue : env.value = 0)
    (hstarted : d.deploymentTime ≤ env.timestamp)
    (hdeposit : (s.stabilityPool.deposits env.sender).initialValue ≠ 0)
    (hallowed : amount ≠ 0 → requireNoUnderCollateralizedTroves env.price s = .ok ()) :
    OnlyOverflows (Call.execute d env (.withdrawFromSP amount) s) := by
  have hissued : s.communityIssuance.totalLQTYIssued ≤ issuedAt d env.timestamp :=
    (reachable_issued_le hd h.reachable).trans (CommunityIssuance.issuedAt_mono hvalid.time)
  unfold Call.execute Call.receiveValue
  rw [if_pos hvalue, ok_bind]
  refine withdrawFromSP_onlyOverflows hd hmultisig hvalid.external
    (triggerLQTYIssuance_onlyOverflows hstarted hissued) (fun s₁ h₁ => reachable_withdrawable hd h h₁)
    hdeposit ?_
  unfold requireWithdrawalAllowed
  split
  next hamount => exact hallowed hamount
  next => rfl

/-- One of two depositors who share a stake, after a liquidation. -/
theorem depositors_can_withdraw_sample : ∃ s,
    ReachableWhen sampleDeployment (DepositsFollow sampleDeployment) s ∧
    s.stabilityPool.P ≠ DECIMAL_PRECISION ∧ OnlyOverflows (Call.execute sampleDeployment
      ⟨104, 0, 60, 2000 * 10 ^ 18⟩ (.withdrawFromSP (500 * 10 ^ 18)) s) := by
  obtain ⟨s, hs, hP, hdeposit, hvalid, hallowed⟩ := exists_reachable
    (fun s t => OffsetsCovered sampleDeployment s t ∧ SampleFollow s t) sampleSharedStake
    (fun s => s.stabilityPool.P ≠ DECIMAL_PRECISION ∧ (s.stabilityPool.deposits 104).initialValue ≠ 0 ∧
      Transaction.Valid sampleDeployment ⟨⟨104, 0, 60, 2000 * 10 ^ 18⟩, .withdrawFromSP (500 * 10 ^ 18)⟩ s ∧
      requireNoUnderCollateralizedTroves (2000 * 10 ^ 18) s = .ok ()) (by decide +kernel)
  have hfollow : ReachableWhen sampleDeployment (DepositsFollow sampleDeployment) s :=
    Lib.Reachable.mono_of_reachable (fun s t hr hcond => ⟨hcond.1, SampleFollow.stakesFollow
      (reachable_stakesInRange sampleDeployment_wired (ReachableWhen.reachable hr)) hcond.2⟩) hs
  exact ⟨s, hfollow, hP, depositors_can_withdraw sampleDeployment_wired (by decide) hfollow hvalid rfl
    (by decide) hdeposit fun _ => hallowed⟩

end StabilityPool

end Liquity
