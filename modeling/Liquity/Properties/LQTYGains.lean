import Mathlib.Algebra.BigOperators.Fin
import Liquity.Properties.StabilityPool
import Liquity.Reserves.Steps
import Liquity.StabilityPool.LQTYGains
import Liquity.Traces

/-!
# LQTY is not paid out twice

What the community issuance has sent and what depositors and front ends can still claim is within
what it has issued, as long as every offset charges the deposits at least the debt it absorbs.
-/

open Lib

namespace Liquity

open SafeMath TroveManager

variable {d : Deployment} {s s' : System} {sent : Nat}

/-- The LQTY that leaves the community issuance, which only `sendLQTY` takes from it. -/
def System.LQTYSent (d : Deployment) (s s' : System) : Nat :=
  s.lqtyToken.balances d.communityIssuance - s'.lqtyToken.balances d.communityIssuance

/-- A run, with all LQTY that was sent in it. -/
abbrev SendingRun (d : Deployment) (cond : System → Transaction → Prop) : System → Nat → Prop :=
  TracedRun d (fun s t _ => cond s t) 0 fun s _ s' sent => sent + s.LQTYSent d s'

/-- What was sent and what is left for the gains come out of what was issued. -/
def IssuanceCovers (sent : Nat) (s : System) : Prop :=
  ∃ reserve, sent + reserve ≤ s.communityIssuance.totalLQTYIssued ∧
    s.stabilityPool.GainsCovered reserve

theorem LQTYSent_congr {s₁ : System} (h : s₁.lqtyToken = s.lqtyToken) :
    s₁.LQTYSent d s' = s.LQTYSent d s' := by
  unfold System.LQTYSent
  rw [h]

namespace StabilityPool

/-! ## Issuing and paying -/

theorem issueLQTY_ok {caller : Address} {timestamp : Nat} {c : CommunityIssuance}
    {issued : Nat × CommunityIssuance} (h : c.issueLQTY d caller timestamp = .ok issued) :
    c.totalLQTYIssued + issued.1 = issued.2.totalLQTYIssued := by
  simp only [CommunityIssuance.issueLQTY, bind_ok, sub_ok, pure_ok] at h
  obtain ⟨-, -, _, -, _, -, latest, -, _, ⟨hle, rfl⟩, rfl⟩ := h
  exact Nat.add_sub_cancel' hle

theorem triggerLQTYIssuance_covers {timestamp : Nat} (hs : IssuanceCovers sent s)
    (h : triggerLQTYIssuance d timestamp s = .ok s') :
    IssuanceCovers sent s' ∧ s'.lqtyToken = s.lqtyToken ∧
      s.stabilityPool.Issued s'.stabilityPool := by
  simp only [triggerLQTYIssuance, bind_ok, System.onStabilityPool_ok] at h
  obtain ⟨issued, hissued, p, hp, rfl⟩ := h
  obtain ⟨reserve, hle, hcovered⟩ := hs
  have htotal := issueLQTY_ok hissued
  refine ⟨⟨reserve + issued.1, ?_, hcovered.issued hp⟩, rfl, (updateG_ok hp).1⟩
  dsimp only
  omega

/-- Both gains are read before anything is sent, because sending does not touch the pool. -/
theorem payOutLQTYGains_sends {timestamp : Nat} {depositor frontEnd : Address}
    (h : payOutLQTYGains d timestamp depositor frontEnd s = .ok s') :
    ∃ frontEndGain gain lqtyToken, s.stabilityPool.FrontEndPaid frontEnd frontEndGain ∧
      s.stabilityPool.getDepositorLQTYGain depositor = .ok gain ∧ s' = { s with lqtyToken } ∧
      lqtyToken.balances d.communityIssuance + frontEndGain + gain =
        s.lqtyToken.balances d.communityIssuance := by
  simp only [payOutLQTYGains, bind_ok] at h
  obtain ⟨s₁, h₁, gain, hgain, h⟩ := h
  have hfrontEnd : ∃ frontEndGain lqtyToken, s.stabilityPool.FrontEndPaid frontEnd frontEndGain ∧
      s₁ = { s with lqtyToken } ∧ lqtyToken.balances d.communityIssuance + frontEndGain =
        s.lqtyToken.balances d.communityIssuance := by
    unfold payOutFrontEndLQTYGain at h₁
    split at h₁
    next hne =>
      obtain ⟨frontEndGain, hread, h₁⟩ := bind_ok.mp h₁
      obtain ⟨haccount, hle, rfl⟩ := sendLQTY_moves h₁
      refine ⟨frontEndGain, _, .inr ⟨hne, hread⟩, rfl, ?_⟩
      dsimp only
      rw [move_source haccount.symm]
      omega
    next hzero =>
      cases h₁
      exact ⟨0, _, .inl ⟨not_not.mp hzero, rfl⟩, rfl, Nat.add_zero _⟩
  obtain ⟨frontEndGain, token, hpaid, rfl, hbalance⟩ := hfrontEnd
  obtain ⟨haccount, hle, rfl⟩ := sendLQTY_moves h
  refine ⟨frontEndGain, gain, _, hpaid, hgain, rfl, ?_⟩
  dsimp only at hle ⊢
  rw [move_source haccount.symm]
  omega

/-! ## Depositor operations -/

/-- A gain is read before the tag of a new deposit is written or after it. -/
theorem tagNewDeposit_getDepositorLQTYGain (p : StabilityPool) (b tag : Address) :
    (p.tagNewDeposit b tag).getDepositorLQTYGain b = p.getDepositorLQTYGain b := by
  unfold tagNewDeposit
  split
  next hzero =>
    have hzero' : ((p.setFrontEndTag b tag).deposits b).initialValue = 0 := by
      simp [setFrontEndTag, hzero]
    simp only [getDepositorLQTYGain, hzero, hzero', if_true]
  next => rfl

theorem tagNewDeposit_tag {reserve : Nat} {p : StabilityPool} {b tag : Address}
    (hp : p.GainsCovered reserve) (htag : (p.frontEnds tag).registered = true ∨ tag = 0) :
    ((p.tagNewDeposit b tag).deposits b).frontEndTag = 0 ∨
      (p.frontEnds ((p.tagNewDeposit b tag).deposits b).frontEndTag).registered = true := by
  unfold tagNewDeposit
  split
  next =>
    have heq : ((p.setFrontEndTag b tag).deposits b).frontEndTag = tag := by simp [setFrontEndTag]
    rw [heq]
    exact htag.symm
  next hne => exact hp.tag b hne

section Redeposit

variable {i f : Address} {value stake compounded compoundedStake total paid frontEndGain gain : Nat}

/-- Both gains leave the reserve when a deposit is rewritten. -/
theorem redeposited_covers (hs : IssuanceCovers sent s)
    (hf : f = 0 ∨ (s.stabilityPool.frontEnds f).registered = true)
    (htag : (s.stabilityPool.deposits i).initialValue ≠ 0 →
      (s.stabilityPool.deposits i).frontEndTag = f)
    (hcompounded : s.stabilityPool.getCompoundedLUSDDeposit i = .ok compounded)
    (hstake : s.stabilityPool.getCompoundedFrontEndStake f = .ok compoundedStake)
    (hfrontEnd : s.stabilityPool.FrontEndPaid f frontEndGain)
    (hgain : s.stabilityPool.getDepositorLQTYGain i = .ok gain)
    (hstakeeq : stake + compounded = compoundedStake + value)
    (htotal : total + compounded = s.stabilityPool.totalLUSDDeposits + value)
    (hbalance : s.lqtyToken.balances d.communityIssuance ≤
      s'.lqtyToken.balances d.communityIssuance + frontEndGain + gain)
    (hissuance : s'.communityIssuance = s.communityIssuance)
    (heq : s'.stabilityPool = s.stabilityPool.redeposited i f value stake total paid) :
    IssuanceCovers (sent + s.LQTYSent d s') s' := by
  obtain ⟨reserve, hle, hcovered⟩ := hs
  obtain ⟨hpaid, hcovered'⟩ := hcovered.redeposited paid hf htag hcompounded hstake hfrontEnd hgain
    hstakeeq htotal
  refine ⟨_, ?_, heq ▸ hcovered'⟩
  rw [hissuance]
  unfold System.LQTYSent
  omega

end Redeposit

variable {env : Env}

theorem provideToSP_covers (hd : d.Wired) (hb : d.External env.sender) {amount : Nat} {tag : Address}
    (hs : IssuanceCovers sent s) (h : provideToSP d env amount tag s = .ok s') :
    IssuanceCovers (sent + s.LQTYSent d s') s' := by
  simp only [provideToSP, requireFrontEndIsRegisteredOrZero, bind_ok, require_ok, add_ok] at h
  obtain ⟨-, hregistered, -, -, -, -, s₁, h₁, reading, hreading, s₂, h₂, stake, hstake, _, ⟨-, rfl⟩, s₃,
    h₃, _, ⟨-, rfl⟩, h₄⟩ := h
  obtain ⟨hs₁, htoken, error, G, hissued⟩ := triggerLQTYIssuance_covers hs h₁
  obtain ⟨frontEndGain, gain, token, hfrontEnd, hgain, rfl, hbalance⟩ := payOutLQTYGains_sends h₂
  have hregistered' : (s₁.stabilityPool.frontEnds tag).registered = true ∨ tag = 0 := by
    rw [hissued]
    exact hregistered
  obtain ⟨reserve, -, hcovered⟩ := id hs₁
  have hf := tagNewDeposit_tag (b := env.sender) hcovered hregistered'
  rw [tagNewDeposit_getDepositorLQTYGain] at hgain
  -- the tag is written before the readings, which do not depend on it
  obtain ⟨htagged, htag⟩ := s₁.stabilityPool.tagNewDeposit_eq env.sender tag
  dsimp only at hfrontEnd hstake h₃
  generalize ((s₁.stabilityPool.tagNewDeposit env.sender tag).deposits env.sender).frontEndTag =
    frontEnd at *
  rw [htagged] at hreading hfrontEnd hstake h₃
  obtain ⟨hcompounded, -⟩ := readDeposit_setFrontEndTag hreading
  obtain ⟨-, -, -, ether, rfl⟩ := deposit_ok hd token hb h₃ h₄
  rw [← LQTYSent_congr htoken]
  refine redeposited_covers hs₁ hf htag hcompounded hstake hfrontEnd hgain ?_ ?_ ?_ rfl rfl
  · omega
  · omega
  · exact hbalance.ge

theorem withdrawFromSP_covers (hd : d.Wired) (hb : d.External env.sender) {amount : Nat}
    (hs : IssuanceCovers sent s) (h : withdrawFromSP d env amount s = .ok s') :
    IssuanceCovers (sent + s.LQTYSent d s') s' := by
  simp only [withdrawFromSP, requireUserHasDeposit, bind_ok, require_ok, sub_ok] at h
  obtain ⟨-, -, -, hdeposit, s₁, h₁, reading, hreading, s₂, h₂, stake, hstake, _, ⟨hle', rfl⟩, s₃, h₃,
    _, ⟨hle, rfl⟩, h₄⟩ := h
  generalize LiquityMath.min amount reading.compoundedLUSDDeposit = withdrawn at *
  obtain ⟨hs₁, htoken, error, G, hissued⟩ := triggerLQTYIssuance_covers hs h₁
  obtain ⟨frontEndGain, gain, token, hfrontEnd, hgain, rfl, hbalance⟩ := payOutLQTYGains_sends h₂
  obtain ⟨reserve, -, hcovered⟩ := id hs₁
  have hf := hcovered.tag env.sender (by
    rw [hissued]
    exact hdeposit.ne')
  rw [← setFrontEndTag_self s₁.stabilityPool env.sender] at hreading
  obtain ⟨hcompounded, -⟩ := readDeposit_setFrontEndTag hreading
  have hsend : sendLUSDToDepositor d env.sender withdrawn { s₁ with
      lqtyToken := token
      stabilityPool := (s₁.stabilityPool.setFrontEndTag env.sender
        (s₁.stabilityPool.deposits env.sender).frontEndTag).updateFrontEndStakeAndSnapshots
          (s₁.stabilityPool.deposits env.sender).frontEndTag (stake - withdrawn) } = .ok s₃ := by
    rw [setFrontEndTag_self]
    exact h₃
  obtain ⟨-, -, htotal_le, -, ether, rfl⟩ := withdrawal_ok hd token hb hsend h₄
  rw [← LQTYSent_congr htoken]
  refine redeposited_covers hs₁ hf (fun _ => rfl) hcompounded hstake hfrontEnd hgain ?_ ?_ ?_ rfl rfl
  · omega
  · omega
  · exact hbalance.ge

/-- The trove is adjusted after both gains were paid, which moves no LQTY out. -/
theorem withdrawETHGainToTrove_covers (hd : d.Wired) (hb : d.External env.sender)
    {upper lower : Address} (hs : IssuanceCovers sent s)
    (h : withdrawETHGainToTrove d env upper lower s = .ok s') :
    IssuanceCovers (sent + s.LQTYSent d s') s' := by
  simp only [withdrawETHGainToTrove, requireUserHasDeposit, BorrowerOperations.moveETHGainToTrove,
    bind_ok, require_ok, sub_ok] at h
  obtain ⟨-, hdeposit, -, -, -, -, s₁, h₁, reading, hreading, s₂, h₂, stake, hstake, _, ⟨-, rfl⟩, -, -,
    -, -, h⟩ := h
  obtain ⟨hs₁, htoken, error, G, hissued⟩ := triggerLQTYIssuance_covers hs h₁
  obtain ⟨frontEndGain, gain, token, hfrontEnd, hgain, rfl, hbalance⟩ := payOutLQTYGains_sends h₂
  have hadjusted : Footprint d True 0 0 _ s' := BorrowerOperations.adjustTroveInternal_footprint hd hb
    (fun hincrease => by cases hincrease) h
  have hpool := hadjusted.stabilityPool
  have hissuance := hadjusted.communityIssuance
  have hkept := hadjusted.issuance_le
  obtain ⟨reserve, -, hcovered⟩ := id hs₁
  have hf := hcovered.tag env.sender (by
    rw [hissued]
    exact hdeposit.ne')
  rw [← setFrontEndTag_self s₁.stabilityPool env.sender] at hreading
  obtain ⟨hcompounded, -⟩ := readDeposit_setFrontEndTag hreading
  dsimp only at hpool hissuance hkept
  rw [← redeposited_self] at hpool
  rw [← LQTYSent_congr htoken]
  refine redeposited_covers hs₁ hf (fun _ => rfl) hcompounded hstake hfrontEnd hgain rfl rfl ?_
    hissuance hpool
  omega

theorem registerFrontEnd_covers (hb : d.External env.sender) {kickbackRate : Nat}
    (hs : IssuanceCovers sent s) (h : registerFrontEnd env kickbackRate s = .ok s') :
    IssuanceCovers (sent + s.LQTYSent d s') s' := by
  simp only [registerFrontEnd, requireFrontEndNotRegistered, requireValidKickbackRate, bind_ok,
    require_ok, pure_ok] at h
  obtain ⟨-, hunregistered, -, -, -, hvalid, rfl⟩ := h
  obtain ⟨reserve, hle, hcovered⟩ := hs
  refine ⟨reserve, ?_, hcovered.registered hb.1 hunregistered hvalid⟩
  rw [System.LQTYSent, Nat.sub_self, Nat.add_zero]
  exact hle

/-! ## Offsets -/

/-- LQTY is issued, and then the deposits and stakes shrink. -/
theorem offset_covers (hd : d.Wired) {caller : Address} {debt coll timestamp : Nat}
    (hs : IssuanceCovers sent s) (hloss : debt ≠ 0 → s.stabilityPool.LossCovered debt)
    (h : offset d caller debt coll timestamp s = .ok s') :
    IssuanceCovers sent s' ∧ s'.lqtyToken = s.lqtyToken := by
  rcases offset_ok h with ⟨-, rfl⟩ | ⟨-, hne, s₁, rewards, p, h₁, hrewards, hp, h⟩
  · exact ⟨hs, rfl⟩
  obtain ⟨⟨reserve, hle, hcovered⟩, htoken, error, G, hissued⟩ := triggerLQTYIssuance_covers hs h₁
  have htotal : s.stabilityPool.totalLUSDDeposits = s₁.stabilityPool.totalLUSDDeposits := by
    rw [hissued]
  rw [htotal] at hrewards
  simp only [moveOffsetCollAndDebt, bind_ok, System.onActivePool_ok, System.onStabilityPool_ok,
    System.onLUSDToken_ok, decreaseLUSD, pure_ok, sub_ok] at h
  obtain ⟨_, ⟨a, -, rfl⟩, _, ⟨_, ⟨_, ⟨-, rfl⟩, rfl⟩, rfl⟩, _, ⟨t, -, rfl⟩, h⟩ := h
  obtain ⟨-, -, ether, rfl⟩ := ActivePool.sendETH_stabilityPool hd h
  refine ⟨⟨reserve, hle, hcovered.absorbs ⟨rewards, p, hrewards, hp, rfl⟩ ?_⟩, htoken⟩
  rw [hissued]
  exact hloss hne

end StabilityPool

/-- What a transaction in which the Stability Pool has no part leaves alone. -/
theorem Footprint.issuanceCovers {c : Prop} {n n' : Nat} (h : Footprint d c n n' s s')
    (hs : IssuanceCovers sent s) : IssuanceCovers (sent + s.LQTYSent d s') s' := by
  obtain ⟨reserve, hle, hcovered⟩ := hs
  have hkept := h.issuance_le
  refine ⟨reserve, ?_, h.stabilityPool ▸ hcovered⟩
  rw [h.communityIssuance]
  unfold System.LQTYSent
  omega

theorem IssuanceCovers.congr (hs : IssuanceCovers sent s)
    (hissuance : s'.communityIssuance = s.communityIssuance)
    (hpool : s'.stabilityPool = s.stabilityPool) : IssuanceCovers sent s' := by
  obtain ⟨reserve, hle, hcovered⟩ := hs
  exact ⟨reserve, hissuance ▸ hle, hpool ▸ hcovered⟩

/-! ## Runs -/

theorem liquidation_covers (hd : d.Wired) {t : Transaction} {x : Tx LoopState}
    (hs : IssuanceCovers sent s) (hstep : Step d s t s')
    (hcond : StabilityPool.OffsetsCovered d s t)
    (htally : t.call.tally d t.env { s with timestamp := t.env.timestamp } = some x) :
    IssuanceCovers (sent + s.LQTYSent d s') s' := by
  obtain ⟨l, rfl, h⟩ := hstep.tallied hd htally
  obtain ⟨recovery, l₀, hstart, hsteps⟩ := t.call.tally_steps htally
  have hloop : Footprint d True _ _ l₀.system l.system := TroveManager.loop_footprint hd hsteps
  rw [hstart.fresh.2] at hloop
  have hpool : l.system.stabilityPool = s.stabilityPool := hloop.stabilityPool
  have hl : IssuanceCovers sent l.system := hs.congr hloop.communityIssuance hpool
  simp only [settleLiquidation, bind_ok] at h
  obtain ⟨-, -, s₁, h₁, s₂, h₂, s₃, h₃, s₄, h₄, _, -, _, -, h⟩ := h
  obtain ⟨hs₁, htoken⟩ := StabilityPool.offset_covers hd hl
    (hpool ▸ hcond l.totals ⟨l, htally, rfl⟩) h₁
  -- whatever else is settled touches neither the pool nor the issuance
  have hsurplus : Footprint d True (0 + l.totals.totalCollSurplus) 0 s₂ s₃ :=
    TroveManager.sendCollSurplus_footprint hd h₃
  have hsettled := ((TroveManager.redistributeDebtAndColl_frame hd h₂).footprint.trans hsurplus).trans
    ((TroveManager.updateSystemSnapshots_frame h₄).trans
      (TroveManager.sendGasCompensation_frame hd hstep.1.external h)).footprint
  have hzero : s.LQTYSent d s' = 0 := by
    have hbefore : s.lqtyToken.balances d.communityIssuance ≤
        l.system.lqtyToken.balances d.communityIssuance := hloop.issuance_le
    have hafter := hsettled.issuance_le
    rw [htoken] at hafter
    exact Nat.sub_eq_zero_of_le (hbefore.trans hafter)
  rw [hzero]
  exact hs₁.congr hsettled.communityIssuance hsettled.stabilityPool

/-- Every transaction keeps gains covered whose offsets are covered. -/
theorem Step.issuanceCovers (hd : d.Wired) (hr : Reachable d s) {t : Transaction}
    (hs : IssuanceCovers sent s) (hcond : StabilityPool.OffsetsCovered d s t) (hstep : Step d s t s') :
    IssuanceCovers (sent + s.LQTYSent d s') s' := by
  have hreserved := hr.reserved hd
  by_cases hcall : t.call.leavesStabilityPool = true
  · have hkept : Footprint d True 0 0 s s' :=
      hstep.footprint hd hreserved.sound hreserved.restricted (fun _ _ => trivial) hcall
    exact hkept.issuanceCovers hs
  cases htally : t.call.tally d t.env { s with timestamp := t.env.timestamp } with
  | some => exact liquidation_covers hd hs hstep hcond htally
  | none =>
    have hb := hstep.1.external
    obtain ⟨s₀, htoken, hs₀, h⟩ : ∃ s₀ : System, s₀.lqtyToken = s.lqtyToken ∧ IssuanceCovers sent s₀ ∧
        t.call.body d t.env s₀ = .ok s' := by
      obtain ⟨ether, h, -, -⟩ := hstep.body hd
      exact ⟨{ s with timestamp := t.env.timestamp, ether }, rfl, hs, h⟩
    obtain ⟨env, call⟩ := t
    rw [← LQTYSent_congr htoken]
    cases call with
    | liquidate | liquidateTroves | batchLiquidateTroves => cases htally
    | provideToSP => exact StabilityPool.provideToSP_covers hd hb hs₀ h
    | withdrawFromSP => exact StabilityPool.withdrawFromSP_covers hd hb hs₀ h
    | withdrawETHGainToTrove => exact StabilityPool.withdrawETHGainToTrove_covers hd hb hs₀ h
    | registerFrontEnd => exact StabilityPool.registerFrontEnd_covers hb hs₀ h
    | _ => exact absurd rfl hcall

theorem IsInitial.issuanceCovers (h : IsInitial d s) : IssuanceCovers 0 s := by
  obtain ⟨ether, timestamp, -, rfl⟩ := h
  have hdeposit : ∀ x, ((System.initial d ether timestamp).stabilityPool.LQTYPool 0).deposit x = 0 := by
    rintro (i | f)
    · exact Nat.mul_zero _
    · exact Nat.mul_zero _
  refine ⟨0, Nat.zero_le _, ⟨⟨?_, ?_, ?_⟩, rfl, fun _ => Nat.zero_le _, fun _ _ _ => rfl,
    fun _ hi => absurd rfl hi⟩⟩
  · exact ⟨Nat.pow_pos (by decide), fun x hx => absurd (hdeposit x) hx.ne',
      fun x hx => absurd (hdeposit x) hx.ne', fun x hx => absurd (hdeposit x) hx.ne', fun _ _ _ => rfl⟩
  · rw [Finset.sum_eq_zero fun x _ => ProductSum.Pool.value_of_deposit_eq_zero (hdeposit x)]
    exact Nat.cast_nonneg _
  · rw [Finset.sum_eq_zero fun x _ => ProductSum.Pool.gain_of_deposit_eq_zero (hdeposit x)]
    simp [StabilityPool.LQTYPool, System.initial]

theorem sendingRun_issuanceCovers (hd : d.Wired)
    (h : SendingRun d (StabilityPool.OffsetsCovered d) s sent) : IssuanceCovers sent s := by
  induction h with
  | init h => exact h.issuanceCovers
  | step hrun hstep hcond ih => exact hstep.issuanceCovers hd hrun.reachable ih hcond

namespace StabilityPool

/-- The LQTY gain of a registered front end, and nothing for anyone else. -/
def registeredLQTYGain (frontEnd : Address) (p : StabilityPool) : Nat :=
  if (p.frontEnds frontEnd).registered then okOr (p.getFrontEndLQTYGain frontEnd) 0 else 0

theorem GainsCovered.sum_le {reserve : Nat} {p : StabilityPool} (h : p.GainsCovered reserve) :
    ∑ i, okOr (p.getDepositorLQTYGain i) 0 + ∑ f, p.registeredLQTYGain f ≤ reserve := by
  have hsum := h.covered.sum_paid_le LQTYPrecision_pos (g := Sum.elim
    (fun i => okOr (p.getDepositorLQTYGain i) 0) (fun f => p.registeredLQTYGain f)) ?_
  · rw [Fintype.sum_sum_type] at hsum
    exact hsum
  rintro (i | f)
  · change (LQTYPrecision : ℚ) * (okOr (p.getDepositorLQTYGain i) 0 : Nat) ≤ _
    cases hi : p.getDepositorLQTYGain i with
    | error e => simpa using h.covered.gain_nonneg (.inl i)
    | ok gain => exact getDepositorLQTYGain_le hi reserve
  · change (LQTYPrecision : ℚ) * (p.registeredLQTYGain f : Nat) ≤ _
    unfold registeredLQTYGain
    split
    next hregistered =>
      have hf : f ≠ 0 := by
        rintro rfl
        rw [h.zero_unregistered] at hregistered
        cases hregistered
      cases hgain : p.getFrontEndLQTYGain f with
      | error e => simpa using h.covered.gain_nonneg (.inr f)
      | ok gain => exact getFrontEndLQTYGain_le hf hgain reserve
    next => simpa using h.covered.gain_nonneg (.inr f)

/-- What was sent and what all depositors and registered front ends can still claim is never more
than what was issued. -/
theorem sent_add_gains_le (hd : d.Wired) (h : SendingRun d (OffsetsCovered d) s sent) :
    sent + ∑ i, okOr (s.stabilityPool.getDepositorLQTYGain i) 0 +
      ∑ f, s.stabilityPool.registeredLQTYGain f ≤ s.communityIssuance.totalLQTYIssued := by
  obtain ⟨reserve, hle, hcovered⟩ := sendingRun_issuanceCovers hd h
  have hsum := hcovered.sum_le
  omega

/-- After a year the only depositor collects almost all that was issued. -/
theorem sampleOffset_sent : ∃ s sent,
    SendingRun sampleDeployment (OffsetsCovered sampleDeployment) s sent ∧
    sent = 15999999999999465535999362 ∧ sent + ∑ i, okOr (s.stabilityPool.getDepositorLQTYGain i) 0 +
      ∑ f, s.stabilityPool.registeredLQTYGain f ≤ s.communityIssuance.totalLQTYIssued := by
  obtain ⟨s, sent, hrun, hsent⟩ := exists_tracedRun
    (fun s t _ => OffsetsCovered sampleDeployment s t) 0
    (fun s _ s' sent => sent + s.LQTYSent sampleDeployment s')
    (sampleOffset ++ [⟨⟨101, 0, 31536000, 1800 * 10 ^ 18⟩, .withdrawFromSP 0⟩])
    (fun r => r.2 = 15999999999999465535999362) (by decide +kernel)
  exact ⟨s, sent, hrun, hsent, sent_add_gains_le sampleDeployment_wired hrun⟩

/-- Two offsets leave the only deposit reading more than the pool records, and its part of the LQTY
that is issued afterwards is more than was issued. -/
theorem sent_exceeds_issued :
    ¬ ∀ (d : Deployment) (s : System) (sent : Nat), d.Wired → SendingRun d (fun _ _ => True) s sent →
      sent + ∑ i, okOr (s.stabilityPool.getDepositorLQTYGain i) 0 +
        ∑ f, s.stabilityPool.registeredLQTYGain f ≤ s.communityIssuance.totalLQTYIssued := by
  intro hall
  obtain ⟨s, sent, hrun, hsent⟩ := exists_tracedRun (fun _ _ _ => True) 0
    (fun s _ s' sent => sent + s.LQTYSent sampleDeployment s')
    (sampleOpenings ++ [⟨⟨103, 58 * 10 ^ 16, 0, 2000 * 10 ^ 18⟩, .openTrove (10 ^ 18) (9919 * 10 ^ 17) 0 0⟩,
      ⟨⟨101, 0, 0, 2000 * 10 ^ 18⟩, .provideToSP (2011 * 10 ^ 18) 0⟩,
      ⟨⟨101, 0, 0, 1800 * 10 ^ 18⟩, .liquidate 102⟩, ⟨⟨101, 0, 0, 1800 * 10 ^ 18⟩, .liquidate 103⟩,
      ⟨⟨101, 0, 31536000, 1800 * 10 ^ 18⟩, .withdrawFromSP 0⟩])
    (fun r => r.1.communityIssuance.totalLQTYIssued < r.2) (by decide +kernel)
  have hle := hall sampleDeployment s sent sampleDeployment_wired hrun
  dsimp only at hsent
  omega

end StabilityPool

end Liquity
