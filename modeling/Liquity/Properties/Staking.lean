import Liquity.Properties.SystemRatio
import Liquity.Reserves.Steps

/-!
# LQTY staking is solvent

The staking contract covers all stakes and gains, so everybody can stake, collect and leave at any
time.  The multiplications in the way of a payment fit in a word: what stakers have earned in LUSD
grows only while the system is in Normal Mode, and there the system's ratio, which a checked
multiplication has just computed, bounds all the LUSD there is.
-/

open Lib

namespace Liquity

open SafeMath LiquityMath LQTYStaking

variable {d : Deployment} {s s' : System} {amount : Nat}

/-! ## Gains fit in a word -/

theorem StakingSolvent.gainETH_lt (hs : StakingSolvent d s) (hether : ∑ a, s.ether a < 2 ^ 128)
    (a : Address) :
    s.lqtyStaking.stakes a * (s.lqtyStaking.F_ETH - (s.lqtyStaking.snapshots a).F_ETH_Snapshot) <
      2 ^ 256 := by
  have howed := le_sum (s.lqtyStaking.ETHGains (s.ether d.lqtyStaking)).owed a
  have hcovered := hs.ETHGains.covered
  have hreserve := (le_sum s.ether d.lqtyStaking).trans_lt hether
  calc _ ≤ DECIMAL_PRECISION * s.ether d.lqtyStaking :=
        howed.trans ((Nat.le_add_right _ _).trans hcovered)
    _ < DECIMAL_PRECISION * 2 ^ 128 := Nat.mul_lt_mul_of_pos_left hreserve (by decide)
    _ < 2 ^ 256 := by decide

theorem StakingSolvent.owedLUSD_le (hs : StakingSolvent d s) :
    s.lqtyStaking.owedLUSD ≤ DECIMAL_PRECISION * s.lusdToken.balances d.lqtyStaking :=
  (Nat.le_add_right _ _).trans hs.LUSDGains.covered

/-- In Normal Mode the value of the collateral fits in a word and exceeds the debt. -/
theorem normalMode_supply_lt {price TCR : Nat} (hs : Sound d s .none)
    (h : s.getTCR price = .ok TCR) (hnormal : CCR ≤ TCR) :
    DECIMAL_PRECISION * s.lusdToken.totalSupply < 2 ^ 256 := by
  have hsupply : s.lusdToken.totalSupply = s.totalDebt := hs.books.supply
  obtain ⟨-, -, hratio⟩ := System.getTCR_ok.mp h
  rw [hsupply]
  by_cases hdebt : 0 < s.totalDebt
  · have hbound := (computeCR_bounds hdebt hratio).1
    simp only [computeCR, if_pos hdebt, bind_ok, mul_ok] at hratio
    obtain ⟨_, ⟨hvalue, -⟩, -⟩ := hratio
    have hprecision : DECIMAL_PRECISION ≤ TCR := (by decide : DECIMAL_PRECISION ≤ CCR).trans hnormal
    exact ((Nat.mul_le_mul_right _ hprecision).trans hbound).trans_lt hvalue
  · rw [Nat.eq_zero_of_not_pos hdebt]
    decide

/-- What the stakers are owed in LUSD, before it is scaled down. -/
theorem Reachable.owedLUSD_lt (hd : d.Wired) (h : Reachable d s) :
    s.lqtyStaking.owedLUSD < 2 ^ 256 := by
  have hinit : ∀ s, IsInitial d s → s.lqtyStaking.owedLUSD < 2 ^ 256 := by
    rintro _ ⟨ether, timestamp, -, rfl⟩
    simp [System.initial, owedLUSD]
  refine Lib.Reachable.invariant (fun s => s.lqtyStaking.owedLUSD < 2 ^ 256) hinit ?_ h
  intro s t s' hr hlt _ hstep
  have hr : Reachable d s := hr
  have hr' : Reachable d s' := hr.step trivial hstep
  have hs := hr.reserved hd
  have hkeeps : Keeps d (t.call.mayCharge = true ∧ s.checkRecoveryMode t.env.price = .ok false) 0 0 s s' :=
    hstep.keeps hd hs.sound hs.restricted fun hcall hmode => ⟨hcall, hmode⟩
  by_cases hcharged : t.call.mayCharge = true ∧ s.checkRecoveryMode t.env.price = .ok false
  · -- a fee is charged: the operation leaves the system in Normal Mode
    obtain ⟨hcall, hmode⟩ := hcharged
    have hoperation : t.call.isBorrowerOperation = true := by
      cases hkind : t.call <;> simp [hkind, Call.mayCharge, Call.isBorrowerOperation] at hcall ⊢
    obtain ⟨TCR, hTCR, hnormal⟩ := System.checkRecoveryMode_ok hmode
    obtain ⟨ether, hbody, -, hkept⟩ := hstep.body hd
    have hevolves : Evolves d PlainOnly s .none { s with timestamp := t.env.timestamp, ether } .none :=
      .silent hs.sound rfl rfl hkept
    have hratio := (t.call.body_ratio hd (hevolves.sound hd hs.sound) hstep.1.external hoperation
      hbody).1
    obtain ⟨TCR', hTCR', hnormal'⟩ := hratio.normal TCR hTCR (by simpa using hnormal)
    have hs' := hr'.reserved hd
    have hbalance : s'.lusdToken.balances d.lqtyStaking ≤ s'.lusdToken.totalSupply :=
      hs'.sound.books.balance_le d.lqtyStaking
    exact (hs'.staking.owedLUSD_le.trans (Nat.mul_le_mul_left _ hbalance)).trans_lt
      (normalMode_supply_lt hs'.sound hTCR' hnormal')
  · exact (hkeeps.owedLUSD_le hcharged).trans_lt hlt

/-! ## Payments succeed -/

/-- The staking contract is solvent and its scaled gains fit in a word. -/
structure StakingPayable (d : Deployment) (s : System) : Prop where
  solvent : StakingSolvent d s
  gainETH_lt : ∀ a, s.lqtyStaking.stakes a *
    (s.lqtyStaking.F_ETH - (s.lqtyStaking.snapshots a).F_ETH_Snapshot) < 2 ^ 256
  gainLUSD_lt : ∀ a, s.lqtyStaking.stakes a *
    (s.lqtyStaking.F_LUSD - (s.lqtyStaking.snapshots a).F_LUSD_Snapshot) < 2 ^ 256
  sum_LUSD : ∑ a, s.lusdToken.balances a < 2 ^ 256
  sum_LQTY : ∑ a, s.lqtyToken.balances a < 2 ^ 256

theorem Reachable.stakingPayable (hd : d.Wired) (h : Reachable d s) : StakingPayable d s := by
  have hs := h.reserved hd
  refine ⟨hs.staking, hs.staking.gainETH_lt hs.sound.ether_lt, fun a => ?_, ?_, hs.restricted.sum_lt⟩
  · exact (le_sum (fun a => s.lqtyStaking.stakes a *
      (s.lqtyStaking.F_LUSD - (s.lqtyStaking.snapshots a).F_LUSD_Snapshot)) a).trans_lt
      (h.owedLUSD_lt hd)
  · have hsum : ∑ a, s.lusdToken.balances a = s.lusdToken.totalSupply := hs.sound.books.sum_balances
    rw [hsum]
    exact hs.sound.books.supply_lt

theorem pendingGain_of_lt {stake F F_Snapshot : Nat} (hle : F_Snapshot ≤ F)
    (hlt : stake * (F - F_Snapshot) < 2 ^ 256) :
    pendingGain stake F F_Snapshot = .ok (stake * (F - F_Snapshot) / DECIMAL_PRECISION) := by
  simp only [pendingGain, bind_ok, sub_ok, mul_ok, div_ok]
  exact ⟨_, ⟨hle, rfl⟩, _, ⟨hlt, rfl⟩, by decide, rfl⟩

namespace StakingPayable

variable (hs : StakingPayable d s)

include hs

theorem getPendingETHGain (a : Address) :
    s.lqtyStaking.getPendingETHGain a = .ok (s.lqtyStaking.gainETH a) :=
  pendingGain_of_lt (hs.solvent.ETHGains.snapshot_le a) (hs.gainETH_lt a)

theorem getPendingLUSDGain (a : Address) :
    s.lqtyStaking.getPendingLUSDGain a = .ok (s.lqtyStaking.gainLUSD a) :=
  pendingGain_of_lt (hs.solvent.LUSDGains.snapshot_le a) (hs.gainLUSD_lt a)

theorem sum_gainETH_le : ∑ a, s.lqtyStaking.gainETH a ≤ s.ether d.lqtyStaking :=
  hs.solvent.ETHGains.sum_share_le (by decide)

theorem sum_gainLUSD_le :
    ∑ a, s.lqtyStaking.gainLUSD a ≤ s.lusdToken.balances d.lqtyStaking :=
  hs.solvent.LUSDGains.sum_share_le (by decide)

/-- The gains of one staker, after any change of the LQTY balances and the stakes. -/
theorem sendGains_succeeds (hd : d.Wired) {user : Address} (hb : d.External user)
    (lqtyStaking : LQTYStaking) (lqtyToken : LQTYToken) :
    ∃ s', sendGains d user (s.lqtyStaking.gainETH user) (s.lqtyStaking.gainLUSD user)
      { s with lqtyStaking, lqtyToken } = .ok s' := by
  have hETH := (le_sum s.lqtyStaking.gainETH user).trans hs.sum_gainETH_le
  have hLUSD := (le_sum s.lqtyStaking.gainLUSD user).trans hs.sum_gainLUSD_le
  have hstaking : d.lqtyStaking ≠ 0 :=
    fun hzero => hd.zero_notMem (hzero ▸ by simp [Deployment.contracts])
  obtain ⟨t, ht⟩ := LUSDToken.transferInternal_of_le hstaking hb.1 hLUSD hs.sum_LUSD
  simp only [sendGains, sendETHGainToUser, bind_ok, System.onLUSDToken_ok, orRevert_ok,
    LUSDToken.transfer, LUSDToken.requireValidRecipient, require_ok]
  refine ⟨_, _, ⟨t, ⟨(), ⟨(), ⟨hb.1, hb.ne 9⟩, ?_⟩, ht⟩, rfl⟩, System.callValue_external_of_le hb hETH⟩
  exact ⟨hb.ne 4, hb.ne 1, hb.ne 0⟩

end StakingPayable

/-! ## `stake` and `unstake` -/

/-- The requirements of `stake`: an amount that the sender has, and, in the first year, a sender that
is not the multisig. -/
structure StakeRequirements (d : Deployment) (env : Env) (amount : Nat) (s : System) : Prop where
  nonzero : 0 < amount
  balance : amount ≤ s.lqtyToken.balances env.sender
  deployed : d.deploymentStartTime ≤ env.timestamp
  multisig : env.timestamp - d.deploymentStartTime < LQTYToken.ONE_YEAR_IN_SECONDS →
    env.sender ≠ d.multisig

/-- The requirements of `unstake`: a stake, and a staking contract that is not the multisig, whose
transfers the token restricts. -/
structure UnstakeRequirements (d : Deployment) (env : Env) (s : System) : Prop where
  stake : 0 < s.lqtyStaking.stakes env.sender
  multisig : d.lqtyStaking ≠ d.multisig

namespace StakingPayable

theorem later (hs : StakingPayable d s) {timestamp : Nat} (h : s.timestamp ≤ timestamp) :
    StakingPayable d { s with timestamp } :=
  { hs with
    solvent := hs.solvent.mono rfl (Nat.le_refl _) (Nat.le_refl _) (Nat.le_refl _) h }

variable (hs : StakingPayable d s) (hd : d.Wired) {env : Env} (hb : d.External env.sender)

include hs

theorem gainsOnStake (a : Address) :
    s.lqtyStaking.gainsOnStake a = .ok (s.lqtyStaking.gainETH a, s.lqtyStaking.gainLUSD a) := by
  unfold LQTYStaking.gainsOnStake
  split
  · rw [hs.getPendingETHGain, hs.getPendingLUSDGain]
    rfl
  next hnone =>
    rw [gainETH, gainLUSD, not_not.mp hnone]
    simp

theorem stakes_le (a : Address) : s.lqtyStaking.stakes a ≤ s.lqtyStaking.totalLQTYStaked := by
  rw [← hs.solvent.total_eq]
  exact le_sum _ a

include hd hb

theorem stake_succeeds (hreq : StakeRequirements d env amount s) :
    ∃ s', stake d env amount s = .ok s' := by
  have hne := hb.ne_lqtyStaking
  have hstake := hs.stakes_le env.sender
  have hstaked := hs.solvent.staked_le
  -- the stake and the new amount are part of all the LQTY there is
  have hmoved := le_sum (move s.lqtyToken.balances env.sender d.lqtyStaking amount) d.lqtyStaking
  rw [sum_move hreq.balance, move_target hne] at hmoved
  have hsum := hs.sum_LQTY
  have hstaking : d.lqtyStaking ≠ 0 :=
    fun hzero => hd.zero_notMem (hzero ▸ by simp [Deployment.contracts])
  obtain ⟨t, ht⟩ := LQTYToken.transferInternal_of_le hb.1 hstaking hreq.balance hs.sum_LQTY
  have hsend : LQTYToken.sendToLQTYStaking d env.timestamp d.lqtyStaking env.sender amount s.lqtyToken =
      .ok t := by
    simp only [LQTYToken.sendToLQTYStaking, LQTYToken.isFirstYear, bind_ok, require_ok, sub_ok, pure_ok]
    exact ⟨(), trivial, _, ⟨_, ⟨hreq.deployed, rfl⟩, rfl⟩, (), fun hyear =>
      hreq.multisig (of_decide_eq_true hyear), ht⟩
  have hpaid : ∀ s₁, s₁ = { s with lqtyStaking := s₁.lqtyStaking, lqtyToken := t } →
      ∃ s', (if s.lqtyStaking.stakes env.sender ≠ 0 then
        sendGains d env.sender (s.lqtyStaking.gainETH env.sender) (s.lqtyStaking.gainLUSD env.sender)
          s₁ else pure s₁) = .ok s' := by
    intro s₁ hs₁
    split
    · rw [hs₁]
      exact hs.sendGains_succeeds hd hb _ t
    · exact ⟨s₁, rfl⟩
  obtain ⟨s', h⟩ := hpaid { s with
    lqtyStaking := { s.lqtyStaking.updateUserSnapshots env.sender with
      stakes := Function.update s.lqtyStaking.stakes env.sender
        (s.lqtyStaking.stakes env.sender + amount)
      totalLQTYStaked := s.lqtyStaking.totalLQTYStaked + amount }
    lqtyToken := t } rfl
  simp only [stake, bind_ok, require_ok, add_ok, hs.gainsOnStake, System.onLQTYToken_ok]
  refine ⟨s', (), hreq.nonzero, _, rfl, _, ⟨?_, rfl⟩, _, ⟨?_, rfl⟩, _, ⟨t, hsend, rfl⟩, h⟩
  · omega
  · dsimp only [updateUserSnapshots]
    omega

/-- After any change of the snapshots. -/
theorem withdrawStake_succeeds (hmultisig : d.lqtyStaking ≠ d.multisig) (l : LQTYStaking)
    (hstakes : l.stakes = s.lqtyStaking.stakes) (htotal : l.totalLQTYStaked = s.lqtyStaking.totalLQTYStaked) :
    ∃ lqtyStaking lqtyToken, withdrawStake d env amount { s with lqtyStaking := l } =
      .ok { s with lqtyStaking, lqtyToken } := by
  have hle := hs.stakes_le env.sender
  have hheld := hs.solvent.staked_le
  have hstaking : d.lqtyStaking ≠ 0 :=
    fun hzero => hd.zero_notMem (hzero ▸ by simp [Deployment.contracts])
  have hmin : Min.min amount (s.lqtyStaking.stakes env.sender) ≤ s.lqtyStaking.stakes env.sender :=
    Nat.min_le_right _ _
  have hbalance := (hmin.trans hle).trans hheld
  obtain ⟨t, ht⟩ := LQTYToken.transferInternal_of_le hstaking hb.1 hbalance hs.sum_LQTY
  have htransfer : LQTYToken.transfer d env.timestamp d.lqtyStaking env.sender
      (Min.min amount (s.lqtyStaking.stakes env.sender)) s.lqtyToken = .ok t := by
    simp only [LQTYToken.transfer, LQTYToken.requireMultisigRecipient, if_neg hmultisig,
      LQTYToken.requireValidRecipient, bind_ok, require_ok]
    exact ⟨(), trivial, (), ⟨(), ⟨hb.1, hb.ne 10⟩, hb.ne 12, hb.ne 11⟩, ht⟩
  unfold withdrawStake
  split
  · simp only [bind_ok, sub_ok, min_eq, hstakes, htotal, System.onLQTYToken_ok]
    exact ⟨_, t, _, ⟨hmin, rfl⟩, _, ⟨hmin.trans hle, rfl⟩, t, htransfer, rfl⟩
  · exact ⟨l, s.lqtyToken, rfl⟩

theorem unstake_succeeds (hreq : UnstakeRequirements d env s) :
    ∃ s', unstake d env amount s = .ok s' := by
  obtain ⟨l, t, hwithdrawn⟩ : ∃ l t, withdrawStake d env amount { s with
      lqtyStaking := s.lqtyStaking.updateUserSnapshots env.sender } =
        .ok { s with lqtyStaking := l, lqtyToken := t } :=
    hs.withdrawStake_succeeds hd hb hreq.multisig _ rfl rfl
  obtain ⟨s', hsent⟩ := hs.sendGains_succeeds hd hb l t
  simp only [unstake, bind_ok, require_ok, hs.getPendingETHGain, hs.getPendingLUSDGain]
  exact ⟨s', (), hreq.stake, _, rfl, _, rfl, _, hwithdrawn, hsent⟩

end StakingPayable

/-! ## Every reachable state -/

/-- In every reachable state the staking contract holds all stakes and the gains of all stakers, and
every `stake` and `unstake` that meets its requirements pays the caller's gains, and takes or returns
the LQTY. -/
theorem reachable_staking_solvent (hd : d.Wired) (hr : Reachable d s) :
    s.lqtyStaking.totalLQTYStaked = ∑ a, s.lqtyStaking.stakes a ∧
    s.lqtyStaking.totalLQTYStaked ≤ s.lqtyToken.balances d.lqtyStaking ∧
    (∀ a, s.lqtyStaking.getPendingETHGain a = .ok (s.lqtyStaking.gainETH a) ∧
      s.lqtyStaking.getPendingLUSDGain a = .ok (s.lqtyStaking.gainLUSD a)) ∧
    ∑ a, s.lqtyStaking.gainETH a ≤ s.ether d.lqtyStaking ∧
    ∑ a, s.lqtyStaking.gainLUSD a ≤ s.lusdToken.balances d.lqtyStaking ∧
    (∀ env amount, (Transaction.mk env (.stake amount)).Valid d s → env.value = 0 →
      StakeRequirements d env amount s → ∃ s', Step d s ⟨env, .stake amount⟩ s' ∧
        Restaked d env.sender (s.lqtyStaking.stakes env.sender + amount)
          { s with timestamp := env.timestamp } s' ∧
        s'.lqtyToken.balances = move s.lqtyToken.balances env.sender d.lqtyStaking amount) ∧
    ∀ env amount, (Transaction.mk env (.unstake amount)).Valid d s → env.value = 0 →
      UnstakeRequirements d env s → ∃ s', Step d s ⟨env, .unstake amount⟩ s' ∧
        Restaked d env.sender (s.lqtyStaking.stakes env.sender - amount)
          { s with timestamp := env.timestamp } s' ∧
        s'.lqtyToken.balances = move s.lqtyToken.balances d.lqtyStaking env.sender
          (Min.min amount (s.lqtyStaking.stakes env.sender)) := by
  have hs := hr.stakingPayable hd
  refine ⟨hs.solvent.total_eq.symm, hs.solvent.staked_le,
    fun a => ⟨hs.getPendingETHGain a, hs.getPendingLUSDGain a⟩, hs.sum_gainETH_le,
    hs.sum_gainLUSD_le, fun env amount hvalid hvalue hreq => ?_,
    fun env amount hvalid hvalue hreq => ?_⟩
  · obtain ⟨s', h⟩ := (hs.later hvalid.time).stake_succeeds hd hvalid.external { hreq with }
    obtain ⟨-, -, hrestaked, -, -, htoken⟩ := stake_restaked hvalid.external h
    exact ⟨s', .of_body hvalid hvalue h, hrestaked, by rw [htoken]⟩
  · obtain ⟨s', h⟩ : ∃ s', unstake d env amount { s with timestamp := env.timestamp } = .ok s' :=
      (hs.later hvalid.time).unstake_succeeds hd hvalid.external { hreq with }
    obtain ⟨-, hrestaked, -, -, -, htoken⟩ := unstake_restaked hvalid.external h
    exact ⟨s', .of_body hvalid hvalue h, hrestaked, by rw [htoken]⟩

/-- Account 14 stakes LQTY, and account 101 borrows and redeems. -/
def sampleStaking : List Transaction :=
  sampleOpenings ++ [⟨⟨14, 0, 0, 2000 * 10 ^ 18⟩, .stake (10 ^ 20)⟩,
    ⟨⟨101, 0, 0, 2000 * 10 ^ 18⟩, .withdrawLUSD (10 ^ 18) (100 * 10 ^ 18) 0 0⟩,
    ⟨⟨101, 0, 0, 2000 * 10 ^ 18⟩, .redeemCollateral (1005 * 10 ^ 18) ⟨102, 0, 0, 0⟩ 0 (10 ^ 18)⟩]

theorem sampleStaking_paid : ∃ s s', Reachable sampleDeployment s ∧
    s.lqtyStaking.totalLQTYStaked ≤ s.lqtyToken.balances sampleDeployment.lqtyStaking ∧
    0 < s.lqtyStaking.gainETH 14 ∧ 0 < s.lqtyStaking.gainLUSD 14 ∧
    Step sampleDeployment s ⟨⟨14, 0, 0, 2000 * 10 ^ 18⟩, .unstake (10 ^ 20)⟩ s' ∧
    s'.ether 14 = s.ether 14 + s.lqtyStaking.gainETH 14 ∧
    s'.lqtyToken.balances 14 = s.lqtyToken.balances 14 + 10 ^ 20 := by
  obtain ⟨s, hr, hvalid, hETH, hLUSD, hstake⟩ := exists_reachable (fun _ _ => True) sampleStaking
    (fun s => (Transaction.mk ⟨14, 0, 0, 2000 * 10 ^ 18⟩ (.unstake (10 ^ 20))).Valid sampleDeployment s ∧
      0 < s.lqtyStaking.gainETH 14 ∧ 0 < s.lqtyStaking.gainLUSD 14 ∧ s.lqtyStaking.stakes 14 = 10 ^ 20)
    (by decide +kernel)
  obtain ⟨-, hheld, -, -, -, -, hunstake⟩ := reachable_staking_solvent sampleDeployment_wired hr
  have hne : (12 : Address) ≠ 14 := by decide
  obtain ⟨s', hstep, hrestaked, hLQTY⟩ := hunstake ⟨14, 0, 0, 2000 * 10 ^ 18⟩ (10 ^ 20) hvalid rfl
    ⟨by rw [hstake]; decide, by decide⟩
  refine ⟨s, s', hr, hheld, hETH, hLUSD, hstep, ?_, ?_⟩
  · rw [hrestaked.ether]
    exact move_target hne
  · rw [hLQTY, hstake, Nat.min_self]
    exact move_target hne

end Liquity
