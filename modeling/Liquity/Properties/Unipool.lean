import Liquity.Lib.Accumulator
import Liquity.Lib.Reachability
import Liquity.Unipool

/-!
# What the liquidity-pool rewards promise

Every call first brings the clock and the reward per token up to date, and only then changes a
balance or pays a reward.  So the reward that is still to be released, the one released but not
attributed, the one attributed and the one paid always add up to the reward of the whole period.
-/

open Lib

namespace Liquity

open SafeMath

namespace Unipool

variable {u v : Unipool} {t now paid budget : Nat} {a account : Address}

/-! ## The books -/

/-- The time for which rewards are still to be released. -/
def remaining (u : Unipool) : Nat := u.periodFinish - u.lastUpdateTime

/-- The reward per token with the balances it is paid on. -/
def perToken (u : Unipool) (error reserve : Nat) : Accumulator Address where
  stake := u.balances
  snapshot := u.userRewardPerTokenPaid
  value := u.rewardPerTokenStored
  error := error
  reserve := reserve

/-- Up to date with the calls until `now`: the balances add up, and the whole reward is accounted
for. -/
structure Books (budget paid now : Nat) (u : Unipool) : Prop where
  supply : ∑ a, u.balances a = u.totalSupply
  finish_pos : 0 < u.periodFinish
  clock : u.lastUpdateTime = min now u.periodFinish
  backed : ∃ error reserve, (u.perToken error reserve).Solvent (10 ^ 18) ∧
    reserve + ∑ a, u.rewards a + paid + u.rewardRate * u.remaining = budget

theorem Books.lastUpdateTime_le (h : u.Books budget paid now) :
    u.lastUpdateTime ≤ now ∧ u.lastUpdateTime ≤ u.periodFinish := by
  have := h.clock
  omega

/-! ## The clock -/

theorem lastTimeRewardApplicable_eq (t : Nat) (u : Unipool) :
    u.lastTimeRewardApplicable t = min t u.periodFinish := LiquityMath.min_eq _ _

theorem rewardPerToken_ok {r : Nat} :
    u.rewardPerToken t = .ok r →
      (u.totalSupply = 0 ∧ r = u.rewardPerTokenStored) ∨
      (u.totalSupply ≠ 0 ∧ r = u.rewardPerTokenStored +
        (min t u.periodFinish - u.lastUpdateTime) * u.rewardRate * 10 ^ 18 / u.totalSupply) := by
  intro h
  unfold rewardPerToken at h
  split at h
  next hzero => exact .inl ⟨hzero, (Except.ok.inj h).symm⟩
  next hne =>
    simp only [lastTimeRewardApplicable_eq, bind_ok, sub_ok, mul_ok, div_ok, add_ok] at h
    obtain ⟨_, ⟨-, rfl⟩, _, ⟨-, rfl⟩, _, ⟨-, rfl⟩, _, ⟨-, rfl⟩, -, rfl⟩ := h
    exact .inr ⟨hne, rfl⟩

theorem updateReward_ok (h : u.updateReward t = .ok v) :
    ∃ r, u.rewardPerToken t = .ok r ∧
      v = { u with rewardPerTokenStored := r, lastUpdateTime := min t u.periodFinish } := by
  simp only [updateReward, lastTimeRewardApplicable_eq, bind_ok, pure_ok] at h
  obtain ⟨r, hr, rfl⟩ := h
  exact ⟨r, hr, rfl⟩

/-- While tokens are staked, bringing the reward per token up to date releases the reward of the
time that has passed, until the period is over. -/
theorem Books.updateReward (h : u.Books budget paid now) (hnow : now ≤ t)
    (hsupply : u.totalSupply ≠ 0) (hv : u.updateReward t = .ok v) :
    v.Books budget paid t ∧ v.remaining = u.remaining - (t - now) := by
  obtain ⟨r, hr, rfl⟩ := updateReward_ok hv
  obtain ⟨hzero, -⟩ | ⟨-, rfl⟩ := rewardPerToken_ok hr
  · exact absurd hzero hsupply
  obtain ⟨error, reserve, hsolvent, hbudget⟩ := h.backed
  have hclock := h.clock
  have hremaining : u.remaining =
      (min t u.periodFinish - u.lastUpdateTime) + (u.periodFinish - min t u.periodFinish) := by
    unfold remaining
    omega
  refine ⟨⟨h.supply, h.finish_pos, rfl, ?_⟩, ?_⟩
  · -- what a division leaves over stays with the reserve
    obtain ⟨released, hreleased⟩ :
        ∃ n, n = (min t u.periodFinish - u.lastUpdateTime) * u.rewardRate := ⟨_, rfl⟩
    have hdiv := Nat.div_mul_le_self (released * 10 ^ 18) u.totalSupply
    have hbalances : ∑ a, (u.perToken error reserve).stake a = u.totalSupply := h.supply
    refine ⟨released * 10 ^ 18 + error - released * 10 ^ 18 / u.totalSupply * u.totalSupply,
      reserve + released, ?_, ?_⟩
    · rw [← hreleased]
      refine hsolvent.distribute ?_
      rw [hbalances]
      change _ = released * 10 ^ 18 + error
      omega
    · rw [hremaining, Nat.mul_add, Nat.mul_comm u.rewardRate, ← hreleased] at hbudget
      change reserve + released + ∑ a, u.rewards a + paid +
        u.rewardRate * (u.periodFinish - min t u.periodFinish) = budget
      omega
  · change u.periodFinish - min t u.periodFinish = _
    unfold remaining
    omega

theorem updatePeriodFinish_ok (h : u.updatePeriodFinish t = .ok v) :
    (u.totalSupply ≠ 0 ∧ v = u) ∨
      (u.totalSupply = 0 ∧
        v = { u with periodFinish := u.periodFinish + (t - u.lastUpdateTime) }) := by
  unfold updatePeriodFinish at h
  split at h
  next hzero =>
    simp only [bind_ok, assertThat_ok, sub_ok, add_ok, pure_ok] at h
    obtain ⟨-, -, _, ⟨-, rfl⟩, _, ⟨-, rfl⟩, rfl⟩ := h
    exact .inr ⟨hzero, rfl⟩
  next hne => exact .inl ⟨hne, (Except.ok.inj h).symm⟩

/-- The time that has passed since the last call and counts. -/
def elapsed (u : Unipool) (now t : Nat) : Nat := if u.totalSupply = 0 then 0 else t - now

/-- `_updatePeriodFinish` followed by `_updateReward`: an empty pool moves the end of the period
along with the clock. -/
theorem Books.refresh {w : Unipool} (h : u.Books budget paid now) (hnow : now ≤ t)
    (hv : u.updatePeriodFinish t = .ok v) (hw : v.updateReward t = .ok w) :
    w.Books budget paid t ∧ w.remaining = u.remaining - u.elapsed now t := by
  obtain ⟨hne, rfl⟩ | ⟨hzero, rfl⟩ := updatePeriodFinish_ok hv
  · rw [elapsed, if_neg hne]
    exact h.updateReward hnow hne hw
  · obtain ⟨r, hr, rfl⟩ := updateReward_ok hw
    obtain ⟨-, rfl⟩ | ⟨hne, -⟩ := rewardPerToken_ok hr
    · obtain ⟨error, reserve, hsolvent, hbudget⟩ := h.backed
      have hclock := h.clock
      have hpos := h.finish_pos
      have hend : u.periodFinish + (t - u.lastUpdateTime) -
          min t (u.periodFinish + (t - u.lastUpdateTime)) = u.remaining := by
        unfold remaining
        omega
      refine ⟨⟨h.supply, ?_, rfl, error, reserve, hsolvent, ?_⟩, ?_⟩
      · change 0 < u.periodFinish + (t - u.lastUpdateTime)
        omega
      · unfold remaining
        simp only
        rw [hend]
        exact hbudget
      · rw [elapsed, if_pos hzero]
        exact hend
    · exact absurd hzero hne

/-! ## Accounts -/

/-- At the time of the last update, an account has earned what the stored values say. -/
theorem earned_ok {e : Nat} (hclock : u.lastUpdateTime = min t u.periodFinish)
    (h : u.earned t account = .ok e) :
    e = u.balances account * (u.rewardPerTokenStored - u.userRewardPerTokenPaid account) /
      10 ^ 18 + u.rewards account := by
  simp only [earned, bind_ok, sub_ok, mul_ok, div_ok, add_ok] at h
  obtain ⟨r, hr, _, ⟨-, rfl⟩, _, ⟨-, rfl⟩, _, ⟨-, rfl⟩, -, rfl⟩ := h
  obtain ⟨-, rfl⟩ | ⟨-, rfl⟩ := rewardPerToken_ok hr
  · rfl
  · rw [← hclock]
    simp

/-- What attributing an account's reward to it writes. -/
def attributed (account : Address) (u : Unipool) : Unipool :=
  { u with
    rewards := Function.update u.rewards account
      (u.balances account * (u.rewardPerTokenStored - u.userRewardPerTokenPaid account) / 10 ^ 18 +
        u.rewards account)
    userRewardPerTokenPaid :=
      Function.update u.userRewardPerTokenPaid account u.rewardPerTokenStored }

theorem updateAccountReward_ok (h : u.updateAccountReward t account = .ok v) :
    ∃ w, u.updateReward t = .ok w ∧ v = w.attributed account := by
  simp only [updateAccountReward, bind_ok, assertThat_ok, pure_ok] at h
  obtain ⟨w, hw, -, -, e, he, rfl⟩ := h
  obtain ⟨r, -, rfl⟩ := updateReward_ok hw
  exact ⟨_, hw, by rw [earned_ok rfl he, attributed]⟩

theorem Books.attributed (h : u.Books budget paid now) (account : Address) :
    (u.attributed account).Books budget paid now := by
  obtain ⟨error, reserve, hsolvent, hbudget⟩ := h.backed
  obtain ⟨share, hshare⟩ : ∃ n, n = (u.perToken error reserve).owed account / 10 ^ 18 := ⟨_, rfl⟩
  refine ⟨h.supply, h.finish_pos, h.clock, error, reserve - share, ?_, ?_⟩
  · refine hsolvent.settle (by decide) account (fun a ha => ⟨rfl, ?_⟩) rfl rfl ?_ (hshare ▸ rfl)
    · exact Function.update_of_ne ha _ _
    · exact Function.update_self _ _ _
  · -- the share moves from the reserve to the account
    have hreserve : share ≤ reserve := by
      rw [hshare]
      exact (le_sum (fun a => (u.perToken error reserve).owed a / 10 ^ 18) account).trans
        (hsolvent.sum_share_le (by decide))
    have hsum := sum_update_add (fun n => n) u.rewards account (share + u.rewards account)
    have hrewards : (u.attributed account).rewards =
        Function.update u.rewards account (share + u.rewards account) := by
      rw [hshare]
      rfl
    rw [hrewards]
    change reserve - share + _ + paid + u.rewardRate * u.remaining = budget
    omega

/-- The balance of an account whose reward is up to date may change. -/
theorem Books.setBalance (h : u.Books budget paid now) {balance totalSupply : Nat}
    (hcurrent : u.userRewardPerTokenPaid account = u.rewardPerTokenStored)
    (hsupply : totalSupply + u.balances account = u.totalSupply + balance) :
    Books budget paid now
      { u with totalSupply, balances := Function.update u.balances account balance } := by
  obtain ⟨error, reserve, hsolvent, hbudget⟩ := h.backed
  have hsum := sum_update_add (fun n => n) u.balances account balance
  have hbalances := h.supply
  refine ⟨?_, h.finish_pos, h.clock, error, reserve, ?_, hbudget⟩
  · change ∑ a, Function.update u.balances account balance a = totalSupply
    omega
  · have howed : (u.perToken error reserve).owed account / 10 ^ 18 = 0 := by
      simp [Accumulator.owed, perToken, hcurrent]
    refine hsolvent.settle (by decide) account (fun a ha => ⟨?_, rfl⟩) rfl rfl hcurrent ?_
    · exact Function.update_of_ne ha _ _
    · rw [howed]
      rfl

/-- Paying an account its attributed reward. -/
theorem Books.pay (h : u.Books budget paid now) (account : Address) :
    Books budget (paid + u.rewards account) now
      { u with rewards := Function.update u.rewards account 0 } := by
  obtain ⟨error, reserve, hsolvent, hbudget⟩ := h.backed
  have hsum := sum_update_add (fun n => n) u.rewards account 0
  refine ⟨h.supply, h.finish_pos, h.clock, error, reserve, hsolvent, ?_⟩
  change reserve + ∑ a, Function.update u.rewards account 0 a + (paid + u.rewards account) +
    u.rewardRate * u.remaining = budget
  omega

/-! ## Calls -/

section Calls

variable {tokens : PoolTokens} {sender : Address} {amount reward : Nat}

theorem stake_books (h : u.Books budget paid now) (hnow : now ≤ t)
    (hv : u.stake tokens t sender amount = .ok v) :
    v.Books budget paid t ∧ v.remaining = u.remaining - u.elapsed now t ∧
      v.rewardRate = u.rewardRate := by
  simp only [stake, LPTokenWrapper.stake, bind_ok, pure_ok, add_ok] at hv
  obtain ⟨-, -, -, -, u₁, hfinish, u₂, haccount, _, ⟨-, rfl⟩, _, ⟨-, rfl⟩, -, -, rfl⟩ := hv
  obtain ⟨u₃, hreward, rfl⟩ := updateAccountReward_ok haccount
  obtain ⟨hbooks, hremaining⟩ := h.refresh hnow hfinish hreward
  refine ⟨?_, hremaining, ?_⟩
  · refine (hbooks.attributed sender).setBalance ?_ ?_
    · simp [attributed]
    · rw [Nat.add_assoc, Nat.add_comm amount]
  · obtain ⟨-, -, rfl⟩ := updateReward_ok hreward
    obtain ⟨-, rfl⟩ | ⟨-, rfl⟩ := updatePeriodFinish_ok hfinish
    · rfl
    · rfl

/-- A withdrawal only succeeds while tokens are staked. -/
theorem withdraw_books (h : u.Books budget paid now) (hnow : now ≤ t)
    (hv : u.withdraw tokens t sender amount = .ok v) :
    v.Books budget paid t ∧ v.remaining = u.remaining - u.elapsed now t ∧
      v.rewardRate = u.rewardRate := by
  simp only [withdraw, LPTokenWrapper.withdraw, bind_ok, pure_ok, sub_ok, require_ok] at hv
  obtain ⟨-, hamount, -, -, u₂, haccount, _, ⟨hsupply, rfl⟩, _, ⟨hbalance, rfl⟩, -, -, rfl⟩ := hv
  obtain ⟨u₃, hreward, rfl⟩ := updateAccountReward_ok haccount
  have hne : u.totalSupply ≠ 0 := by
    obtain ⟨r, -, rfl⟩ := updateReward_ok hreward
    change amount ≤ u.totalSupply at hsupply
    omega
  obtain ⟨hbooks, hremaining⟩ := h.updateReward hnow hne hreward
  refine ⟨?_, ?_, ?_⟩
  · refine (hbooks.attributed sender).setBalance ?_ ?_
    · simp [attributed]
    · omega
  · rw [elapsed, if_neg hne]
    exact hremaining
  · obtain ⟨-, -, rfl⟩ := updateReward_ok hreward
    rfl

theorem claimReward_books (h : u.Books budget paid now) (hnow : now ≤ t)
    (hv : u.claimReward tokens t sender = .ok (reward, v)) :
    v.Books budget (paid + reward) t ∧ v.remaining = u.remaining - u.elapsed now t ∧
      v.rewardRate = u.rewardRate := by
  simp only [claimReward, bind_ok, pure_ok, Prod.mk.injEq] at hv
  obtain ⟨-, -, u₁, hfinish, u₂, haccount, e, hearned, -, -, -, -, rfl, rfl⟩ := hv
  obtain ⟨u₃, hreward, rfl⟩ := updateAccountReward_ok haccount
  obtain ⟨hbooks, hremaining⟩ := h.refresh hnow hfinish hreward
  have hbooks' := hbooks.attributed sender
  -- the account is up to date, so it earns exactly what is attributed to it
  have he : e = (u₃.attributed sender).rewards sender := by
    rw [earned_ok hbooks'.clock hearned]
    simp [attributed]
  refine ⟨he ▸ hbooks'.pay sender, hremaining, ?_⟩
  obtain ⟨-, -, rfl⟩ := updateReward_ok hreward
  obtain ⟨-, rfl⟩ | ⟨-, rfl⟩ := updatePeriodFinish_ok hfinish
  · rfl
  · rfl

theorem withdrawAndClaim_books (h : u.Books budget paid now) (hnow : now ≤ t)
    (hv : u.withdrawAndClaim tokens t sender = .ok (reward, v)) :
    v.Books budget (paid + reward) t ∧ v.remaining = u.remaining - u.elapsed now t ∧
      v.rewardRate = u.rewardRate := by
  simp only [withdrawAndClaim, bind_ok] at hv
  obtain ⟨w, hw, hv⟩ := hv
  obtain ⟨hbooks, hremaining, hrate⟩ := withdraw_books h hnow hw
  obtain ⟨hbooks', hremaining', hrate'⟩ := claimReward_books hbooks (Nat.le_refl t) hv
  refine ⟨hbooks', ?_, hrate'.trans hrate⟩
  -- no time passes between the two
  have hnone : w.elapsed t t = 0 := by simp [elapsed]
  rw [hremaining', hnone, hremaining]
  rfl

theorem perform_books {i : Invocation} (h : u.Books budget paid now) (hnow : now ≤ i.timestamp)
    (hv : u.perform i = .ok (reward, v)) :
    v.Books budget (paid + reward) i.timestamp ∧
      v.remaining = u.remaining - u.elapsed now i.timestamp ∧ v.rewardRate = u.rewardRate := by
  unfold perform at hv
  split at hv
  next amount hcall =>
    simp only [bind_ok, pure_ok, Prod.mk.injEq] at hv
    obtain ⟨w, hw, rfl, rfl⟩ := hv
    exact stake_books h hnow hw
  next amount hcall =>
    simp only [bind_ok, pure_ok, Prod.mk.injEq] at hv
    obtain ⟨w, hw, rfl, rfl⟩ := hv
    exact withdraw_books h hnow hw
  next hcall => exact withdrawAndClaim_books h hnow hv
  next hcall => exact claimReward_books h hnow hv

end Calls

/-! ## Reading the books later -/

/-- The views can be read at time `t`. -/
structure Readable (t : Nat) (u : Unipool) : Prop where
  clock : u.totalSupply ≠ 0 → u.lastUpdateTime ≤ min t u.periodFinish
  paid_le : ∀ a, u.userRewardPerTokenPaid a ≤ u.rewardPerTokenStored

theorem Books.readable (h : u.Books budget paid now) (hnow : now ≤ t) : u.Readable t := by
  obtain ⟨error, reserve, hsolvent, -⟩ := h.backed
  have hclock := h.clock
  exact ⟨fun _ => by omega, hsolvent.snapshot_le⟩

/-- An update of the reward per token leaves the views readable. -/
theorem Readable.updateReward (h : u.Readable t) (hv : u.updateReward t = .ok v) :
    v.Readable t := by
  obtain ⟨r, hr, rfl⟩ := updateReward_ok hv
  refine ⟨fun _ => Nat.le_refl _, fun a => (h.paid_le a).trans ?_⟩
  obtain ⟨-, rfl⟩ | ⟨-, rfl⟩ := rewardPerToken_ok hr
  · exact Nat.le_refl _
  · exact Nat.le_add_right _ _

/-- Moving the end of the period matters only to an empty pool, whose clock no view reads. -/
theorem Readable.updatePeriodFinish (h : u.Readable t) (hv : u.updatePeriodFinish t = .ok v) :
    v.Readable t := by
  obtain ⟨-, rfl⟩ | ⟨hzero, rfl⟩ := updatePeriodFinish_ok hv
  · exact h
  · exact ⟨fun hne => absurd hzero hne, h.paid_le⟩

theorem Readable.rewardPerToken_avoids (h : u.Readable t) :
    Avoids IsUnderflow (u.rewardPerToken t) := by
  unfold rewardPerToken
  split
  next => exact avoids_ok _
  next hne =>
    have hle : u.lastUpdateTime ≤ u.lastTimeRewardApplicable t := by
      rw [lastTimeRewardApplicable_eq]
      exact h.clock hne
    refine (avoids_checkedSub hle).bind fun elapsed _ => ?_
    refine (avoids_checkedMul (by decide)).bind fun reward _ => ?_
    refine (avoids_checkedMul (by decide)).bind fun scaled _ => ?_
    refine (avoids_checkedDiv (Nat.pos_of_ne_zero hne)).bind fun perToken _ => ?_
    exact avoids_checkedAdd (by decide)

theorem Readable.earned_avoids (h : u.Readable t) (account : Address) :
    Avoids IsUnderflow (u.earned t account) := by
  refine h.rewardPerToken_avoids.bind fun r hr => ?_
  have hle : u.userRewardPerTokenPaid account ≤ r := by
    obtain ⟨-, rfl⟩ | ⟨-, rfl⟩ := rewardPerToken_ok hr
    · exact h.paid_le account
    · exact (h.paid_le account).trans (Nat.le_add_right _ _)
  refine (avoids_checkedSub hle).bind fun perToken _ => ?_
  refine (avoids_checkedMul (by decide)).bind fun scaled _ => ?_
  refine (avoids_checkedDiv (by decide)).bind fun gain _ => ?_
  exact avoids_checkedAdd (by decide)

theorem Readable.updateAccountReward_avoids (h : u.Readable t) {account : Address}
    (haccount : account ≠ 0) : Avoids IsUnderflow (u.updateAccountReward t account) := by
  have hreward : Avoids IsUnderflow (u.updateReward t) :=
    h.rewardPerToken_avoids.bind fun r _ => avoids_ok _
  refine hreward.bind fun v hv => ?_
  refine (avoids_assertThat haccount).bind fun _ _ => ?_
  exact ((h.updateReward hv).earned_avoids account).bind fun e _ => avoids_ok _

theorem Books.updatePeriodFinish_avoids (h : u.Books budget paid now) (hnow : now ≤ t) :
    Avoids IsUnderflow (u.updatePeriodFinish t) := by
  unfold updatePeriodFinish
  split
  next =>
    have hclock := h.lastUpdateTime_le.1
    refine (avoids_assertThat h.finish_pos).bind fun _ _ => ?_
    refine (avoids_checkedSub (hclock.trans hnow)).bind fun idle _ => ?_
    exact (avoids_checkedAdd (by decide)).bind fun periodFinish _ => avoids_ok _
  next => exact avoids_ok _

/-- The updates at the start of `stake` and `claimReward`. -/
theorem Books.refresh_avoids (h : u.Books budget paid now) (hnow : now ≤ t)
    (haccount : account ≠ 0) :
    Avoids IsUnderflow (u.updatePeriodFinish t >>= updateAccountReward t account) :=
  (h.updatePeriodFinish_avoids hnow).bind fun _ hv =>
    ((h.readable hnow).updatePeriodFinish hv).updateAccountReward_avoids haccount

/-- What is attributed to the accounts, what updating them would attribute, and what was paid. -/
theorem Books.sum_owed_le (h : u.Books budget paid now) :
    paid + ∑ a, (u.balances a * (u.rewardPerTokenStored - u.userRewardPerTokenPaid a) / 10 ^ 18 +
      u.rewards a) ≤ budget := by
  obtain ⟨error, reserve, hsolvent, hbudget⟩ := h.backed
  have hshares : ∑ a, u.balances a * (u.rewardPerTokenStored - u.userRewardPerTokenPaid a) /
      10 ^ 18 ≤ reserve := hsolvent.sum_share_le (by decide)
  rw [Finset.sum_add_distrib]
  omega

theorem okOr_earned_le {r : Nat} (hr : u.rewardPerToken t = .ok r) (account : Address) :
    okOr (u.earned t account) 0 ≤
      u.balances account * (r - u.userRewardPerTokenPaid account) / 10 ^ 18 +
        u.rewards account := by
  cases hearned : u.earned t account with
  | error e => exact Nat.zero_le _
  | ok e =>
    simp only [earned, hr, bind_ok, Except.ok.injEq, sub_ok, mul_ok, div_ok, add_ok] at hearned
    obtain ⟨_, rfl, _, ⟨-, rfl⟩, _, ⟨-, rfl⟩, _, ⟨-, rfl⟩, -, rfl⟩ := hearned
    exact Nat.le_refl _

/-- At any later time, what all accounts have earned and what has been paid is covered by the
reward of the period. -/
theorem Books.sum_earned_le (h : u.Books budget paid now) (hnow : now ≤ t) :
    paid + ∑ a, okOr (u.earned t a) 0 ≤ budget := by
  cases hr : u.rewardPerToken t with
  | error e =>
    -- no account can be read, so none counts
    have hzero : ∀ a, okOr (u.earned t a) 0 = 0 := fun a => by
      simp only [earned, hr]
      rfl
    have howed := h.sum_owed_le
    simp only [hzero, Finset.sum_const_zero]
    omega
  | ok r =>
    have hle : ∑ a, okOr (u.earned t a) 0 ≤
        ∑ a, (u.balances a * (r - u.userRewardPerTokenPaid a) / 10 ^ 18 + u.rewards a) :=
      Finset.sum_le_sum fun a _ => okOr_earned_le hr a
    obtain ⟨-, rfl⟩ | ⟨hne, -⟩ := rewardPerToken_ok hr
    · have howed := h.sum_owed_le
      omega
    · -- the pool as a call at this time would find it after its update
      have hv : u.updateReward t = .ok { u with
          rewardPerTokenStored := r, lastUpdateTime := u.lastTimeRewardApplicable t } := by
        rw [Unipool.updateReward, hr]
        rfl
      have howed := (h.updateReward hnow hne hv).1.sum_owed_le
      change paid + ∑ a, (u.balances a * (r - u.userRewardPerTokenPaid a) / 10 ^ 18 +
        u.rewards a) ≤ budget at howed
      omega

/-! ## Runs -/

section Runs

variable {reward duration : Nat} {r r' : Run} {i : Invocation}

/-- The runs that start with `setParams` at some time. -/
def Reached (reward duration : Nat) : Run → Prop :=
  Lib.Reachable (Starts reward duration) Step fun _ _ => True

/-- The books of a run, with the time that its reward has been released for. -/
structure Run.Kept (reward duration : Nat) (r : Run) : Prop where
  rate : r.pool.rewardRate = reward / duration
  books : r.pool.Books (reward / duration * duration) r.paid r.now
  remaining : r.pool.remaining = duration - r.stakedTime

theorem Starts.kept (h : Starts reward duration r) (hduration : 0 < duration) :
    r.Kept reward duration := by
  obtain ⟨uniToken, hset, hstaked, hpaid⟩ := h
  simp only [setParams, notifyRewardAmount, bind_ok, assertThat_ok, div_ok, add_ok, pure_ok,
    Unipool.updateReward] at hset
  obtain ⟨-, -, -, -, -, -, u, ⟨_, hstored, rfl⟩, _, ⟨-, rfl⟩, _, ⟨-, rfl⟩, hpool⟩ := hset
  obtain ⟨-, rfl⟩ | ⟨hne, -⟩ := rewardPerToken_ok hstored
  · have hremaining : r.pool.remaining = duration := by
      rw [← hpool]
      change r.now + duration - r.now = duration
      omega
    refine ⟨by rw [← hpool], ?_, by rw [hremaining, hstaked, Nat.sub_zero]⟩
    constructor
    · rw [← hpool]
      simp [deployed]
    · rw [← hpool]
      change 0 < r.now + duration
      omega
    · rw [← hpool]
      change r.now = min r.now (r.now + duration)
      omega
    · refine ⟨0, 0, ?_, ?_⟩
      · rw [← hpool]
        constructor
        · intro a
          exact Nat.le_refl _
        · simp [perToken, deployed, Accumulator.owed]
      · rw [hremaining, hpaid, ← hpool]
        simp [deployed]
  · exact absurd rfl hne

theorem Step.kept (h : Step r i r') (hr : r.Kept reward duration) : r'.Kept reward duration := by
  obtain ⟨hnow, paid, u, hperform, rfl⟩ := h
  obtain ⟨hbooks, hremaining, hrate⟩ := perform_books hr.books hnow hperform
  refine ⟨hrate.trans hr.rate, hbooks, ?_⟩
  have hbefore := hr.remaining
  change u.remaining = duration - (r.stakedTime + r.pool.elapsed r.now i.timestamp)
  omega

theorem Reached.kept (h : Reached reward duration r) (hduration : 0 < duration) :
    r.Kept reward duration :=
  Lib.Reachable.invariant (Run.Kept reward duration) (fun _ h => h.kept hduration)
    (fun _ _ _ _ hr _ hs => hs.kept hr) h

/-- What holds of a run when its pool is read at time `t`. -/
structure Run.Sound (reward duration t : Nat) (r : Run) : Prop where
  earned_le : r.paid + ∑ a, okOr (r.pool.earned t a) 0 ≤ r.pool.rewardRate * duration
  rate_le : r.pool.rewardRate * duration ≤ reward
  /-- The clock has run for as long as tokens were staked, until the period was over. -/
  remaining : r.pool.periodFinish - r.pool.lastUpdateTime = duration - r.stakedTime
  /-- And so it does in each call. -/
  step : ∀ i r', Step r i r' → r'.pool.periodFinish - r'.pool.lastUpdateTime =
    r.pool.periodFinish - r.pool.lastUpdateTime -
      if r.pool.totalSupply = 0 then 0 else r'.now - r.now
  lastUpdateTime_le : r.pool.lastUpdateTime ≤ r.pool.periodFinish ∧ r.pool.lastUpdateTime ≤ r.now
  rewardPerToken : Avoids IsUnderflow (r.pool.rewardPerToken t)
  earned : ∀ a, Avoids IsUnderflow (r.pool.earned t a)
  updatePeriodFinish : Avoids IsUnderflow (r.pool.updatePeriodFinish t)
  /-- Nor do the subtractions fail inside a call, where the updates follow each other. -/
  updateAccountReward : ∀ a, a ≠ 0 → Avoids IsUnderflow (r.pool.updateAccountReward t a) ∧
    Avoids IsUnderflow (r.pool.updatePeriodFinish t >>= Unipool.updateAccountReward t a)
  supply : ∑ a, r.pool.balances a = r.pool.totalSupply

/-- After `setParams`, every run of calls is sound at its end and at any time from then on. -/
theorem rewards_sound {t : Nat} (h : Reached reward duration r) (hduration : 0 < duration)
    (ht : r.now ≤ t) : r.Sound reward duration t := by
  have hr := h.kept hduration
  have hclock := hr.books.lastUpdateTime_le
  have hread := hr.books.readable ht
  constructor
  case earned_le =>
    rw [hr.rate]
    exact hr.books.sum_earned_le ht
  case rate_le =>
    rw [hr.rate]
    exact Nat.div_mul_le_self _ _
  case remaining => exact hr.remaining
  case step =>
    rintro i r' ⟨hnow, paid, u, hperform, rfl⟩
    exact (perform_books hr.books hnow hperform).2.1
  case lastUpdateTime_le => exact ⟨hclock.2, hclock.1⟩
  case rewardPerToken => exact hread.rewardPerToken_avoids
  case earned => exact hread.earned_avoids
  case updatePeriodFinish => exact hr.books.updatePeriodFinish_avoids ht
  case updateAccountReward =>
    exact fun a ha => ⟨hread.updateAccountReward_avoids ha, hr.books.refresh_avoids ht ha⟩
  case supply => exact hr.books.supply

/-- The run right after a `setParams` call. -/
def sampleStart : Run where
  pool := { deployed with
    uniToken := 9, duration := 10, periodFinish := 110, rewardRate := 100, lastUpdateTime := 100 }
  now := 100
  stakedTime := 0
  paid := 0

/-- A first stake three seconds later. -/
def sampleStake : Invocation where
  call := .stake 4
  sender := 7
  timestamp := 103
  tokens := ⟨fun _ _ => .ok (), fun _ _ => .ok (), fun _ _ => .ok ()⟩

/-- The run after that stake, which has moved the end of the period. -/
def sampleStaked : Run where
  pool := { sampleStart.pool with
    totalSupply := 4
    balances := Function.update deployed.balances 7 4
    periodFinish := 113
    lastUpdateTime := 103
    userRewardPerTokenPaid := Function.update deployed.userRewardPerTokenPaid 7 0
    rewards := Function.update deployed.rewards 7 0 }
  now := 103
  stakedTime := 0
  paid := 0

/-- A claim five seconds after that. -/
def sampleClaim : Invocation := { sampleStake with call := .claimReward, timestamp := 108 }

/-- In that run the account is paid the reward of five seconds out of ten. -/
theorem rewards_sound_sample :
    ∃ r, Step sampleStaked sampleClaim r ∧ r.paid = 500 ∧ r.Sound 1000 10 120 := by
  have hstart : Reached 1000 10 sampleStart := .init ⟨9, rfl, rfl, rfl⟩
  have hstake : Step sampleStart sampleStake sampleStaked := ⟨by decide, 0, _, rfl, rfl⟩
  obtain ⟨⟨reward, u⟩, hperform, hreward⟩ :
      ∃ p, sampleStaked.pool.perform sampleClaim = .ok p ∧ p.1 = 500 := exists_ok (by decide +kernel)
  have hclaim : Step sampleStaked sampleClaim _ := ⟨by decide, reward, u, hperform, rfl⟩
  have hreached := Lib.Reachable.step (.step hstart trivial hstake) trivial hclaim
  have htime : sampleClaim.timestamp ≤ 120 := by decide
  exact ⟨_, hclaim, (Nat.zero_add reward).trans hreward,
    rewards_sound hreached (by decide) htime⟩

end Runs

end Unipool

end Liquity
