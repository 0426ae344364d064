import Liquity.Simulation.BorrowerOperations
import Liquity.Simulation.Offset

/-!
# Simulation: deposits

Every depositor operation issues LQTY and then replaces one deposit, together with the stake of the
front end it is tagged with.
-/

open Lib

namespace Liquity

open SafeMath LiquityMath TroveManager

variable {d : Deployment} {s s' : System} {ι : InFlight} {allow : Ledger → Label → Prop}
  {b f : Address}

namespace StabilityPool

variable {p p' : StabilityPool}

/-! ## Payments -/

theorem sendLQTY_ok {caller account : Address} {amount timestamp : Nat}
    (h : CommunityIssuance.sendLQTY d caller account amount timestamp s = .ok s') :
    ∃ lqtyToken, s' = { s with lqtyToken } := by
  simp only [CommunityIssuance.sendLQTY, bind_ok, System.onLQTYToken_ok] at h
  obtain ⟨-, -, t, -, rfl⟩ := h
  exact ⟨t, rfl⟩

theorem payOutLQTYGains_ok {timestamp : Nat} {depositor frontEnd : Address}
    (h : payOutLQTYGains d timestamp depositor frontEnd s = .ok s') :
    ∃ lqtyToken, s' = { s with lqtyToken } := by
  simp only [payOutLQTYGains, bind_ok] at h
  obtain ⟨s₁, h₁, gain, -, h⟩ := h
  have hfrontEnd : ∃ lqtyToken, s₁ = { s with lqtyToken } := by
    unfold payOutFrontEndLQTYGain at h₁
    split at h₁
    · obtain ⟨gain, -, h₁⟩ := bind_ok.mp h₁
      exact sendLQTY_ok h₁
    · cases h₁
      exact ⟨_, rfl⟩
  obtain ⟨token, rfl⟩ := hfrontEnd
  obtain ⟨token', rfl⟩ := sendLQTY_ok h
  exact ⟨token', rfl⟩

theorem sendETHGainToDepositor_ok (hd : d.Wired) (hb : d.External b) {amount : Nat}
    (h : sendETHGainToDepositor d b amount s = .ok s') :
    amount ≤ s.stabilityPool.ETH ∧ EtherKept d s s' ∧ ∃ ether, s' = { s with
      stabilityPool := { s.stabilityPool with ETH := s.stabilityPool.ETH - amount }, ether } := by
  unfold sendETHGainToDepositor at h
  split at h
  next hzero =>
    cases h
    subst hzero
    exact ⟨Nat.zero_le _, .refl s, _, rfl⟩
  next =>
    simp only [bind_ok, sub_ok, orRevert_ok] at h
    obtain ⟨_, ⟨hle, rfl⟩, h⟩ := h
    obtain ⟨ether, rfl, hkept⟩ := System.callValue_external hd.stabilityPool_ne_activePool hb h
    exact ⟨hle, hkept.congr rfl rfl rfl rfl, ether, rfl⟩

theorem sendLUSDToDepositor_ok {amount : Nat} (h : sendLUSDToDepositor d b amount s = .ok s') :
    amount ≤ s.lusdToken.balances d.stabilityPool ∧ amount ≤ s.stabilityPool.totalLUSDDeposits ∧
      s' = { s with
        lusdToken := { s.lusdToken with balances := move s.lusdToken.balances d.stabilityPool b amount }
        stabilityPool := { s.stabilityPool with
          totalLUSDDeposits := s.stabilityPool.totalLUSDDeposits - amount } } := by
  unfold sendLUSDToDepositor at h
  split at h
  next hzero =>
    cases h
    subst hzero
    simp
  next =>
    simp only [bind_ok, System.onLUSDToken_ok, System.onStabilityPool_ok, decreaseLUSD, pure_ok,
      sub_ok] at h
    obtain ⟨_, ⟨t, ht, rfl⟩, _, ⟨_, ⟨hle, rfl⟩, rfl⟩, rfl⟩ := h
    obtain ⟨hbalance, rfl⟩ := LUSDToken.returnFromPool_ok ht
    exact ⟨hbalance, hle, rfl⟩

theorem sendLUSDtoStabilityPool_ok {amount : Nat}
    (h : sendLUSDtoStabilityPool d b amount s = .ok s') :
    amount ≤ s.lusdToken.balances b ∧
      s' = { s with
        lusdToken := { s.lusdToken with balances := move s.lusdToken.balances b d.stabilityPool amount }
        stabilityPool := { s.stabilityPool with
          totalLUSDDeposits := s.stabilityPool.totalLUSDDeposits + amount } } := by
  simp only [sendLUSDtoStabilityPool, bind_ok, System.onLUSDToken_ok, pure_ok, add_ok] at h
  obtain ⟨_, ⟨t, ht, rfl⟩, _, ⟨-, rfl⟩, rfl⟩ := h
  obtain ⟨hbalance, rfl⟩ := LUSDToken.sendToPool_ok ht
  exact ⟨hbalance, rfl⟩

/-! ## Tags and stakes -/

/-- A depositor's tag is only written for a new deposit. -/
theorem tagNewDeposit_eq (p : StabilityPool) (b tag : Address) :
    p.tagNewDeposit b tag =
        p.setFrontEndTag b ((p.tagNewDeposit b tag).deposits b).frontEndTag ∧
      ((p.deposits b).initialValue ≠ 0 →
        (p.deposits b).frontEndTag = ((p.tagNewDeposit b tag).deposits b).frontEndTag) := by
  unfold tagNewDeposit
  split
  next hzero => simp [setFrontEndTag, hzero]
  next => simp [setFrontEndTag]

theorem setFrontEndTag_self (p : StabilityPool) (b : Address) :
    p.setFrontEndTag b (p.deposits b).frontEndTag = p := by
  simp [setFrontEndTag]

/-- What a depositor reads does not depend on tags. -/
theorem readDeposit_setFrontEndTag {initialDeposit : Nat} {reading : DepositReading}
    (h : (p.setFrontEndTag b f).readDeposit b initialDeposit = .ok reading) :
    p.getCompoundedLUSDDeposit b = .ok reading.compoundedLUSDDeposit ∧
      p.getDepositorETHGain b = .ok reading.depositorETHGain := by
  simp only [readDeposit, bind_ok, pure_ok] at h
  obtain ⟨gain, hgain, compounded, hcompounded, _, -, rfl⟩ := h
  have hinitial : ((p.setFrontEndTag b f).deposits b).initialValue = (p.deposits b).initialValue := by
    simp [setFrontEndTag]
  simp only [getCompoundedLUSDDeposit, getDepositorETHGain, hinitial] at hgain hcompounded ⊢
  exact ⟨hcompounded, hgain⟩

/-- Total and ether balance after the stake and the deposit were written. -/
theorem updates_total_ETH (p : StabilityPool) (b f : Address) (stake v : Nat) :
    let q := (p.setFrontEndTag b f).updateFrontEndStakeAndSnapshots f stake
    q.totalLUSDDeposits = p.totalLUSDDeposits ∧ q.ETH = p.ETH ∧
      (q.updateDepositAndSnapshots b v).totalLUSDDeposits = p.totalLUSDDeposits ∧
      (q.updateDepositAndSnapshots b v).ETH = p.ETH := by
  unfold updateDepositAndSnapshots updateFrontEndStakeAndSnapshots
  split <;> split <;> exact ⟨rfl, rfl, rfl, rfl⟩

/-- The order in which a deposit's total and value are written does not matter. -/
theorem updateDeposit_comm (p : StabilityPool) (depositor : Address) (v total ETH : Nat) :
    { { p with totalLUSDDeposits := total }.updateDepositAndSnapshots depositor v with ETH := ETH } =
      { p.updateDepositAndSnapshots depositor v with totalLUSDDeposits := total, ETH := ETH } := by
  unfold updateDepositAndSnapshots
  split <;> rfl

/-- A depositor operation that only pays out gains. -/
theorem redeposited_self (p : StabilityPool) (b : Address) (value stake paid : Nat) :
    p.redeposited b (p.deposits b).frontEndTag value stake p.totalLUSDDeposits paid =
      { (p.updateFrontEndStakeAndSnapshots (p.deposits b).frontEndTag
          stake).updateDepositAndSnapshots b value with
        ETH := ((p.updateFrontEndStakeAndSnapshots (p.deposits b).frontEndTag
          stake).updateDepositAndSnapshots b value).ETH - paid } := by
  rw [redeposited, setFrontEndTag_self]
  unfold updateDepositAndSnapshots updateFrontEndStakeAndSnapshots
  split <;> split <;> rfl

/-! ## Replacing a deposit -/

section Replace

variable {compounded compoundedStake paid : Nat}

/-- A depositor operation on the pool: the deposit is replaced and its gain paid out. -/
theorem redeposit_evolves (value stake total : Nat) (balances : Address → Nat)
    (hs : Sound d s ι) (hallow : allow (s.ledger ι) (.redeposit b f))
    (htag : (s.stabilityPool.deposits b).initialValue ≠ 0 →
      (s.stabilityPool.deposits b).frontEndTag = f)
    (hcompounded : s.stabilityPool.getCompoundedLUSDDeposit b = .ok compounded)
    (hstake : s.stabilityPool.getCompoundedFrontEndStake f = .ok compoundedStake)
    (hpaid : s.stabilityPool.getDepositorETHGain b = .ok paid)
    (hreserve : paid ≤ s.stabilityPool.ETH)
    (hstakeeq : stake + compounded = compoundedStake + value)
    (htotal : total + compounded = s.stabilityPool.totalLUSDDeposits + value)
    (hbalance : balances d.stabilityPool + s.stabilityPool.totalLUSDDeposits =
      s.lusdToken.balances d.stabilityPool + total)
    (hsum : ∑ a, balances a = ∑ a, s.lusdToken.balances a)
    (hgas : s.lusdToken.balances d.gasPool ≤ balances d.gasPool)
    (hether : EtherKept d s s')
    (heq : s' = { s with
      lqtyToken := s'.lqtyToken
      lusdToken := { s.lusdToken with balances }
      stabilityPool := s.stabilityPool.redeposited b f value stake total paid
      ether := s'.ether }) : Evolves d allow s ι s' ι := by
  have hlist : s'.sortedTroves = s.sortedTroves := by rw [heq]
  refine Evolves.move (?_ : Ledger.Move d _ (.redeposit b f) _) hallow (hlist ▸ hs.list) hether
  rw [heq]
  exact Ledger.Move.redeposit (L := s.ledger ι) htag hcompounded hstake hpaid hreserve hstakeeq htotal
    hbalance hsum hgas

end Replace

/-! ## Depositor functions -/

section Operations

variable (hd : d.Wired) (hs : Sound d s ι)

include hd hs

section Payments

variable {amount compounded compoundedStake gain : Nat} (token : LQTYToken) {s₁ : System}
  (hb : d.External b)

omit hs

include hb

/-- A deposit arrives, and the deposit and the stake of the front end grow by it. -/
theorem deposit_ok
    (h₁ : sendLUSDtoStabilityPool d b amount { s with
      lqtyToken := token
      stabilityPool := (s.stabilityPool.setFrontEndTag b f).updateFrontEndStakeAndSnapshots f
        (compoundedStake + amount) } = .ok s₁)
    (h : sendETHGainToDepositor d b gain
      { s₁ with
        stabilityPool := s₁.stabilityPool.updateDepositAndSnapshots b (compounded + amount) } =
        .ok s') :
    gain ≤ s.stabilityPool.ETH ∧ amount ≤ s.lusdToken.balances b ∧ EtherKept d s s' ∧ ∃ ether,
      s' = { s with
        lqtyToken := token
        lusdToken := { s.lusdToken with balances := move s.lusdToken.balances b d.stabilityPool amount }
        stabilityPool := s.stabilityPool.redeposited b f (compounded + amount)
          (compoundedStake + amount) (s.stabilityPool.totalLUSDDeposits + amount) gain
        ether } := by
  obtain ⟨hbalance, rfl⟩ := sendLUSDtoStabilityPool_ok h₁
  obtain ⟨hreserve, hkept, ether, rfl⟩ := sendETHGainToDepositor_ok hd hb h
  have hq := s.stabilityPool.updates_total_ETH b f (compoundedStake + amount) (compounded + amount)
  generalize hqeq : (s.stabilityPool.setFrontEndTag b f).updateFrontEndStakeAndSnapshots f
    (compoundedStake + amount) = q at *
  obtain ⟨htotal, hETH, -, hETH'⟩ := hq
  dsimp only at hreserve hbalance ⊢
  have hETH'' : ({ q with
      totalLUSDDeposits := q.totalLUSDDeposits + amount }.updateDepositAndSnapshots b
        (compounded + amount)).ETH = s.stabilityPool.ETH := by
    rw [← hETH']
    unfold updateDepositAndSnapshots
    split <;> rfl
  rw [hETH''] at hreserve
  refine ⟨hreserve, hbalance, hkept.congr rfl rfl rfl rfl, ether, ?_⟩
  rw [hETH'', updateDeposit_comm, htotal, redeposited, hqeq]

/-- A withdrawal leaves, and the deposit and the stake of the front end shrink by it. -/
theorem withdrawal_ok
    (h₁ : sendLUSDToDepositor d b amount { s with
      lqtyToken := token
      stabilityPool := (s.stabilityPool.setFrontEndTag b f).updateFrontEndStakeAndSnapshots f
        (compoundedStake - amount) } = .ok s₁)
    (h : sendETHGainToDepositor d b gain
      { s₁ with
        stabilityPool := s₁.stabilityPool.updateDepositAndSnapshots b (compounded - amount) } =
        .ok s') :
    gain ≤ s.stabilityPool.ETH ∧ amount ≤ s.lusdToken.balances d.stabilityPool ∧
      amount ≤ s.stabilityPool.totalLUSDDeposits ∧ EtherKept d s s' ∧ ∃ ether,
      s' = { s with
        lqtyToken := token
        lusdToken := { s.lusdToken with balances := move s.lusdToken.balances d.stabilityPool b amount }
        stabilityPool := s.stabilityPool.redeposited b f (compounded - amount)
          (compoundedStake - amount) (s.stabilityPool.totalLUSDDeposits - amount) gain
        ether } := by
  obtain ⟨hbalance, hcovered, rfl⟩ := sendLUSDToDepositor_ok h₁
  obtain ⟨hreserve, hkept, ether, rfl⟩ := sendETHGainToDepositor_ok hd hb h
  have hq := s.stabilityPool.updates_total_ETH b f (compoundedStake - amount) (compounded - amount)
  generalize hqeq : (s.stabilityPool.setFrontEndTag b f).updateFrontEndStakeAndSnapshots f
    (compoundedStake - amount) = q at *
  obtain ⟨htotal, hETH, -, hETH'⟩ := hq
  dsimp only at hreserve hbalance hcovered ⊢
  have hETH'' : ({ q with
      totalLUSDDeposits := q.totalLUSDDeposits - amount }.updateDepositAndSnapshots b
        (compounded - amount)).ETH = s.stabilityPool.ETH := by
    rw [← hETH']
    unfold updateDepositAndSnapshots
    split <;> rfl
  rw [hETH''] at hreserve
  rw [htotal] at hcovered
  refine ⟨hreserve, hbalance, hcovered, hkept.congr rfl rfl rfl rfl, ether, ?_⟩
  rw [hETH'', updateDeposit_comm, htotal, redeposited, hqeq]

variable (hallow : allow (s.ledger ι) (.redeposit b f))
  (htag : (s.stabilityPool.deposits b).initialValue ≠ 0 →
    (s.stabilityPool.deposits b).frontEndTag = f)
  (hcompounded : s.stabilityPool.getCompoundedLUSDDeposit b = .ok compounded)
  (hstake : s.stabilityPool.getCompoundedFrontEndStake f = .ok compoundedStake)
  (hgain : s.stabilityPool.getDepositorETHGain b = .ok gain)

include hs hallow htag hcompounded hstake hgain

theorem deposit_evolves
    (h₁ : sendLUSDtoStabilityPool d b amount { s with
      lqtyToken := token
      stabilityPool := (s.stabilityPool.setFrontEndTag b f).updateFrontEndStakeAndSnapshots f
        (compoundedStake + amount) } = .ok s₁)
    (h : sendETHGainToDepositor d b gain
      { s₁ with
        stabilityPool := s₁.stabilityPool.updateDepositAndSnapshots b (compounded + amount) } =
        .ok s') :
    Evolves d allow s ι s' ι := by
  obtain ⟨hreserve, hbalance, hkept, ether, rfl⟩ := deposit_ok hd token hb h₁ h
  refine redeposit_evolves (compounded + amount) (compoundedStake + amount)
    (s.stabilityPool.totalLUSDDeposits + amount) (move s.lusdToken.balances b d.stabilityPool amount)
    hs hallow htag hcompounded hstake hgain hreserve ?_ ?_ ?_ (sum_move hbalance)
    (le_move hb.ne_gasPool.symm) hkept rfl
  · omega
  · omega
  · rw [move_target hb.ne_stabilityPool]
    omega

theorem withdrawal_evolves (hle : amount ≤ compounded) (hle' : amount ≤ compoundedStake)
    (h₁ : sendLUSDToDepositor d b amount { s with
      lqtyToken := token
      stabilityPool := (s.stabilityPool.setFrontEndTag b f).updateFrontEndStakeAndSnapshots f
        (compoundedStake - amount) } = .ok s₁)
    (h : sendETHGainToDepositor d b gain
      { s₁ with
        stabilityPool := s₁.stabilityPool.updateDepositAndSnapshots b (compounded - amount) } =
        .ok s') :
    Evolves d allow s ι s' ι := by
  obtain ⟨hreserve, hbalance, hcovered, hkept, ether, rfl⟩ := withdrawal_ok hd token hb h₁ h
  refine redeposit_evolves (compounded - amount) (compoundedStake - amount)
    (s.stabilityPool.totalLUSDDeposits - amount) (move s.lusdToken.balances d.stabilityPool b amount)
    hs hallow htag hcompounded hstake hgain hreserve ?_ ?_ ?_ (sum_move hbalance)
    (le_move hd.gasPool_ne_stabilityPool) hkept rfl
  · omega
  · omega
  · rw [move_source hb.ne_stabilityPool.symm]
    omega

end Payments

variable (hplain : ∀ L, allow L .plain)

include hplain

theorem provideToSP_evolves {env : Env} (hb : d.External env.sender) {amount : Nat} {tag : Address}
    (hredeposit : ∀ L, s.stabilityPool.Issued L.sp →
      allow L (.redeposit env.sender ((L.sp.tagNewDeposit env.sender tag).deposits
        env.sender).frontEndTag))
    (h : provideToSP d env amount tag s = .ok s') : Evolves d allow s ι s' ι := by
  simp only [provideToSP, bind_ok, add_ok] at h
  obtain ⟨-, -, -, -, -, -, s₁, h₁, reading, hreading, s₂, h₂, stake, hstake, _, ⟨-, rfl⟩, s₃, h₃, _,
    ⟨-, rfl⟩, h₄⟩ := h
  have e : Evolves d allow s ι s₁ ι := triggerLQTYIssuance_evolves hs hplain h₁
  have hissued : s.stabilityPool.Issued s₁.stabilityPool := by
    obtain ⟨issuance, _, sp, hsp, rfl⟩ := triggerLQTYIssuance_ok h₁
    exact (updateG_ok hsp).1
  have hallow := hredeposit (s₁.ledger ι) hissued
  -- the tag is written before the readings, which do not depend on it
  obtain ⟨htagged, htag⟩ := s₁.stabilityPool.tagNewDeposit_eq env.sender tag
  change allow _ (.redeposit _ ((s₁.stabilityPool.tagNewDeposit env.sender tag).deposits
    env.sender).frontEndTag) at hallow
  generalize ((s₁.stabilityPool.tagNewDeposit env.sender tag).deposits env.sender).frontEndTag =
    frontEnd at *
  rw [htagged] at hreading h₂
  obtain ⟨hcompounded, hgain⟩ := readDeposit_setFrontEndTag hreading
  obtain ⟨token, rfl⟩ := payOutLQTYGains_ok h₂
  exact e.trans (deposit_evolves hd (e.sound hd hs) token hb hallow htag hcompounded hstake hgain h₃ h₄)

theorem withdrawFromSP_evolves {env : Env} (hb : d.External env.sender) {amount : Nat}
    (hredeposit : ∀ L, s.stabilityPool.Issued L.sp →
      allow L (.redeposit env.sender (L.sp.deposits env.sender).frontEndTag))
    (h : withdrawFromSP d env amount s = .ok s') : Evolves d allow s ι s' ι := by
  simp only [withdrawFromSP, bind_ok, sub_ok] at h
  obtain ⟨-, -, -, -, s₁, h₁, reading, hreading, s₂, h₂, stake, hstake, _, ⟨hle', rfl⟩, s₃, h₃, _,
    ⟨hle, rfl⟩, h₄⟩ := h
  generalize LiquityMath.min amount reading.compoundedLUSDDeposit = withdrawn at *
  have e : Evolves d allow s ι s₁ ι := triggerLQTYIssuance_evolves hs hplain h₁
  have hissued : s.stabilityPool.Issued s₁.stabilityPool := by
    obtain ⟨issuance, _, sp, hsp, rfl⟩ := triggerLQTYIssuance_ok h₁
    exact (updateG_ok hsp).1
  have hallow : allow (s₁.ledger ι) (.redeposit _ (s₁.stabilityPool.deposits env.sender).frontEndTag) :=
    hredeposit (s₁.ledger ι) hissued
  obtain ⟨token, rfl⟩ := payOutLQTYGains_ok h₂
  rw [← setFrontEndTag_self s₁.stabilityPool env.sender] at hreading
  obtain ⟨hcompounded, hgain⟩ := readDeposit_setFrontEndTag hreading
  refine e.trans (withdrawal_evolves hd (e.sound hd hs) token hb hallow (fun _ => rfl)
    hcompounded hstake hgain hle hle' ?_ h₄)
  rw [setFrontEndTag_self]
  exact h₃

omit hd hplain in
/-- The gain leaves the pool's record and goes to `BorrowerOperations`. -/
theorem gainToTrove_evolves (hd : d.Wired) {compounded stake gain : Nat} (token : LQTYToken)
    (hallow : allow (s.ledger ι) (.redeposit b (s.stabilityPool.deposits b).frontEndTag))
    (hcompounded : s.stabilityPool.getCompoundedLUSDDeposit b = .ok compounded)
    (hstake : s.stabilityPool.getCompoundedFrontEndStake (s.stabilityPool.deposits b).frontEndTag =
      .ok stake)
    (hgain : s.stabilityPool.getDepositorETHGain b = .ok gain)
    (hreserve : gain ≤ s.stabilityPool.ETH) (hether : gain ≤ s.ether d.stabilityPool) :
    Evolves d allow s ι { s with
      lqtyToken := token
      stabilityPool := s.stabilityPool.redeposited b (s.stabilityPool.deposits b).frontEndTag
        compounded stake s.stabilityPool.totalLUSDDeposits gain
      ether := System.moveEther d.stabilityPool d.borrowerOperations gain s.ether } ι := by
  have hkept := EtherKept.moveEther hd.stabilityPool_ne_activePool
    hd.borrowerOperations_ne_activePool hether
  exact redeposit_evolves _ _ _ s.lusdToken.balances hs hallow (fun _ => rfl) hcompounded
    hstake hgain hreserve rfl rfl rfl rfl (Nat.le_refl _) (hkept.congr rfl rfl rfl rfl) rfl

/-- The gain has left the pool when the trove is adjusted with it. -/
theorem withdrawETHGainToTrove_ok {env : Env} {upper lower : Address}
    (hredeposit : ∀ L, s.stabilityPool.Issued L.sp →
      allow L (.redeposit env.sender (L.sp.deposits env.sender).frontEndTag))
    (h : withdrawETHGainToTrove d env upper lower s = .ok s') :
    ∃ s₁ gain, Evolves d allow s ι s₁ ι ∧ s₁.troveManager = s.troveManager ∧
      s₁.activePool = s.activePool ∧ s₁.defaultPool = s.defaultPool ∧
      s.stabilityPool.getDepositorETHGain env.sender = .ok gain ∧
      (∃ p reading stake, s.stabilityPool.Issued p ∧
        p.readDeposit env.sender (s.stabilityPool.deposits env.sender).initialValue = .ok reading ∧
        s₁.stabilityPool = p.redeposited env.sender (p.deposits env.sender).frontEndTag
          reading.compoundedLUSDDeposit stake p.totalLUSDDeposits reading.depositorETHGain) ∧
      BorrowerOperations.adjustTroveInternal d { env with sender := d.stabilityPool, value := gain }
        ⟨env.sender, 0, 0, false, upper, lower, 0⟩ s₁ = .ok s' := by
  simp only [withdrawETHGainToTrove, bind_ok, sub_ok, require_ok] at h
  obtain ⟨-, -, -, -, -, -, s₁, h₁, reading, hreading, s₂, h₂, stake, hstake, _, ⟨hreserve, rfl⟩, -,
    hether, h₃⟩ := h
  have e : Evolves d allow s ι s₁ ι := triggerLQTYIssuance_evolves hs hplain h₁
  obtain ⟨issuance, communityIssuance, sp, hsp, rfl⟩ := triggerLQTYIssuance_ok h₁
  have hissued := (updateG_ok hsp).1
  have hallow := hredeposit (System.ledger { s with communityIssuance, stabilityPool := sp } ι) hissued
  obtain ⟨token, rfl⟩ := payOutLQTYGains_ok h₂
  dsimp only at hreading hstake hreserve hether h₃
  have hread := hreading
  rw [← setFrontEndTag_self sp env.sender] at hreading
  obtain ⟨hcompounded, hgain⟩ := readDeposit_setFrontEndTag hreading
  have hq := sp.updates_total_ETH env.sender (sp.deposits env.sender).frontEndTag stake
    reading.compoundedLUSDDeposit
  rw [setFrontEndTag_self] at hq
  rw [hq.2.2.2] at hreserve
  have e₂ := gainToTrove_evolves (e.sound hd hs) hd token hallow hcompounded hstake
    hgain hreserve hether
  simp only [BorrowerOperations.moveETHGainToTrove, bind_ok] at h₃
  obtain ⟨-, -, h₃⟩ := h₃
  -- the gain is the same before and after the issuance of LQTY
  have hgain₀ : s.stabilityPool.getDepositorETHGain env.sender = .ok reading.depositorETHGain := by
    obtain ⟨error, G, rfl⟩ := hissued
    exact hgain
  rw [← redeposited_self] at h₃
  exact ⟨_, _, e.trans e₂, rfl, rfl, rfl, hgain₀, ⟨sp, reading, stake, hissued, hread, rfl⟩, h₃⟩

theorem withdrawETHGainToTrove_evolves {env : Env} (hb : d.External env.sender)
    {upper lower : Address}
    (hredeposit : ∀ L, s.stabilityPool.Issued L.sp →
      allow L (.redeposit env.sender (L.sp.deposits env.sender).frontEndTag))
    (hrestake : ∀ L coll gain, s.stabilityPool.getDepositorETHGain env.sender = .ok gain →
      RewardsKept s.troveManager L.tm → (L.tm.troves env.sender).status = .active →
      L.tm.L_ETH ≤ (L.tm.rewardSnapshots env.sender).ETH →
      BorrowerOperations.applyChange (BorrowerOperations.getCollChange gain 0).2
        (L.tm.troves env.sender).coll (BorrowerOperations.getCollChange gain 0).1 = .ok coll →
      allow L (.restake env.sender coll))
    (h : withdrawETHGainToTrove d env upper lower s = .ok s') : Evolves d allow s ι s' ι := by
  obtain ⟨s₁, gain, e, htm, -, -, hgain, -, h⟩ := withdrawETHGainToTrove_ok hd hs hplain hredeposit h
  refine e.trans (BorrowerOperations.adjustTroveInternal_evolves hd (e.sound hd hs) hplain hb ?_ h)
  intro L coll hkept hactive hsettled hcoll
  rw [htm] at hkept
  exact hrestake L coll gain hgain hkept hactive hsettled hcoll

omit hd in
theorem registerFrontEnd_evolves {env : Env} {kickbackRate : Nat}
    (h : registerFrontEnd env kickbackRate s = .ok s') : Evolves d allow s ι s' ι := by
  simp only [registerFrontEnd, requireFrontEndNotRegistered, requireValidKickbackRate, bind_ok,
    require_ok, pure_ok] at h
  obtain ⟨-, hunregistered, -, -, -, hvalid, rfl⟩ := h
  exact .move (.registerFrontEnd (L := s.ledger ι) hunregistered hvalid) (hplain _) hs.list
    (.of_eq rfl rfl)

end Operations

end StabilityPool

end Liquity
