import Liquity.Frame
import Liquity.Lib.Accumulator
import Liquity.Simulation.Liquidation
import Liquity.Simulation.Redemption

/-!
# What the staking contract and the surplus pool owe

`StakingSolvent` and `SurplusBacked` say that the two contracts hold what they owe.  `Keeps` is what
a step does for both, and `Footprint` adds that the Stability Pool and the LQTY it pays out are left
alone.  Inside a frame both hold trivially; the functions that book or pay something are treated one
by one.
-/

open Lib

namespace Liquity

open SafeMath LiquityMath

/-! ## The invariants -/

/-- The stakers' claims to ether, with the ether behind them. -/
def LQTYStaking.ETHGains (l : LQTYStaking) (reserve : Nat) : Accumulator Address where
  stake := l.stakes
  snapshot a := (l.snapshots a).F_ETH_Snapshot
  value := l.F_ETH
  error := 0
  reserve := reserve

/-- The stakers' claims to LUSD, with the LUSD behind them. -/
def LQTYStaking.LUSDGains (l : LQTYStaking) (reserve : Nat) : Accumulator Address where
  stake := l.stakes
  snapshot a := (l.snapshots a).F_LUSD_Snapshot
  value := l.F_LUSD
  error := 0
  reserve := reserve

/-- All LUSD gains, scaled by the precision. -/
def LQTYStaking.owedLUSD (l : LQTYStaking) : Nat :=
  ∑ a, l.stakes a * (l.F_LUSD - (l.snapshots a).F_LUSD_Snapshot)

/-- The staking contract holds the staked LQTY and the gains of all stakers. -/
structure StakingSolvent (d : Deployment) (s : System) : Prop where
  total_eq : ∑ a, s.lqtyStaking.stakes a = s.lqtyStaking.totalLQTYStaked
  staked_le : s.lqtyStaking.totalLQTYStaked ≤ s.lqtyToken.balances d.lqtyStaking
  ETHGains : (s.lqtyStaking.ETHGains (s.ether d.lqtyStaking)).Solvent DECIMAL_PRECISION
  LUSDGains :
    (s.lqtyStaking.LUSDGains (s.lusdToken.balances d.lqtyStaking)).Solvent DECIMAL_PRECISION
  /-- Nobody stakes before the token is deployed. -/
  started : 0 < s.lqtyStaking.totalLQTYStaked → d.deploymentStartTime ≤ s.timestamp

/-- The surplus pool's record is the sum of all balances, up to `inFlight` that is booked but not yet
sent, and the ether is there. -/
structure SurplusBacked (d : Deployment) (inFlight : Nat) (s : System) : Prop where
  sum_eq : s.collSurplusPool.ETH + inFlight = ∑ a, s.collSurplusPool.balances a
  ether_le : s.collSurplusPool.ETH ≤ s.ether d.collSurplusPool

/-- No contract of the protocol lets others spend its LQTY, and the supply fits in a word. -/
structure LQTYToken.Restricted (d : Deployment) (t : LQTYToken) : Prop where
  allowances : ∀ a ∈ d.contracts, ∀ spender, t.allowances a spender = 0
  sum_lt : ∑ a, t.balances a < 2 ^ 256

/-- The step from `s` to `s'` keeps the invariants, while the surplus in flight goes from `n` to
`n'`.  The stakers' gains in LUSD only grow where `charged` holds. -/
structure Keeps (d : Deployment) (charged : Prop) (n n' : Nat) (s s' : System) : Prop where
  restricted : s.lqtyToken.Restricted d → s'.lqtyToken.Restricted d
  staking : StakingSolvent d s → StakingSolvent d s'
  surplus : SurplusBacked d n s → SurplusBacked d n' s'
  owedLUSD_le : ¬ charged → s'.lqtyStaking.owedLUSD ≤ s.lqtyStaking.owedLUSD

/-- `Keeps`, without a part of the Stability Pool or of the community issuance in the step. -/
structure Footprint (d : Deployment) (charged : Prop) (n n' : Nat) (s s' : System) : Prop extends
    Keeps d charged n n' s s' where
  stabilityPool : s'.stabilityPool = s.stabilityPool
  communityIssuance : s'.communityIssuance = s.communityIssuance
  issuance_le :
    s.lqtyToken.balances d.communityIssuance ≤ s'.lqtyToken.balances d.communityIssuance

variable {d : Deployment} {s s' s'' : System} {c : Prop} {n n' n'' : Nat} {b : Address}
  {amount : Nat}

theorem LQTYToken.Restricted.move {t : LQTYToken} (ht : t.Restricted d) {a : Address}
    (hle : amount ≤ t.balances a) :
    LQTYToken.Restricted d { t with balances := Lib.move t.balances a b amount } := by
  refine ⟨ht.allowances, ?_⟩
  rw [sum_move hle]
  exact ht.sum_lt

theorem Keeps.trans (h : Keeps d c n n' s s') (h' : Keeps d c n' n'' s' s'') : Keeps d c n n'' s s'' where
  restricted hs := h'.restricted (h.restricted hs)
  staking hs := h'.staking (h.staking hs)
  surplus hs := h'.surplus (h.surplus hs)
  owedLUSD_le hc := (h'.owedLUSD_le hc).trans (h.owedLUSD_le hc)

theorem Footprint.trans (h : Footprint d c n n' s s') (h' : Footprint d c n' n'' s' s'') :
    Footprint d c n n'' s s'' where
  toKeeps := h.toKeeps.trans h'.toKeeps
  stabilityPool := h'.stabilityPool.trans h.stabilityPool
  communityIssuance := h'.communityIssuance.trans h.communityIssuance
  issuance_le := h.issuance_le.trans h'.issuance_le

/-! ## Inside a frame -/

/-- The staking contract's claims do not change and its holdings do not shrink. -/
theorem StakingSolvent.mono (hs : StakingSolvent d s) (hstaking : s'.lqtyStaking = s.lqtyStaking)
    (hLQTY : s.lqtyToken.balances d.lqtyStaking ≤ s'.lqtyToken.balances d.lqtyStaking)
    (hether : s.ether d.lqtyStaking ≤ s'.ether d.lqtyStaking)
    (hLUSD : s.lusdToken.balances d.lqtyStaking ≤ s'.lusdToken.balances d.lqtyStaking)
    (htime : s.timestamp ≤ s'.timestamp) : StakingSolvent d s' := by
  constructor
  · rw [hstaking]
    exact hs.total_eq
  · rw [hstaking]
    exact hs.staked_le.trans hLQTY
  · rw [hstaking]
    exact hs.ETHGains.mono (Nat.le_refl _) hether
  · rw [hstaking]
    exact hs.LUSDGains.mono (Nat.le_refl _) hLUSD
  · rw [hstaking]
    exact fun hstaked => (hs.started hstaked).trans htime

theorem SurplusBacked.mono (hs : SurplusBacked d n s)
    (hpool : s'.collSurplusPool = s.collSurplusPool)
    (hether : s.ether d.collSurplusPool ≤ s'.ether d.collSurplusPool) : SurplusBacked d n s' := by
  constructor
  · rw [hpool]
    exact hs.sum_eq
  · rw [hpool]
    exact hs.ether_le.trans hether

theorem HoldingsKept.keeps (h : HoldingsKept d s s') : Keeps d c n n s s' where
  restricted hs := by
    constructor
    · rw [h.allowances]
      exact hs.allowances
    · rw [h.sum_lqty]
      exact hs.sum_lt
  staking hs := hs.mono h.lqtyStaking h.lqty_staking h.ether_staking h.lusd_staking
    (Nat.le_of_eq h.timestamp.symm)
  surplus hs := hs.mono h.collSurplusPool h.ether_surplus
  owedLUSD_le _ := by rw [h.lqtyStaking]

theorem Frame.footprint (h : Frame d s s') : Footprint d c n n s s' where
  toKeeps := h.toHoldingsKept.keeps
  stabilityPool := h.stabilityPool
  communityIssuance := h.communityIssuance
  issuance_le := by rw [h.lqtyToken]

theorem Footprint.refl (s : System) : Footprint d c n n s s := (Frame.refl s).footprint

/-! ## Fees for the stakers -/

namespace LQTYStaking

variable {l l' : LQTYStaking} {caller : Address} {fee perUnit : Nat}

theorem feePerLQTYStaked_ok (h : l.feePerLQTYStaked fee = .ok perUnit) :
    perUnit = fee * DECIMAL_PRECISION / l.totalLQTYStaked := by
  unfold feePerLQTYStaked at h
  split at h
  · simp only [bind_ok, mul_ok, div_ok] at h
    obtain ⟨_, ⟨-, rfl⟩, -, rfl⟩ := h
    rfl
  next hnone =>
    cases h
    rw [Nat.eq_zero_of_not_pos hnone, Nat.div_zero]

theorem increaseF_ETH_ok (h : increaseF_ETH d caller fee l = .ok l') :
    l' = { l with F_ETH := l.F_ETH + fee * DECIMAL_PRECISION / l.totalLQTYStaked } := by
  simp only [increaseF_ETH, bind_ok, pure_ok, add_ok] at h
  obtain ⟨-, -, _, hfee, _, ⟨-, rfl⟩, rfl⟩ := h
  rw [feePerLQTYStaked_ok hfee]

theorem increaseF_LUSD_ok (h : increaseF_LUSD d caller fee l = .ok l') :
    l' = { l with F_LUSD := l.F_LUSD + fee * DECIMAL_PRECISION / l.totalLQTYStaked } := by
  simp only [increaseF_LUSD, bind_ok, pure_ok, add_ok] at h
  obtain ⟨-, -, _, hfee, _, ⟨-, rfl⟩, rfl⟩ := h
  rw [feePerLQTYStaked_ok hfee]

/-! The claims to one asset do not depend on the fee sum of the other. -/

theorem ETHGains_of_F_LUSD (l : LQTYStaking) (F_LUSD reserve : Nat) :
    ETHGains { l with F_LUSD } reserve = l.ETHGains reserve := rfl

theorem LUSDGains_of_F_ETH (l : LQTYStaking) (F_ETH reserve : Nat) :
    LUSDGains { l with F_ETH } reserve = l.LUSDGains reserve := rfl

theorem owedLUSD_of_F_ETH (l : LQTYStaking) (F_ETH : Nat) :
    owedLUSD { l with F_ETH } = l.owedLUSD := rfl

section Gains

variable {precision reserve : Nat} (htotal : ∑ a, l.stakes a = l.totalLQTYStaked) (fee : Nat)

include htotal

theorem ETHGains_increase (h : (l.ETHGains reserve).Solvent precision) :
    (ETHGains { l with F_ETH := l.F_ETH + fee * precision / l.totalLQTYStaked }
      (reserve + fee)).Solvent precision :=
  h.distribute_floor fee htotal rfl rfl

theorem LUSDGains_increase (h : (l.LUSDGains reserve).Solvent precision) :
    (LUSDGains { l with F_LUSD := l.F_LUSD + fee * precision / l.totalLQTYStaked }
      (reserve + fee)).Solvent precision :=
  h.distribute_floor fee htotal rfl rfl

end Gains

end LQTYStaking

/-- Ether arrives and is shared out among the stakers. -/
theorem StakingSolvent.ETHFee (hs : StakingSolvent d s) (fee : Nat)
    (hstaking : s'.lqtyStaking = { s.lqtyStaking with
      F_ETH := s.lqtyStaking.F_ETH + fee * DECIMAL_PRECISION / s.lqtyStaking.totalLQTYStaked })
    (hether : s'.ether d.lqtyStaking = s.ether d.lqtyStaking + fee)
    (hLUSD : s'.lusdToken = s.lusdToken) (hLQTY : s'.lqtyToken = s.lqtyToken)
    (htime : s'.timestamp = s.timestamp) : StakingSolvent d s' := by
  constructor
  · rw [hstaking]
    exact hs.total_eq
  · rw [hstaking, hLQTY]
    exact hs.staked_le
  · rw [hstaking, hether]
    exact LQTYStaking.ETHGains_increase hs.total_eq fee hs.ETHGains
  · rw [hstaking, hLUSD, LQTYStaking.LUSDGains_of_F_ETH]
    exact hs.LUSDGains
  · rw [hstaking, htime]
    exact hs.started

/-- LUSD is minted for the stakers and shared out. -/
theorem StakingSolvent.LUSDFee (hs : StakingSolvent d s) (fee : Nat)
    (hstaking : s'.lqtyStaking = { s.lqtyStaking with
      F_LUSD := s.lqtyStaking.F_LUSD + fee * DECIMAL_PRECISION / s.lqtyStaking.totalLQTYStaked })
    (hLUSD : s'.lusdToken.balances d.lqtyStaking = s.lusdToken.balances d.lqtyStaking + fee)
    (hether : s'.ether = s.ether) (hLQTY : s'.lqtyToken = s.lqtyToken)
    (htime : s'.timestamp = s.timestamp) : StakingSolvent d s' := by
  constructor
  · rw [hstaking]
    exact hs.total_eq
  · rw [hstaking, hLQTY]
    exact hs.staked_le
  · rw [hstaking, hether, LQTYStaking.ETHGains_of_F_LUSD]
    exact hs.ETHGains
  · rw [hstaking, hLUSD]
    exact LQTYStaking.LUSDGains_increase hs.total_eq fee hs.LUSDGains
  · rw [hstaking, htime]
    exact hs.started

theorem BorrowerOperations.triggerBorrowingFee_footprint {timestamp LUSDAmount maxFee : Nat}
    {r : Nat × System} (hc : c)
    (h : BorrowerOperations.triggerBorrowingFee d timestamp LUSDAmount maxFee s = .ok r) :
    Footprint d c n n s r.2 := by
  simp only [BorrowerOperations.triggerBorrowingFee, bind_ok, pure_ok] at h
  obtain ⟨s₁, h₁, fee, -, -, -, s₂, h₂, s₃, h₃, rfl⟩ := h
  obtain ⟨l, hl, rfl⟩ := System.onLQTYStaking_ok.mp h₂
  obtain rfl := LQTYStaking.increaseF_LUSD_ok hl
  obtain ⟨t, ht, rfl⟩ := System.onLUSDToken_ok.mp h₃
  obtain ⟨-, rfl⟩ := LUSDToken.mint_ok ht
  refine (Frame.onTroveManager h₁).footprint.trans ?_
  exact { Footprint.refl (c := c) (n := n) s₁ with
    staking := fun hs => hs.LUSDFee fee rfl (Function.update_self ..) rfl rfl rfl
    owedLUSD_le := fun hno => absurd hc hno
    surplus := fun hs => hs.mono rfl (Nat.le_refl _) }

/-! ## Surpluses -/

/-- A surplus is booked. -/
theorem accountSurplus_footprint {caller : Address}
    (h : s.onCollSurplusPool (CollSurplusPool.accountSurplus d caller b amount) = .ok s') :
    Footprint d c n (n + amount) s s' := by
  obtain ⟨p, hp, rfl⟩ := System.onCollSurplusPool_ok.mp h
  simp only [CollSurplusPool.accountSurplus, bind_ok, pure_ok, add_ok] at hp
  obtain ⟨-, -, _, ⟨-, rfl⟩, rfl⟩ := hp
  refine { Footprint.refl (c := c) (n := n) s with
    staking := fun hs => hs.mono rfl (Nat.le_refl _) (Nat.le_refl _) (Nat.le_refl _) (Nat.le_refl _)
    surplus := fun hs => ⟨?_, hs.ether_le⟩ }
  have hsum := sum_update_add (fun m => m) s.collSurplusPool.balances b
    (s.collSurplusPool.balances b + amount)
  have heq := hs.sum_eq
  dsimp only
  omega

section Wired

variable (hd : d.Wired)

include hd

/-- A booked surplus is sent. -/
theorem sendSurplus_footprint {caller : Address}
    (h : ActivePool.sendETH d caller d.collSurplusPool amount s = .ok s') :
    Footprint d c (n + amount) n s s' := by
  have hether := ActivePool.sendETH_ether h
  obtain ⟨-, -, ether, rfl⟩ := ActivePool.sendETH_collSurplusPool hd h
  have hether : ether = move s.ether d.activePool d.collSurplusPool amount := hether
  subst hether
  refine { Footprint.refl (c := c) (n := n) s with
    staking := fun hs => hs.mono rfl (Nat.le_refl _) (le_move hd.lqtyStaking_ne_activePool)
      (Nat.le_refl _) (Nat.le_refl _)
    surplus := fun hs => ⟨?_, ?_⟩ }
  · have heq := hs.sum_eq
    dsimp only
    omega
  · have hle := hs.ether_le
    dsimp only
    rw [move_target hd.collSurplusPool_ne_activePool.symm]
    omega

namespace TroveManager

theorem liquidateNormalMode_footprint {LUSDInStabPool : Nat} {r : LiquidationValues × System}
    (h : liquidateNormalMode d b LUSDInStabPool s = .ok r) :
    Footprint d c n (n + r.1.collSurplus) s r.2 := by
  simp only [liquidateNormalMode, bind_ok, pure_ok] at h
  obtain ⟨entire, -, _, -, vals, -, s₁, h₁, rfl⟩ := h
  exact (closeLiquidatedTrove_frame hd h₁).footprint

theorem liquidateRecoveryMode_footprint {ICR LUSDInStabPool TCR price : Nat}
    {r : LiquidationValues × System}
    (h : liquidateRecoveryMode d b ICR LUSDInStabPool TCR price s = .ok r) :
    Footprint d c n (n + r.1.collSurplus) s r.2 := by
  unfold liquidateRecoveryMode at h
  split at h
  · cases h
    exact .refl s
  · simp only [bind_ok] at h
    obtain ⟨entire, -, _, -, h⟩ := h
    split at h
    · simp only [bind_ok, pure_ok] at h
      obtain ⟨s₁, h₁, rfl⟩ := h
      exact (closeLiquidatedTrove_frame hd h₁).footprint
    split at h
    · simp only [bind_ok, pure_ok] at h
      obtain ⟨vals, -, s₁, h₁, rfl⟩ := h
      exact (closeLiquidatedTrove_frame hd h₁).footprint
    split at h
    · simp only [bind_ok, pure_ok] at h
      obtain ⟨-, -, single, -, s₁, h₁, s₂, h₂, rfl⟩ := h
      refine (closeLiquidatedTrove_frame hd h₁).footprint.trans ?_
      unfold accountSurplus at h₂
      split at h₂
      · exact accountSurplus_footprint h₂
      next hnone =>
        cases h₂
        dsimp only
        rw [Nat.eq_zero_of_not_pos hnone]
        exact .refl _
    · obtain rfl := pure_ok.mp h
      exact .refl s

omit hd in
theorem addLiquidationValuesToTotals_surplus {t t' : LiquidationTotals} {v : LiquidationValues}
    (h : addLiquidationValuesToTotals t v = .ok t') :
    t'.totalCollSurplus = t.totalCollSurplus + v.collSurplus := by
  rw [addLiquidationValuesToTotals_ok h]

/-- What a liquidation loop has booked but not sent is its total of surpluses. -/
theorem loopStep_footprint {price : Nat} {recovery : Bool} {l l' : LoopState}
    (h : LoopStep d price recovery l l') :
    Footprint d c l.totals.totalCollSurplus l'.totals.totalCollSurplus l.system l'.system := by
  cases h with
  | normal mode hICR hlt hbody =>
    simp only [liquidateInNormalMode, bind_ok, pure_ok] at hbody
    obtain ⟨single, hsingle, _, -, totals, htotals, rfl⟩ := hbody
    dsimp only
    rw [addLiquidationValuesToTotals_surplus htotals]
    exact liquidateNormalMode_footprint hd hsingle
  | recovery mode hrecovering hICR hoffsettable hbody =>
    simp only [liquidateInRecoveryMode, bind_ok, pure_ok] at hbody
    obtain ⟨_, -, single, hsingle, _, -, _, -, _, -, _, -, _, -, totals, htotals, _, -, rfl⟩ := hbody
    dsimp only
    rw [addLiquidationValuesToTotals_surplus htotals]
    exact liquidateRecoveryMode_footprint hd hsingle

theorem loop_footprint {price : Nat} {recovery : Bool} {l l' : LoopState}
    (h : Relation.ReflTransGen (LoopStep d price recovery) l l') :
    Footprint d c l.totals.totalCollSurplus l'.totals.totalCollSurplus l.system l'.system := by
  induction h with
  | refl => exact .refl _
  | tail _ hstep ih => exact ih.trans (loopStep_footprint hd hstep)

theorem sendCollSurplus_footprint {collSurplus : Nat}
    (h : sendCollSurplus d collSurplus s = .ok s') : Footprint d c (n + collSurplus) n s s' := by
  unfold sendCollSurplus at h
  split at h
  · exact sendSurplus_footprint hd h
  next hnone =>
    cases h
    rw [Nat.eq_zero_of_not_pos hnone]
    exact .refl s

/-! ## Redemptions -/

theorem redeemFully_footprint {newColl : Nat} (h : redeemFully d b newColl s = .ok s') :
    Footprint d c n n s s' := by
  simp only [redeemFully, redeemCloseTrove, bind_ok] at h
  obtain ⟨s₁, h₁, s₂, h₂, s₃, h₃, s₄, h₄, s₅, h₅, h⟩ := h
  have hclosed := (Frame.onTroveManager (d := d) h₁).trans (closeTroveInternal_frame h₂)
  have hburned := (burn_frame hd.lqtyStaking_ne_gasPool h₃).trans (Frame.onActivePool h₄)
  -- booked and sent at once
  exact ((hclosed.trans hburned).footprint.trans (accountSurplus_footprint h₅)).trans
    (sendSurplus_footprint hd h)

theorem redeemCollateralFromTrove_footprint {maxLUSDamount price : Nat} {hints : RedemptionHints}
    {r : SingleRedemptionValues × System}
    (h : redeemCollateralFromTrove d b maxLUSDamount price hints s = .ok r) :
    Footprint d c n n s r.2 := by
  obtain ⟨_, _, -, -, -, -, -, -, ⟨-, -, h⟩ | ⟨_, -, -, ⟨-, h, -⟩ | ⟨-, -, -, h⟩⟩⟩ :=
    redeemCollateralFromTrove_ok h
  · exact redeemFully_footprint hd h
  · rw [h]
    exact .refl s
  · exact (redeemPartially_frame h).footprint

theorem redemptionLoop_footprint {price rounds maxIterations : Nat} {hints : RedemptionHints}
    {currentBorrower : Address} {r r' : RedemptionState}
    (h : redemptionLoop d price hints rounds currentBorrower maxIterations r = .ok r') :
    Footprint d c n n r.system r'.system := by
  induction rounds generalizing currentBorrower maxIterations r with
  | zero => cases h
  | succ rounds ih =>
    unfold redemptionLoop at h
    split at h
    · simp only [bind_ok] at h
      obtain ⟨s₁, h₁, single, h₂, h⟩ := h
      have hround := (applyPendingRewardsInternal_frame hd h₁).footprint.trans
        (redeemCollateralFromTrove_footprint (c := c) (n := n) hd h₂)
      split at h
      · cases h
        exact hround
      · simp only [bind_ok] at h
        obtain ⟨_, -, _, -, _, -, h⟩ := h
        exact hround.trans (ih h)
    · cases h
      exact .refl _

/-- The fee of a redemption goes to the stakers. -/
theorem sendFee_footprint {fee : Nat} {s₁ : System}
    (h₁ : ActivePool.sendETH d d.troveManager d.lqtyStaking fee s = .ok s₁)
    (h : s₁.onLQTYStaking (LQTYStaking.increaseF_ETH d d.troveManager fee) = .ok s') :
    Footprint d c n n s s' := by
  have hether := ActivePool.sendETH_ether h₁
  obtain ⟨-, -, ether, rfl⟩ := ActivePool.sendETH_lqtyStaking hd h₁
  have hether : ether = move s.ether d.activePool d.lqtyStaking fee := hether
  subst hether
  obtain ⟨l, hl, rfl⟩ := System.onLQTYStaking_ok.mp h
  obtain rfl := LQTYStaking.increaseF_ETH_ok hl
  exact { Footprint.refl (c := c) (n := n) s with
    staking := fun hs =>
      hs.ETHFee fee rfl (move_target hd.lqtyStaking_ne_activePool.symm) rfl rfl rfl
    owedLUSD_le := fun _ => (LQTYStaking.owedLUSD_of_F_ETH _ _).le
    surplus := fun hs => hs.mono rfl (le_move hd.collSurplusPool_ne_activePool) }

theorem settleRedemption_footprint {env : Env} {totalLUSDSupplyAtStart maxFeePercentage : Nat}
    {r : RedemptionState} (hb : d.External env.sender)
    (h : settleRedemption d env totalLUSDSupplyAtStart maxFeePercentage r = .ok s') :
    Footprint d c n n r.system s' := by
  simp only [settleRedemption, bind_ok] at h
  obtain ⟨-, -, s₁, h₁, fee, -, -, -, s₂, h₂, s₃, h₃, _, -, s₄, h₄, s₅, h₅, h⟩ := h
  refine ((Frame.onTroveManager h₁).footprint.trans (sendFee_footprint hd h₂ h₃)).trans ?_
  have hburned := (burn_frame hb.ne_lqtyStaking.symm h₄).trans (Frame.onActivePool h₅)
  exact (hburned.trans
    (sendETH_frame hd hb.ne_stabilityPool hb.ne_collSurplusPool h)).footprint

theorem redeemCollateral_footprint {env : Env} {LUSDamount maxIterations maxFeePercentage : Nat}
    {hints : RedemptionHints} (hb : d.External env.sender)
    (h : redeemCollateral d env LUSDamount hints maxIterations maxFeePercentage s = .ok s') :
    Footprint d c n n s s' := by
  simp only [redeemCollateral, bind_ok] at h
  obtain ⟨-, -, -, -, -, -, -, -, -, -, _, -, -, -, _, -, r, hr, h⟩ := h
  exact (redemptionLoop_footprint hd hr).trans (settleRedemption_footprint hd hb h)

end TroveManager

end Wired

end Liquity
