import Liquity.Properties.Batches
import Liquity.Properties.Liquidations
import Liquity.Properties.PendingRewards

/-!
# Bad entries of a liquidation batch

Nothing checks the array of `batchLiquidateTroves` in Normal Mode.  A trove that is not active has no
debt, so its ratio is the largest there is and the loop passes over it; a trove that the loop has
closed reads the same, so that a second entry for it is passed over too.  The loop of Recovery Mode
reads the status of every entry.  A call therefore liquidates no trove twice, and pays the gas reserve
of each trove that it closed once.
-/

open Lib

namespace Liquity

open SafeMath LiquityMath TroveManager

variable {d : Deployment} {s s' : System} {price : Nat} {l l' : LoopState} {b x : Address}

namespace TroveManager

variable {t : TroveManager}

/-! ## Entries of Normal Mode -/

/-- The loop of Normal Mode passes over `x`. -/
def PassedOver (price : Nat) (x : Address) (t : TroveManager) : Prop :=
  ∃ ICR, t.getCurrentICR x price = .ok ICR ∧ MCR ≤ ICR

/-- A trove without debt has the largest ratio. -/
theorem passedOver_of_inactive (hstatus : (t.troves x).status ≠ .active)
    (hcoll : (t.troves x).coll = 0) (hdebt : (t.troves x).debt = 0)
    (hETH : (t.rewardSnapshots x).ETH ≤ t.L_ETH)
    (hLUSD : (t.rewardSnapshots x).LUSDDebt ≤ t.L_LUSDDebt) : PassedOver price x t := by
  have hnone : ∀ {accumulator snapshot : Nat}, snapshot ≤ accumulator →
      pendingReward accumulator snapshot (t.troves x) = .ok 0 := by
    intro accumulator snapshot hle
    rw [pendingReward, sub_ok.mpr ⟨hle, rfl⟩, ok_bind, if_pos (.inr hstatus)]
    rfl
  have hamounts : t.getCurrentTroveAmounts x = .ok (0, 0) := by
    rw [getCurrentTroveAmounts, getPendingETHReward, getPendingLUSDDebtReward, hnone hETH,
      hnone hLUSD, hcoll, hdebt]
    rfl
  refine ⟨maxRatio, ?_, by decide⟩
  rw [getCurrentICR, hamounts]
  rfl

/-- So does the one that was just closed. -/
theorem passedOver_unregister_self (t : TroveManager) :
    PassedOver price b (t.unregister b .closedByLiquidation) := by
  have hself : (t.unregister b .closedByLiquidation).troves b = _ := unregister_troves_self
  refine passedOver_of_inactive ?_ ?_ ?_ ?_ ?_
  · rw [hself]
    exact nofun
  · rw [hself]
  · rw [hself]
  · simp [unregister]
  · simp [unregister]

/-- A liquidation makes no entry of the array worth liquidating that was not before. -/
theorem PassedOver.unregister (h : PassedOver price x t) :
    PassedOver price x (t.unregister b .closedByLiquidation) := by
  by_cases hx : x = b
  · subst hx
    exact passedOver_unregister_self t
  · obtain ⟨ICR, hICR, hge⟩ := h
    obtain ⟨hsame, hstatus⟩ : SameTrove t (t.unregister b .closedByLiquidation) x ∧ _ :=
      sameTrove_unregister hx
    exact ⟨ICR, (hsame.getCurrentICR hstatus rfl rfl price).trans hICR, hge⟩

/-! ## What the bodies of the loops touch -/

theorem liquidateInNormalMode_system (hd : d.Wired) (h : liquidateInNormalMode d b l = .ok l') :
    l'.system.troveManager = l.system.troveManager.unregister b .closedByLiquidation ∧
      l'.system.lusdToken = l.system.lusdToken := by
  simp only [liquidateInNormalMode, liquidateNormalMode, bind_ok, pure_ok] at h
  obtain ⟨_, ⟨entire, -, _, -, _, -, s₁, hclose, rfl⟩, _, -, totals, -, rfl⟩ := h
  obtain ⟨-, -, -, -, list, ether, -, rfl⟩ := closeLiquidatedTrove_ok hd hclose
  exact ⟨rfl, rfl⟩

theorem liquidateRecoveryMode_system (hd : d.Wired) {ICR LUSDInStabPool TCR : Nat}
    {r : LiquidationValues × System}
    (h : liquidateRecoveryMode d b ICR LUSDInStabPool TCR price s = .ok r) :
    (r.2.troveManager = s.troveManager ∨
      r.2.troveManager = s.troveManager.unregister b .closedByLiquidation) ∧
      r.2.lusdToken = s.lusdToken := by
  have hclosed : ∀ {entire s₁}, closeLiquidatedTrove d b entire s = .ok s₁ →
      s₁.troveManager = s.troveManager.unregister b .closedByLiquidation ∧
        s₁.lusdToken = s.lusdToken := by
    intro entire s₁ hclose
    obtain ⟨-, -, -, -, list, ether, -, rfl⟩ := closeLiquidatedTrove_ok hd hclose
    exact ⟨rfl, rfl⟩
  unfold liquidateRecoveryMode at h
  split at h
  · cases h
    exact ⟨.inl rfl, rfl⟩
  simp only [bind_ok] at h
  obtain ⟨entire, -, _, -, h⟩ := h
  split at h
  · simp only [bind_ok, pure_ok] at h
    obtain ⟨s₁, hclose, rfl⟩ := h
    exact ⟨.inr (hclosed hclose).1, (hclosed hclose).2⟩
  split at h
  · simp only [bind_ok, pure_ok] at h
    obtain ⟨_, -, s₁, hclose, rfl⟩ := h
    exact ⟨.inr (hclosed hclose).1, (hclosed hclose).2⟩
  split at h
  · simp only [bind_ok, pure_ok] at h
    obtain ⟨-, -, _, -, s₁, hclose, s₂, hsurplus, rfl⟩ := h
    obtain ⟨p, rfl, -⟩ := accountSurplus_ok hsurplus
    exact ⟨.inr (hclosed hclose).1, (hclosed hclose).2⟩
  · cases h
    exact ⟨.inl rfl, rfl⟩

theorem liquidateInRecoveryMode_system (hd : d.Wired) {ICR : Nat}
    (h : liquidateInRecoveryMode d price b ICR l = .ok l') :
    (l'.system.troveManager = l.system.troveManager ∨
      l'.system.troveManager = l.system.troveManager.unregister b .closedByLiquidation) ∧
      l'.system.lusdToken = l.system.lusdToken := by
  simp only [liquidateInRecoveryMode, bind_ok, pure_ok] at h
  obtain ⟨TCR, -, r, hr, _, -, _, -, _, -, _, -, _, -, totals, -, mode, -, rfl⟩ := h
  exact liquidateRecoveryMode_system hd hr

/-- The loops move no LUSD; that is left to the settlement. -/
theorem loopStep_lusdToken (hd : d.Wired) {recovery : Bool} (h : LoopStep d price recovery l l') :
    l'.system.lusdToken = l.system.lusdToken := by
  cases h with
  | normal _ _ _ hbody => exact (liquidateInNormalMode_system hd hbody).2
  | recovery _ _ _ _ hbody => exact (liquidateInRecoveryMode_system hd hbody).2

/-- Closing a trove opens none. -/
theorem inactive_unregister (h : (t.troves x).status ≠ .active) :
    ((t.unregister b .closedByLiquidation).troves x).status ≠ .active := by
  by_cases hx : x = b
  · subst hx
    rw [unregister_troves_self]
    exact nofun
  · rw [(sameTrove_unregister hx).2]
    exact h

/-! ## Normal Mode -/

theorem batchNormalModeLoop_passedOver (h : PassedOver price x l.system.troveManager)
    (rest : List Address) :
    batchNormalModeLoop d price (x :: rest) l = batchNormalModeLoop d price rest l := by
  obtain ⟨ICR, hICR, hge⟩ := h
  simp [batchNormalModeLoop, hICR, Nat.not_lt.mpr hge, bind, Except.bind]

/-- Once the loop is past `b`, it passes over `b` and over all that it would have passed over before. -/
theorem batchNormalModeLoop_congr (hd : d.Wired) {rest rest' : List Address}
    (h : ∀ l', PassedOver price b l'.system.troveManager →
      (∀ x, PassedOver price x l.system.troveManager → PassedOver price x l'.system.troveManager) →
      batchNormalModeLoop d price rest l' = batchNormalModeLoop d price rest' l') :
    batchNormalModeLoop d price (b :: rest) l = batchNormalModeLoop d price (b :: rest') l := by
  unfold batchNormalModeLoop
  cases hICR : l.system.troveManager.getCurrentICR b price with
  | error e => rfl
  | ok ICR =>
    by_cases hlt : ICR < MCR
    · cases hbody : liquidateInNormalMode d b l with
      | error e => simp [hlt, bind, Except.bind]
      | ok l' =>
        have htm := (liquidateInNormalMode_system hd hbody).1
        have hrest := h l' (htm ▸ passedOver_unregister_self _) fun x hx => htm ▸ hx.unregister
        simpa [hlt, bind, Except.bind, hbody] using hrest
    · have hrest := h l ⟨ICR, hICR, Nat.not_lt.mp hlt⟩ fun x hx => hx
      simpa [hlt, bind, Except.bind] using hrest

theorem batchNormalModeLoop_filter (hd : d.Wired) {keep : Address → Bool}
    (h : ∀ x, keep x = false → PassedOver price x l.system.troveManager) (troveArray : List Address) :
    batchNormalModeLoop d price troveArray l =
      batchNormalModeLoop d price (troveArray.filter keep) l := by
  induction troveArray generalizing l with
  | nil => rfl
  | cons b rest ih =>
    cases hkeep : keep b with
    | false =>
      rw [batchNormalModeLoop_passedOver (h b hkeep), List.filter_cons_of_neg (by simp [hkeep])]
      exact ih h
    | true =>
      rw [List.filter_cons_of_pos hkeep]
      exact batchNormalModeLoop_congr hd fun l' _ hkept => ih fun x hx => hkept x (h x hx)

theorem batchNormalModeLoop_eraseDups (hd : d.Wired) (troveArray : List Address) :
    batchNormalModeLoop d price troveArray l =
      batchNormalModeLoop d price troveArray.eraseDups l := by
  induction hlength : troveArray.length using Nat.strong_induction_on generalizing troveArray l with
  | _ n ih =>
    cases troveArray with
    | nil => rfl
    | cons b rest =>
      rw [List.eraseDups_cons]
      refine batchNormalModeLoop_congr hd fun l' hpassed _ => ?_
      -- the other entries for `b` go first, then the repetitions in what is left
      have hrest : batchNormalModeLoop d price rest l' =
          batchNormalModeLoop d price (rest.filter fun x => !x == b) l' := by
        refine batchNormalModeLoop_filter hd (fun x hx => ?_) rest
        obtain rfl : x = b := by simpa using hx
        exact hpassed
      rw [hrest]
      refine ih _ ?_ _ rfl
      have hle := List.length_filter_le (fun x => !x == b) rest
      rw [List.length_cons] at hlength
      omega

/-! ## Recovery Mode -/

theorem batchRecoveryModeLoop_congr (hd : d.Wired) {rest rest' : List Address}
    (h : ∀ l', (∀ x, (l.system.troveManager.troves x).status ≠ .active →
        (l'.system.troveManager.troves x).status ≠ .active) →
      batchRecoveryModeLoop d price rest l' = batchRecoveryModeLoop d price rest' l') :
    batchRecoveryModeLoop d price (b :: rest) l = batchRecoveryModeLoop d price (b :: rest') l := by
  have hsame := h l fun _ hx => hx
  unfold batchRecoveryModeLoop
  by_cases hactive : (l.system.troveManager.troves b).status = .active
  · cases l.system.troveManager.getCurrentICR b price with
    | error e => simp [hactive, bind, Except.bind]
    | ok ICR =>
      by_cases hback : l.vars.backToNormalMode = false
      · by_cases hskip : MCR ≤ ICR ∧ l.vars.remainingLUSDInStabPool = 0
        · simpa [hactive, hback, hskip, bind, Except.bind] using hsame
        · cases hbody : liquidateInRecoveryMode d price b ICR l with
          | error e => simp [hactive, hback, hskip, hbody, bind, Except.bind]
          | ok l' =>
            have hrest := h l' fun x hx => by
              rcases (liquidateInRecoveryMode_system hd hbody).1 with htm | htm
              · exact htm ▸ hx
              · exact htm ▸ inactive_unregister hx
            simpa [hactive, hback, hskip, hbody, bind, Except.bind] using hrest
      · by_cases hlt : ICR < MCR
        · cases hbody : liquidateInNormalMode d b l with
          | error e => simp [hactive, hback, hlt, bind, Except.bind]
          | ok l' =>
            have hrest := h l' fun x hx =>
              (liquidateInNormalMode_system hd hbody).1 ▸ inactive_unregister hx
            simpa [hactive, hback, hlt, hbody, bind, Except.bind] using hrest
        · simpa [hactive, hback, hlt, bind, Except.bind] using hsame
  · simpa [hactive] using hsame

theorem batchRecoveryModeLoop_filter (hd : d.Wired) {keep : Address → Bool}
    (h : ∀ x, keep x = false → (l.system.troveManager.troves x).status ≠ .active)
    (troveArray : List Address) :
    batchRecoveryModeLoop d price troveArray l =
      batchRecoveryModeLoop d price (troveArray.filter keep) l := by
  induction troveArray generalizing l with
  | nil => rfl
  | cons b rest ih =>
    cases hkeep : keep b with
    | false =>
      rw [List.filter_cons_of_neg (by simp [hkeep]), ← ih h, batchRecoveryModeLoop,
        if_pos (h b hkeep)]
    | true =>
      rw [List.filter_cons_of_pos hkeep]
      exact batchRecoveryModeLoop_congr hd fun l' hkept => ih fun x hx => hkept x (h x hx)

/-! ## The calls -/

theorem batchLiquidateTrovesTotals_filter (hd : d.Wired) {keep : Address → Bool}
    (hstatus : ∀ x, keep x = false → (s.troveManager.troves x).status ≠ .active)
    (hpassed : ∀ x, keep x = false → PassedOver price x s.troveManager) (troveArray : List Address) :
    batchLiquidateTrovesTotals d price troveArray s =
      batchLiquidateTrovesTotals d price (troveArray.filter keep) s := by
  unfold batchLiquidateTrovesTotals
  cases s.checkRecoveryMode price with
  | error e => rfl
  | ok recovery =>
    cases recovery with
    | false =>
      exact batchNormalModeLoop_filter (l := startNormalMode s.stabilityPool.totalLUSDDeposits s) hd
        hpassed troveArray
    | true =>
      simp only [getTotalFromBatchLiquidate_RecoveryMode, ok_bind, if_true]
      cases hstart : startRecoveryMode s.stabilityPool.totalLUSDDeposits s with
      | error e => rfl
      | ok l =>
        simp only [startRecoveryMode, bind_ok, pure_ok] at hstart
        obtain ⟨_, -, _, -, rfl⟩ := hstart
        exact batchRecoveryModeLoop_filter hd hstatus troveArray

theorem batchLiquidateTrovesTotals_eraseDups (hd : d.Wired)
    (hmode : s.checkRecoveryMode price = .ok false) (troveArray : List Address) :
    batchLiquidateTrovesTotals d price troveArray s =
      batchLiquidateTrovesTotals d price troveArray.eraseDups s := by
  unfold batchLiquidateTrovesTotals
  rw [hmode]
  exact batchNormalModeLoop_eraseDups hd troveArray

end TroveManager

/-- Arrays that tally the same are liquidated the same. -/
theorem batch_step_congr {env : Env} {troveArray troveArray' : List Address}
    (h : batchLiquidateTrovesTotals d env.price troveArray { s with timestamp := env.timestamp } =
      batchLiquidateTrovesTotals d env.price troveArray' { s with timestamp := env.timestamp }) :
    Step d s ⟨env, .batchLiquidateTroves troveArray⟩ s' ↔
      Step d s ⟨env, .batchLiquidateTroves troveArray'⟩ s' := by
  have hvalid : Transaction.Valid d ⟨env, .batchLiquidateTroves troveArray⟩ s ↔
      Transaction.Valid d ⟨env, .batchLiquidateTroves troveArray'⟩ s :=
    ⟨fun h => { h with }, fun h => { h with }⟩
  refine and_congr hvalid ?_
  rw [Call.execute_ok_iff rfl, Call.execute_ok_iff rfl]
  refine and_congr_right fun _ => ?_
  simp only [Call.body, batchLiquidateTroves_ok_iff, h]

/-! ## The gas compensation -/

/-- `gas` LUSD are paid out of the gas pool to the liquidator. -/
structure PaysGas (d : Deployment) (liquidator : Address) (gas : Nat) (s s' : System) : Prop where
  gasPool : s'.lusdToken.balances d.gasPool + gas = s.lusdToken.balances d.gasPool
  liquidator : s'.lusdToken.balances liquidator = s.lusdToken.balances liquidator + gas

theorem StabilityPool.offset_lusd (hd : d.Wired) {caller : Address} {debt coll timestamp : Nat}
    (h : offset d caller debt coll timestamp s = .ok s') (hx : x ≠ d.stabilityPool) :
    s'.lusdToken.balances x = s.lusdToken.balances x := by
  rcases offset_ok h with ⟨-, rfl⟩ | ⟨-, -, s₁, rewards, p, hs₁, -, -, h⟩
  · rfl
  · obtain ⟨issuance, communityIssuance, sp, -, rfl⟩ := triggerLQTYIssuance_ok hs₁
    simp only [moveOffsetCollAndDebt, bind_ok, System.onActivePool_ok, System.onStabilityPool_ok,
      System.onLUSDToken_ok] at h
    obtain ⟨_, ⟨a, -, rfl⟩, _, ⟨_, -, rfl⟩, _, ⟨t, ht, rfl⟩, h⟩ := h
    obtain ⟨-, -, ether, rfl⟩ := ActivePool.sendETH_stabilityPool hd h
    obtain ⟨-, -, rfl⟩ := LUSDToken.burn_ok ht
    exact Function.update_of_ne hx _ _

theorem redistributeDebtAndColl_lusd (hd : d.Wired) {debt coll : Nat}
    (h : redistributeDebtAndColl d debt coll s = .ok s') : s'.lusdToken = s.lusdToken := by
  unfold redistributeDebtAndColl at h
  split at h
  · cases h
    rfl
  · simp only [bind_ok, System.onActivePool_ok, System.onDefaultPool_ok] at h
    obtain ⟨_, -, _, -, _, -, _, -, _, ⟨p, -, rfl⟩, _, ⟨q, -, rfl⟩, h⟩ := h
    obtain ⟨-, -, ether, rfl⟩ := ActivePool.sendETH_defaultPool hd h
    rfl

theorem sendCollSurplus_lusd (hd : d.Wired) {collSurplus : Nat}
    (h : sendCollSurplus d collSurplus s = .ok s') : s'.lusdToken = s.lusdToken := by
  unfold sendCollSurplus at h
  split at h
  · obtain ⟨-, -, ether, rfl⟩ := ActivePool.sendETH_collSurplusPool hd h
    rfl
  · cases h
    rfl

theorem sendGasCompensation_pays {liquidator : Address} (hliquidator : d.External liquidator)
    {LUSD ETH : Nat} (h : sendGasCompensation d liquidator LUSD ETH s = .ok s') :
    PaysGas d liquidator LUSD s s' := by
  obtain ⟨s₁, h₁, h⟩ := bind_ok.mp h
  have hlusd : s'.lusdToken = s₁.lusdToken := by
    split at h
    · obtain ⟨-, -, ether, rfl⟩ := ActivePool.sendETH_external hliquidator h
      rfl
    · cases h
      rfl
  unfold sendLUSDGasCompensation at h₁
  split at h₁
  · obtain ⟨t, ht, rfl⟩ := System.onLUSDToken_ok.mp h₁
    obtain ⟨hle, rfl⟩ := LUSDToken.returnFromPool_ok ht
    constructor
    · rw [hlusd]
      dsimp only
      rw [move_source hliquidator.ne_gasPool.symm]
      omega
    · rw [hlusd]
      exact move_target hliquidator.ne_gasPool.symm
  next hzero =>
    cases h₁
    obtain rfl : LUSD = 0 := Nat.eq_zero_of_not_pos hzero
    exact ⟨by rw [hlusd, Nat.add_zero], by rw [hlusd, Nat.add_zero]⟩

/-- Of the five steps of the settlement only the last one moves LUSD of accounts other than the
Stability Pool. -/
theorem settleLiquidation_pays (hd : d.Wired) {env : Env} (hsender : d.External env.sender)
    {totals : LiquidationTotals} (h : settleLiquidation d env totals s = .ok s') :
    PaysGas d env.sender totals.totalLUSDGasCompensation s s' := by
  simp only [settleLiquidation, bind_ok] at h
  obtain ⟨_, -, s₁, h₁, s₂, h₂, s₃, h₃, s₄, h₄, -, -, -, -, h₅⟩ := h
  simp only [updateSystemSnapshots_excludeCollRemainder, bind_ok, pure_ok] at h₄
  obtain ⟨_, -, _, -, rfl⟩ := h₄
  have hpays := sendGasCompensation_pays hsender h₅
  have hlusd : s₃.lusdToken = s₁.lusdToken :=
    (sendCollSurplus_lusd hd h₃).trans (redistributeDebtAndColl_lusd hd h₂)
  have hgasPool := StabilityPool.offset_lusd hd h₁ hd.gasPool_ne_stabilityPool
  have hliquidator := StabilityPool.offset_lusd hd h₁ hsender.ne_stabilityPool
  constructor
  · rw [← hgasPool, ← hlusd]
    exact hpays.gasPool
  · rw [← hliquidator, ← hlusd]
    exact hpays.liquidator

/-! ## Every trove counts once -/

/-- The troves that a call closed, with their entire debt and collateral when it started. -/
structure ClosedBy (s s' : System) (closed : List (Address × EntireDebtAndColl)) : Prop where
  nodup : (closed.map Prod.fst).Nodup
  mem : ∀ x, x ∈ closed.map Prod.fst ↔ (s.troveManager.troves x).status = .active ∧
    (s'.troveManager.troves x).status = .closedByLiquidation
  entire : ∀ c ∈ closed, s.troveManager.getEntireDebtAndColl c.1 = .ok c.2

/-- The totals are those of `closed`, with one gas reserve for each trove. -/
structure Counts (totals : LiquidationTotals) (closed : List (Address × EntireDebtAndColl)) :
    Prop where
  gas : totals.totalLUSDGasCompensation = LUSD_GAS_COMPENSATION * closed.length
  debt : totals.totalDebtInSequence = (closed.map fun c => c.2.debt).sum
  coll : totals.totalCollInSequence = (closed.map fun c => c.2.coll).sum

theorem counts_append {totals : LiquidationTotals} {closed : List (Address × EntireDebtAndColl)}
    (h : Counts totals closed) {v : LiquidationValues} {entire : EntireDebtAndColl}
    (hgas : v.LUSDGasCompensation = LUSD_GAS_COMPENSATION) (hdebt : v.entireTroveDebt = entire.debt)
    (hcoll : v.entireTroveColl = entire.coll) (b : Address) :
    Counts (totals.plus v) (closed ++ [(b, entire)]) where
  gas := by
    rw [List.length_append, List.length_singleton, Nat.mul_add, Nat.mul_one, ← h.gas, ← hgas]
    rfl
  debt := by
    rw [List.map_append, List.sum_append, ← h.debt, List.map_singleton, List.sum_singleton, ← hdebt]
    rfl
  coll := by
    rw [List.map_append, List.sum_append, ← h.coll, List.map_singleton, List.sum_singleton, ← hcoll]
    rfl

/-- What a loop has liquidated, counted by the troves as they were when the call started. -/
theorem exists_counts {liquidated : List (Address × LiquidationValues)}
    (hgas : ∀ c ∈ liquidated, c.2.LUSDGasCompensation = LUSD_GAS_COMPENSATION)
    (hentire : ∀ c ∈ liquidated, Liquidatable price s c.1 c.2) :
    ∃ closed : List (Address × EntireDebtAndColl),
      closed.map Prod.fst = liquidated.map Prod.fst ∧
      (∀ c ∈ closed, s.troveManager.getEntireDebtAndColl c.1 = .ok c.2) ∧
      Counts (totalsOf liquidated) closed := by
  induction liquidated using List.reverseRecOn with
  | nil => exact ⟨[], rfl, fun _ hc => absurd hc List.not_mem_nil, ⟨rfl, rfl, rfl⟩⟩
  | append_singleton rest c ih =>
    obtain ⟨closed, hmap, hclosed, hcounts⟩ := ih
      (fun c hc => hgas c (List.mem_append_left _ hc))
      (fun c hc => hentire c (List.mem_append_left _ hc))
    have hlast : c ∈ rest ++ [c] := List.mem_append_right _ (List.mem_singleton_self c)
    obtain ⟨entire, hget, hdebt, hcoll⟩ := (hentire c hlast).entire
    refine ⟨closed ++ [(c.1, entire)], ?_, ?_, ?_⟩
    · rw [List.map_append, List.map_append, hmap]
      rfl
    · intro c' hc'
      rcases List.mem_append.mp hc' with hc' | hc'
      · exact hclosed c' hc'
      · obtain rfl : c' = (c.1, entire) := by simpa using hc'
        exact hget
    · rw [totalsOf, List.foldl_append]
      exact counts_append hcounts (hgas c hlast) hdebt hcoll c.1

/-- No loop of a liquidating call moves LUSD. -/
theorem Call.tally_lusdToken (hd : d.Wired) {env : Env} {call : Call}
    (h : call.tally d env s = some (.ok l)) : l.system.lusdToken = s.lusdToken := by
  obtain ⟨recovery, l₀, hstart, hsteps⟩ := call.tally_steps h
  have hsystem : l₀.system = s := by
    obtain ⟨-, hstart⟩ := hstart
    cases recovery with
    | true =>
      simp only [if_true, startRecoveryMode, bind_ok, pure_ok] at hstart
      obtain ⟨_, -, _, -, rfl⟩ := hstart
      rfl
    | false =>
      obtain rfl : l₀ = _ := hstart
      rfl
  clear h
  induction hsteps with
  | refl => rw [hsystem]
  | tail _ hstep ih => exact (loopStep_lusdToken hd hstep).trans ih

/-- A liquidating call counts every trove that it closes once: in its totals, and in the gas reserves
that it pays out. -/
theorem liquidation_counts (hd : d.Wired) (hr : Reachable d s) {t : Transaction}
    (hstep : Step d s t s')
    (hl : t.call.tally d t.env { s with timestamp := t.env.timestamp } = some (.ok l)) :
    ∃ closed : List (Address × EntireDebtAndColl), ClosedBy s s' closed ∧ Counts l.totals closed ∧
      PaysGas d t.env.sender (LUSD_GAS_COMPENSATION * closed.length) s s' := by
  have hs₀ : Sound d { s with timestamp := t.env.timestamp } .none := { hr.sound hd with }
  obtain ⟨-, hsettles, -⟩ := Step.settled hd hr hstep hl
  obtain ⟨recovery, liquidated, htrace, hgas⟩ := Call.tally_trace hd hs₀ hl
  obtain ⟨closed, hmap, hentire, hcounts⟩ := exists_counts hgas
    (fun c hc => (htrace.liquidated c hc).1)
  rw [← htrace.totals] at hcounts
  refine ⟨closed, ⟨hmap ▸ htrace.nodup, fun x => ?_, hentire⟩, hcounts, ?_⟩
  · rw [hmap, hsettles.troves]
    constructor
    · intro hx
      obtain ⟨c, hc, rfl⟩ := List.mem_map.mp hx
      obtain ⟨hliquidatable, hstatus, -⟩ := htrace.liquidated c hc
      exact ⟨hliquidatable.active, hstatus⟩
    · rintro ⟨hactive, hclosed⟩
      -- the status of every other trove is the one it had
      by_contra hx
      have hkept := (htrace.kept x hx).2.1
      rw [hclosed] at hkept
      exact absurd (hkept.trans hactive) nofun
  · obtain ⟨l', hl', hsettle⟩ := hstep.tallied hd hl
    cases hl'
    have hpays := settleLiquidation_pays hd hstep.1.external hsettle
    have hlusd : l.system.lusdToken = s.lusdToken :=
      Call.tally_lusdToken (s := { s with timestamp := t.env.timestamp }) hd hl
    rw [hcounts.gas] at hpays
    constructor
    · rw [← hlusd]
      exact hpays.gasPool
    · rw [← hlusd]
      exact hpays.liquidator

/-! ## Bad entries -/

/-- The entries of an array whose troves are active. -/
def activeEntries (s : System) (troveArray : List Address) : List Address :=
  troveArray.filter fun b => decide ((s.troveManager.troves b).status = .active)

/-- A batch liquidation has the same outcome without the entries whose troves are not active when it
starts and, in Normal Mode, without all but the first entry for each trove.  Whatever its array
holds, a successful call counts each trove that it closes once. -/
theorem bad_entries_harmless (hd : d.Wired) (hr : Reachable d s) (env : Env)
    (troveArray : List Address) :
    (∀ s', Step d s ⟨env, .batchLiquidateTroves troveArray⟩ s' ↔
      Step d s ⟨env, .batchLiquidateTroves (activeEntries s troveArray)⟩ s') ∧
    (s.checkRecoveryMode env.price = .ok false →
      ∀ s', Step d s ⟨env, .batchLiquidateTroves troveArray⟩ s' ↔
        Step d s ⟨env, .batchLiquidateTroves troveArray.eraseDups⟩ s') ∧
    ∀ s', Step d s ⟨env, .batchLiquidateTroves troveArray⟩ s' →
      ∃ l closed,
        batchLiquidateTrovesTotals d env.price troveArray { s with timestamp := env.timestamp } =
          .ok l ∧
        ClosedBy s s' closed ∧ Counts l.totals closed ∧
        PaysGas d env.sender (LUSD_GAS_COMPENSATION * closed.length) s s' := by
  refine ⟨fun s' => batch_step_congr ?_, fun hmode s' => batch_step_congr ?_, fun s' hstep => ?_⟩
  · have hinactive : ∀ x, decide ((s.troveManager.troves x).status = .active) = false →
        (s.troveManager.troves x).status ≠ .active := fun x hx => by simpa using hx
    refine batchLiquidateTrovesTotals_filter (s := { s with timestamp := env.timestamp }) hd hinactive
      (fun x hx => ?_) troveArray
    obtain ⟨hcoll, hdebt, -⟩ := (hr.sound hd).registered.inactive x (hinactive x hx)
    obtain ⟨hETH, hLUSD⟩ := reachable_snapshotsPast hd hr x
    exact passedOver_of_inactive (hinactive x hx) hcoll hdebt hETH hLUSD
  · exact batchLiquidateTrovesTotals_eraseDups (s := { s with timestamp := env.timestamp }) hd hmode
      troveArray
  · obtain ⟨l, hl, -⟩ := hstep.tallied hd rfl
    obtain ⟨closed, hclosed, hcounts, hpays⟩ := liquidation_counts hd hr hstep (congrArg some hl)
    exact ⟨l, closed, hl, hclosed, hcounts, hpays⟩

/-- The liquidated trove stands twice in the array, between the zero address and one that never opened
a trove. -/
theorem sampleBatch_bad_entries : ∃ s s', Reachable sampleDeployment s ∧
    Step sampleDeployment s
      ⟨⟨101, 0, 0, 1800 * 10 ^ 18⟩, .batchLiquidateTroves [0, 102, 105, 102]⟩ s' ∧
    Step sampleDeployment s ⟨⟨101, 0, 0, 1800 * 10 ^ 18⟩, .batchLiquidateTroves [102, 102]⟩ s' ∧
    Step sampleDeployment s ⟨⟨101, 0, 0, 1800 * 10 ^ 18⟩, .batchLiquidateTroves [0, 102, 105]⟩ s' ∧
    ∃ closed, ClosedBy s s' closed ∧
      PaysGas sampleDeployment 101 (LUSD_GAS_COMPENSATION * closed.length) s s' := by
  obtain ⟨s, s', hs, hstep, hactive, hmode⟩ := exists_step sampleOpenings
    ⟨⟨101, 0, 0, 1800 * 10 ^ 18⟩, .batchLiquidateTroves [0, 102, 105, 102]⟩
    (fun s _ => activeEntries s [0, 102, 105, 102] = [102, 102] ∧
      (s.checkRecoveryMode (1800 * 10 ^ 18)).toOption.any (fun b => decide (b = false)) = true)
    (by decide +kernel)
  obtain ⟨_, hmode, rfl⟩ := exists_ok hmode
  obtain ⟨hfilter, hdups, hcount⟩ := bad_entries_harmless sampleDeployment_wired hs
    ⟨101, 0, 0, 1800 * 10 ^ 18⟩ [0, 102, 105, 102]
  obtain ⟨l, closed, -, hclosed, -, hpays⟩ := hcount s' hstep
  rw [hactive] at hfilter
  exact ⟨s, s', hs, hstep, (hfilter s').mp hstep, (hdups hmode s').mp hstep, closed, hclosed, hpays⟩

end Liquity
