import Liquity.Subgraph.Counters
import Liquity.Subgraph.Emissions

/-!
# What replaying a log does to the subgraph

`Indexes g v` says that the store `g` knows the troves of a view `v` of the contracts, `Mirrors g v` that it
knows the snapshots, deposits and totals as well.  Replaying an emission keeps the first, and keeps
the second if the emission is exact.
-/

open Lib

namespace Liquity

open TroveManager

namespace Subgraph

/-! ## Decimals -/

theorem decimalize_zero : decimalize 0 = 0 := ofUnits_zero _

theorem decimalize_add (m n : ℤ) : decimalize (m + n) = decimalize m + decimalize n := ofUnits_add m n

theorem decimalize_sub (m n : ℤ) : decimalize (m - n) = decimalize m - decimalize n := ofUnits_sub m n

theorem decimalize_le {m n : ℤ} : decimalize m ≤ decimalize n ↔ m ≤ n := ofUnits_le (by decide)

theorem decimalize_lt {m n : ℤ} : decimalize m < decimalize n ↔ m < n := ofUnits_lt (by decide)

theorem decimalize_inj {m n : ℤ} : decimalize m = decimalize n ↔ m = n := ofUnits_inj (by decide)

/-! ## Stores and views -/

/-- The status that the subgraph gives a trove. -/
def entityStatus : Status → Option TroveStatus
  | .nonExistent => none
  | .active => some .«open»
  | .closedByOwner => some .closedByOwner
  | .closedByLiquidation => some .closedByLiquidation
  | .closedByRedemption => some .closedByRedemption

/-- A trove of the subgraph has the amounts of the trove in storage. -/
structure SameAmounts (trove : Trove) (stored : Liquity.Trove) : Prop where
  collateral : trove.collateral = decimalize stored.coll
  debt : trove.debt = decimalize stored.debt
  rawCollateral : trove.rawCollateral = stored.coll
  rawDebt : trove.rawDebt = stored.debt
  rawStake : trove.rawStake = stored.stake

/-- The trove of a user, as a handler finds it. -/
def Store.trove (g : Store) (x : Address) : Trove := (g.troves x).getD Store.newTrove

theorem getTrove_trove (g : Store) (x : Address) : (g.getTrove x).1 = g.trove x := by
  unfold Store.getTrove Store.trove
  cases g.troves x <;> rfl

structure Indexes (g : Store) (v : View) : Prop where
  L_ETH : g.global.rawTotalRedistributedCollateral = v.troveManager.L_ETH
  L_LUSDDebt : g.global.rawTotalRedistributedDebt = v.troveManager.L_LUSDDebt
  idle : g.global.tmpDepositUpdate = none
  price : g.systemState.price = v.price.map fun (p : ℕ) => decimalize p
  amounts : ∀ x, SameAmounts (g.trove x) (v.troveManager.troves x)
  status : ∀ x, g.statusOf x = entityStatus (v.troveManager.troves x).status
  snapshots_le : ∀ x,
    (g.trove x).rawSnapshotOfTotalRedistributedCollateral ≤ v.troveManager.L_ETH ∧
      (g.trove x).rawSnapshotOfTotalRedistributedDebt ≤ v.troveManager.L_LUSDDebt
  counted : g.Counted

structure Mirrors (g : Store) (v : View) : Prop where
  snapshots : ∀ x ∉ v.stale, (v.troveManager.troves x).stake ≠ 0 →
    (g.trove x).rawSnapshotOfTotalRedistributedCollateral = (v.troveManager.rewardSnapshots x).ETH ∧
      (g.trove x).rawSnapshotOfTotalRedistributedDebt = (v.troveManager.rewardSnapshots x).LUSDDebt
  deposits : ∀ x, g.depositedAmount x = decimalize (v.deposits x)
  totalCollateral : g.systemState.totalCollateral = decimalize v.coll
  totalDebt : g.systemState.totalDebt = decimalize v.debt
  tokensInStabilityPool : g.systemState.tokensInStabilityPool = decimalize v.tokens

/-- An active trove was saved. -/
theorem Indexes.getTrove_active {b : Address} (h : Indexes g v)
    (hactive : (v.troveManager.troves b).status = .active) :
    g.troves b = some (g.trove b) ∧ g.getTrove b = (g.trove b, g) := by
  have hstatus := h.status b
  rw [hactive, Store.statusOf] at hstatus
  unfold Store.trove Store.getTrove
  cases hget : g.troves b with
  | none =>
    rw [hget] at hstatus
    cases hstatus
  | some trove => exact ⟨rfl, rfl⟩

theorem Mirrors.systemState_eq {price : ℕ} (hm : Mirrors g v) (hg : Indexes g v)
    (hprice : v.price = some price) : g.systemState =
      ⟨some (decimalize price), decimalize v.coll, decimalize v.debt, decimalize v.tokens⟩ := by
  have hpriced := hg.price
  rw [hprice, Option.map_some] at hpriced
  rw [← hm.totalCollateral, ← hm.totalDebt, ← hm.tokensInStabilityPool, ← hpriced]

/-- Replaying `log` takes every store that follows `v` to one that follows `v'`. -/
def Replays (exact : Prop) (v : View) (log : List Event) (v' : View) : Prop :=
  ∀ g, Indexes g v → ∃ g', g.replay log = some g' ∧ Indexes g' v' ∧
    (exact → Mirrors g v → Mirrors g' v')

variable {exact : Prop} {g : Store} {v v' v'' : View} {log log' : List Event} {e : Event}

theorem Replays.nil (v : View) : Replays exact v [] v := fun g hg => ⟨g, rfl, hg, fun _ h => h⟩

theorem replay_append (g : Store) (log log' : List Event) :
    g.replay (log ++ log') = (g.replay log).bind fun g => g.replay log' := by
  unfold Store.replay
  rw [List.foldlM_append]
  rfl

theorem Replays.append (h : Replays exact v log v') (h' : Replays exact v' log' v'') :
    Replays exact v (log ++ log') v'' := by
  intro g hg
  obtain ⟨g', hg', hindexes, hmirrors⟩ := h g hg
  obtain ⟨g'', hg'', hindexes', hmirrors'⟩ := h' g' hindexes
  refine ⟨g'', ?_, hindexes', fun hexact hm => hmirrors' hexact (hmirrors hexact hm)⟩
  rw [replay_append, hg']
  exact hg''

theorem replay_single (g : Store) (e : Event) : g.replay [e] = g.handle e := by
  change (g.handle e).bind some = _
  cases g.handle e <;> rfl

/-- What the store does not keep of the trove manager can change, and less can be asked for. -/
theorem Replays.silent {t : TroveManager} {stale : Set Address}
    (htroves : t.troves = v.troveManager.troves)
    (hsnapshots : t.rewardSnapshots = v.troveManager.rewardSnapshots)
    (hE : t.L_ETH = v.troveManager.L_ETH) (hD : t.L_LUSDDebt = v.troveManager.L_LUSDDebt)
    (hstale : v.stale ⊆ stale) : Replays exact v [] { v with troveManager := t, stale } := by
  intro g hg
  refine ⟨g, rfl, ⟨?_, ?_, hg.idle, hg.price, ?_, ?_, ?_, hg.counted⟩, fun _ hm =>
    ⟨fun x hx hstake => ?_, hm.deposits, hm.totalCollateral, hm.totalDebt, hm.tokensInStabilityPool⟩⟩
  · rw [hE, hg.L_ETH]
  · rw [hD, hg.L_LUSDDebt]
  · rw [htroves]
    exact hg.amounts
  · rw [htroves]
    exact hg.status
  · rw [hE, hD]
    exact hg.snapshots_le
  · rw [htroves] at hstake
    rw [hsnapshots]
    exact hm.snapshots x (fun hmem => hx (hstale hmem)) hstake

/-- The rule for `LastGoodPriceUpdated`. -/
theorem Replays.lastGoodPriceUpdated (v : View) (lastGoodPrice : Nat) :
    Replays exact v [.lastGoodPriceUpdated lastGoodPrice] { v with price := some lastGoodPrice } :=
  fun g hg => ⟨g.updatePrice lastGoodPrice, rfl,
    ⟨hg.L_ETH, hg.L_LUSDDebt, hg.idle, rfl, hg.amounts, hg.status, hg.snapshots_le,
      ⟨hg.counted.numberOf, hg.counted.total⟩⟩,
    fun _ hm => ⟨hm.snapshots, hm.deposits, hm.totalCollateral, hm.totalDebt,
      hm.tokensInStabilityPool⟩⟩

/-- The rule for `LTermsUpdated`: the accumulators move, the troves stay as they are. -/
theorem Replays.LTermsUpdated {t : TroveManager} (htroves : t.troves = v.troveManager.troves)
    (hsnapshots : t.rewardSnapshots = v.troveManager.rewardSnapshots)
    (hE : v.troveManager.L_ETH ≤ t.L_ETH) (hD : v.troveManager.L_LUSDDebt ≤ t.L_LUSDDebt) :
    Replays exact v [.LTermsUpdated t.L_ETH t.L_LUSDDebt] { v with troveManager := t } := by
  intro g hg
  refine ⟨g.updateTotalRedistributed t.L_ETH t.L_LUSDDebt, rfl,
    ⟨rfl, rfl, hg.idle, hg.price, ?_, ?_, fun x => ?_, ⟨hg.counted.numberOf, hg.counted.total⟩⟩,
    fun _ hm => ⟨fun x hx hstake => ?_, hm.deposits, hm.totalCollateral, hm.totalDebt,
      hm.tokensInStabilityPool⟩⟩
  · rw [htroves]
    exact hg.amounts
  · rw [htroves]
    exact hg.status
  · obtain ⟨hcoll, hdebt⟩ := hg.snapshots_le x
    exact ⟨hcoll.trans (Int.ofNat_le.mpr hE), hdebt.trans (Int.ofNat_le.mpr hD)⟩
  · rw [htroves] at hstake
    rw [hsnapshots]
    exact hm.snapshots x hx hstake

/-! ## Writing a trove -/

section Write

variable {t t' : TroveManager} {b x : Address} {operation : TroveOperation}

theorem SameAmounts.congr {trove : Trove} {stored stored' : Liquity.Trove}
    (h : SameAmounts trove stored) (hcoll : stored'.coll = stored.coll)
    (hdebt : stored'.debt = stored.debt) (hstake : stored'.stake = stored.stake) :
    SameAmounts trove stored' := by
  obtain ⟨hcollateral, howed, hrawCollateral, hrawDebt, hrawStake⟩ := h
  rw [← hcoll] at hcollateral hrawCollateral
  rw [← hdebt] at howed hrawDebt
  rw [← hstake] at hrawStake
  exact ⟨hcollateral, howed, hrawCollateral, hrawDebt, hrawStake⟩

theorem trove_saveTrove (g : Store) (b : Address) (trove : Trove) (systemState : SystemState)
    (global : Global) : (g.saveTrove b trove systemState global).trove b = trove := by
  simp [Store.trove, Store.saveTrove]

theorem trove_saveTrove_of_ne (g : Store) (trove : Trove) (systemState : SystemState) (global : Global)
    (hx : x ≠ b) : (g.saveTrove b trove systemState global).trove x = g.trove x := by
  simp only [Store.trove, Store.saveTrove, Function.update_of_ne hx]

/-- Finding a trove changes at most the counters. -/
theorem getTrove_keeps (g : Store) (b : Address) :
    (g.getTrove b).2.systemState = g.systemState ∧ (g.getTrove b).2.troves = g.troves ∧
      (g.getTrove b).2.depositedAmount = g.depositedAmount ∧
      (g.getTrove b).2.global.rawTotalRedistributedCollateral =
        g.global.rawTotalRedistributedCollateral ∧
      (g.getTrove b).2.global.rawTotalRedistributedDebt = g.global.rawTotalRedistributedDebt ∧
      (g.getTrove b).2.global.tmpDepositUpdate = g.global.tmpDepositUpdate := by
  unfold Store.getTrove
  cases g.troves b <;> exact ⟨rfl, rfl, rfl, rfl, rfl, rfl⟩

theorem setTroveStatus_keeps (trove : Trove) (status : TroveStatus) (global : Global) :
    (setTroveStatus trove status global).2.rawTotalRedistributedCollateral =
        global.rawTotalRedistributedCollateral ∧
      (setTroveStatus trove status global).2.rawTotalRedistributedDebt =
        global.rawTotalRedistributedDebt ∧
      (setTroveStatus trove status global).2.tmpDepositUpdate = global.tmpDepositUpdate := by
  unfold setTroveStatus
  split
  · unfold countStatusChange
    cases status with
    | «open» => cases trove.status <;> exact ⟨rfl, rfl, rfl⟩
    | _ => exact ⟨rfl, rfl, rfl⟩
  · exact ⟨rfl, rfl, rfl⟩

/-- The store that `updateTrove` leaves when it saves the trove. -/
def Store.saved (operation : TroveOperation) (borrower : Address) (coll debt stake : ℤ)
    (systemState : SystemState) (g : Store) : Store :=
  let found := g.getTrove borrower
  let result := setTroveStatus (Store.setAmounts coll debt stake g.global found.1)
    (Store.statusAfter operation coll) found.2.global
  g.saveTrove borrower result.1 systemState result.2

theorem updateTrove_of_ne (operation : TroveOperation) (b : Address) (coll debt stake : ℤ) {price : ℚ}
    {systemState : SystemState} (hprice : g.systemState.price = some price)
    (hchanged : ¬ (decimalize coll = (g.trove b).collateral ∧ decimalize debt = (g.trove b).debt))
    (hsystem : g.systemState.updateByTroveChange
      { troveOperation := operation
        collateralBefore := (g.trove b).collateral
        debtBefore := (g.trove b).debt
        collateralRatioBefore := calculateCollateralRatio (g.trove b).collateral (g.trove b).debt price
        collateralChange := decimalize coll - (g.trove b).collateral
        debtChange := decimalize debt - (g.trove b).debt } = some systemState) :
    g.updateTrove operation b coll debt stake =
      some (g.saved operation b coll debt stake systemState) := by
  obtain ⟨hstate, htroves, hdeposits, hcollateral, hdebt, -⟩ := getTrove_keeps g b
  unfold Store.updateTrove
  rw [← getTrove_trove] at hchanged hsystem
  generalize hfound : g.getTrove b = found at *
  obtain ⟨trove, g₁⟩ := found
  dsimp only at *
  rw [if_neg hchanged, hstate]
  refine Option.bind_eq_some_iff.mpr ⟨price, hprice, Option.bind_eq_some_iff.mpr ⟨systemState, hsystem, ?_⟩⟩
  have hamounts : Store.setAmounts coll debt stake g₁.global trove =
      Store.setAmounts coll debt stake g.global trove := by
    simp only [Store.setAmounts, hcollateral, hdebt]
  unfold Store.saved Store.saveTrove
  rw [hfound, hamounts, htroves]
  cases g
  cases g₁
  cases htroves
  cases hdeposits
  rfl

theorem updateTrove_of_eq {coll debt stake : ℤ} (h : g.getTrove b = (g.trove b, g))
    (hsame : decimalize coll = (g.trove b).collateral ∧ decimalize debt = (g.trove b).debt) :
    g.updateTrove operation b coll debt stake = some g := by
  unfold Store.updateTrove
  rw [h]
  exact if_pos hsame

theorem saved_trove (g : Store) (b : Address) (coll debt stake : ℤ) (systemState : SystemState) :
    (g.saved operation b coll debt stake systemState).trove b =
      { Store.setAmounts coll debt stake g.global (g.trove b) with
        status := Store.statusAfter operation coll } := by
  unfold Store.saved
  rw [trove_saveTrove, setTroveStatus_status, getTrove_trove]

theorem saved_statusOf (g : Store) (b : Address) (coll debt stake : ℤ) (systemState : SystemState) :
    (g.saved operation b coll debt stake systemState).statusOf =
      Function.update g.statusOf b (some (Store.statusAfter operation coll)) := by
  unfold Store.saved
  rw [statusOf_saveTrove, setTroveStatus_status]

theorem saved_global (g : Store) (b : Address) (coll debt stake : ℤ) (systemState : SystemState) :
    (g.saved operation b coll debt stake systemState).global.rawTotalRedistributedCollateral =
        g.global.rawTotalRedistributedCollateral ∧
      (g.saved operation b coll debt stake systemState).global.rawTotalRedistributedDebt =
        g.global.rawTotalRedistributedDebt ∧
      (g.saved operation b coll debt stake systemState).global.tmpDepositUpdate =
        g.global.tmpDepositUpdate := by
  obtain ⟨-, -, -, hcollateral, hdebt, hidle⟩ := getTrove_keeps g b
  obtain ⟨hcollateral', hdebt', hidle'⟩ := setTroveStatus_keeps
    (Store.setAmounts coll debt stake g.global (g.getTrove b).1) (Store.statusAfter operation coll)
    (g.getTrove b).2.global
  exact ⟨hcollateral'.trans hcollateral, hdebt'.trans hdebt, hidle'.trans hidle⟩

/-- The trove is saved as it is in storage. -/
theorem Indexes.saved (h : Indexes g v) (hw : Writes b v.troveManager t')
    (hstatus : some (Store.statusAfter operation (t'.troves b).coll) =
      entityStatus (t'.troves b).status)
    (hclosing : Store.statusAfter operation (t'.troves b).coll ≠ .«open» →
      (v.troveManager.troves b).status = .active)
    (systemState : SystemState) (hprice : systemState.price = g.systemState.price) (stale : Set Address)
    (coll debt tokens : ℤ) :
    Indexes (g.saved operation b (t'.troves b).coll (t'.troves b).debt (t'.troves b).stake systemState)
      { v with troveManager := t', stale, coll, debt, tokens } := by
  obtain ⟨hcollateral, howed, hidle⟩ := @saved_global operation g b (t'.troves b).coll
    (t'.troves b).debt (t'.troves b).stake systemState
  refine ⟨?_, ?_, hidle.trans h.idle, hprice.trans h.price, fun x => ?_, fun x => ?_, fun x => ?_, ?_⟩
  · rw [hcollateral, h.L_ETH, hw.L_ETH]
  · rw [howed, h.L_LUSDDebt, hw.L_LUSDDebt]
  · by_cases hx : x = b
    · subst hx
      rw [saved_trove]
      exact ⟨rfl, rfl, rfl, rfl, rfl⟩
    · obtain ⟨hsame, -⟩ := hw.other x hx
      unfold Store.saved
      rw [trove_saveTrove_of_ne _ _ _ _ hx]
      exact (h.amounts x).congr hsame.coll hsame.debt hsame.stake
  · rw [saved_statusOf]
    by_cases hx : x = b
    · subst hx
      rw [Function.update_self]
      exact hstatus
    · rw [Function.update_of_ne hx, h.status]
      exact congrArg entityStatus (hw.other x hx).2.symm
  · dsimp only
    rw [hw.L_ETH, hw.L_LUSDDebt]
    by_cases hx : x = b
    · subst hx
      rw [saved_trove]
      simp only [Store.setAmounts, h.L_ETH, h.L_LUSDDebt]
      split <;> omega
    · unfold Store.saved
      rw [trove_saveTrove_of_ne _ _ _ _ hx]
      exact h.snapshots_le x
  · refine h.counted.save systemState rfl fun hne => ?_
    rw [h.status, hclosing hne]
    rfl

/-- The accumulators are saved as the snapshots of the trove. -/
theorem Mirrors.saved (hm : Mirrors g v) (h : Indexes g v) (hw : Writes b v.troveManager t')
    {stale : Set Address} (hstale : v.stale \ {b} ⊆ stale)
    (hsnapshot : b ∉ stale → (t'.troves b).stake ≠ 0 → t'.rewardSnapshots b = ⟨t'.L_ETH, t'.L_LUSDDebt⟩)
    {systemState : SystemState} {coll debt tokens : ℤ}
    (hcoll : systemState.totalCollateral = decimalize coll)
    (hdebt : systemState.totalDebt = decimalize debt)
    (htokens : systemState.tokensInStabilityPool = decimalize tokens) :
    Mirrors (g.saved operation b (t'.troves b).coll (t'.troves b).debt (t'.troves b).stake systemState)
      { v with troveManager := t', stale, coll, debt, tokens } := by
  refine ⟨fun x hx hstake => ?_, hm.deposits, hcoll, hdebt, htokens⟩
  by_cases hxb : x = b
  · subst hxb
    have hne : ((t'.troves x).stake : ℤ) ≠ 0 := by exact_mod_cast hstake
    rw [saved_trove, hsnapshot hx hstake]
    simp only [Store.setAmounts, if_pos hne, h.L_ETH, h.L_LUSDDebt, hw.L_ETH, hw.L_LUSDDebt, and_self]
  · obtain ⟨hsame, -⟩ := hw.other x hxb
    unfold Store.saved
    rw [trove_saveTrove_of_ne _ _ _ _ hxb, hsame.snapshot]
    exact hm.snapshots x (fun hmem => hx (hstale ⟨hmem, hxb⟩)) (hsame.stake ▸ hstake)

end Write

/-! ## Reported troves -/

section Reports

variable {t : TroveManager} {b : Address} {operation : TroveOperation} {price : Nat}

/-- Borrower operations and redemptions move the totals by the change of the trove. -/
theorem updateByTroveChange_moves {change : TroveChange}
    (hop : change.troveOperation.isBorrowerOperation = true ∨
      change.troveOperation.isRedemption = true) (s : SystemState) :
    s.updateByTroveChange change = some { s with
      totalCollateral := s.totalCollateral + change.collateralChange
      totalDebt := s.totalDebt + change.debtChange } := by
  rw [SystemState.updateByTroveChange, if_pos (by simpa using hop)]

theorem Reports.handle {trove : Liquity.Trove} (h : Reports b trove operation e) (g : Store) :
    g.handle e = g.updateTrove operation b trove.coll trove.debt trove.stake ∧
      (operation.isBorrowerOperation = true ∨ operation.isRedemption = true) := by
  cases h with
  | borrower operation => exact ⟨rfl, .inl (by cases operation <;> rfl)⟩
  | redemption => exact ⟨rfl, .inr rfl⟩

/-- The subgraph infers the status that the contracts set. -/
theorem statusAfter_eq (hop : operation.isBorrowerOperation = true ∨ operation.isRedemption = true)
    (coll : Nat) :
    some (Store.statusAfter operation coll) = entityStatus (statusLeft operation coll) := by
  have hnot : operation.isLiquidation = false := by
    revert hop
    cases operation <;> decide
  unfold Store.statusAfter statusLeft
  rw [hnot]
  by_cases hcoll : coll = 0
  · rw [if_pos (by exact_mod_cast hcoll), if_pos hcoll]
    cases operation.isRedemption <;> rfl
  · rw [if_neg (by exact_mod_cast hcoll), if_neg hcoll]
    rfl

theorem statusAfter_of_pos {coll : Nat} (h : 0 < coll) :
    Store.statusAfter operation coll = .«open» := by
  rw [Store.statusAfter, if_neg (by exact_mod_cast h.ne')]

theorem statusAfter_ne_open {coll : Nat} (h : Store.statusAfter operation coll ≠ .«open») :
    coll = 0 := by
  by_contra hne
  exact h (statusAfter_of_pos (Nat.pos_of_ne_zero hne))

/-- The rule for the event of a borrower operation or a redemption. -/
theorem Replays.updated {stale : Set Address} (hprice : v.price = some price)
    (hreports : Reports b (t.troves b) operation e) (hw : Writes b v.troveManager t)
    (hchanged : (t.troves b).coll ≠ (v.troveManager.troves b).coll ∨
      (t.troves b).debt ≠ (v.troveManager.troves b).debt)
    (hstatus : (t.troves b).status = statusLeft operation (t.troves b).coll)
    (hclosing : (t.troves b).coll = 0 → (v.troveManager.troves b).status = .active)
    (hstale : v.stale \ {b} ⊆ stale)
    (hsnapshot : exact → b ∉ stale → (t.troves b).stake ≠ 0 →
      t.rewardSnapshots b = ⟨t.L_ETH, t.L_LUSDDebt⟩) :
    Replays exact v [e] { v with
      troveManager := t, stale
      coll := v.coll + ((t.troves b).coll - (v.troveManager.troves b).coll)
      debt := v.debt + ((t.troves b).debt - (v.troveManager.troves b).debt) } := by
  intro g hg
  obtain ⟨hhandle, hop⟩ := hreports.handle g
  have hprice' : g.systemState.price = some (decimalize price) := by rw [hg.price, hprice]; rfl
  have hdiffers : ¬ (decimalize (t.troves b).coll = (g.trove b).collateral ∧
      decimalize (t.troves b).debt = (g.trove b).debt) := by
    rw [(hg.amounts b).collateral, (hg.amounts b).debt, decimalize_inj, decimalize_inj]
    omega
  have hupdate := updateTrove_of_ne operation b (t.troves b).coll (t.troves b).debt (t.troves b).stake
    hprice' hdiffers (updateByTroveChange_moves (by exact hop) g.systemState)
  refine ⟨_, (replay_single g e).trans (hhandle.trans hupdate), ?_, fun hexact hm => ?_⟩
  · refine hg.saved hw ?_ (fun hne => hclosing (statusAfter_ne_open hne)) _ ?_ stale _ _ v.tokens
    · rw [hstatus]
      exact statusAfter_eq hop _
    · rfl
  · refine hm.saved hg hw hstale (hsnapshot hexact) ?_ ?_ hm.tokensInStabilityPool
    · simp only [hm.totalCollateral, (hg.amounts b).collateral, ← decimalize_sub, ← decimalize_add]
    · simp only [hm.totalDebt, (hg.amounts b).debt, ← decimalize_sub, ← decimalize_add]

end Reports

/-! ## Applying pending rewards -/

section Rewards

variable {t : TroveManager} {b : Address} {price : Nat}

/-- Rewards that vanish are applied in storage, but the subgraph does not save the trove again. -/
theorem Indexes.of_vanish (h : Indexes g v) (hvanish : v.troveManager.pendingETH b = 0 ∧
    v.troveManager.pendingLUSDDebt b = 0) (stale : Set Address) :
    Indexes g { v with troveManager := v.troveManager.applied b, stale } := by
  refine ⟨h.L_ETH, h.L_LUSDDebt, h.idle, h.price, fun x => ?_, fun x => ?_, h.snapshots_le, h.counted⟩
  · refine (h.amounts x).congr ?_ ?_ ?_ <;>
    · by_cases hx : x = b
      · subst hx
        simp [TroveManager.applied, hvanish]
      · simp [TroveManager.applied, Function.update_of_ne hx]
  · rw [h.status]
    by_cases hx : x = b
    · subst hx
      simp [TroveManager.applied]
    · simp [TroveManager.applied, Function.update_of_ne hx]

theorem Mirrors.of_vanish (h : Mirrors g v) {stale : Set Address} (hstale : v.stale ⊆ stale)
    (hb : (v.troveManager.troves b).stake ≠ 0 → b ∈ stale) :
    Mirrors g { v with troveManager := v.troveManager.applied b, stale } := by
  refine ⟨fun x hx hstake => ?_, h.deposits, h.totalCollateral, h.totalDebt, h.tokensInStabilityPool⟩
  have hxb : x ≠ b := by
    rintro rfl
    exact hx (hb (by simpa [TroveManager.applied] using hstake))
  obtain ⟨htrove, hsnapshot⟩ := applied_of_ne (t := v.troveManager) hxb
  rw [hsnapshot]
  rw [htrove] at hstake
  exact h.snapshots x (fun hmem => hx (hstale hmem)) hstake

/-- The rule for applied rewards. -/
theorem Replays.applied {stale : Set Address} (hprice : v.price = some price)
    (hactive : (v.troveManager.troves b).status = .active)
    (hpos : 0 < (v.troveManager.troves b).coll) (hstale : v.stale ⊆ stale)
    (hvanish : exact → (v.troveManager.troves b).stake ≠ 0 → v.troveManager.pendingETH b = 0 →
      v.troveManager.pendingLUSDDebt b = 0 → b ∈ stale) :
    Replays exact v [TroveManager.updated .applyPendingRewards b (v.troveManager.applied b)]
      { v with troveManager := v.troveManager.applied b, stale } := by
  intro g hg
  rw [replay_single]
  change ∃ g', g.updateTrove .accrueRewards b _ _ _ = some g' ∧ _
  have hself : (v.troveManager.applied b).troves b = { v.troveManager.troves b with
      coll := (v.troveManager.troves b).coll + v.troveManager.pendingETH b
      debt := (v.troveManager.troves b).debt + v.troveManager.pendingLUSDDebt b } :=
    Function.update_self ..
  by_cases hzero : v.troveManager.pendingETH b = 0 ∧ v.troveManager.pendingLUSDDebt b = 0
  · -- the amounts are those the trove has, and nothing is saved
    refine ⟨g, ?_, hg.of_vanish hzero stale, fun hexact hm => hm.of_vanish hstale
      fun hstake => hvanish hexact hstake hzero.1 hzero.2⟩
    refine updateTrove_of_eq (hg.getTrove_active hactive).2 ?_
    rw [(hg.amounts b).collateral, (hg.amounts b).debt, hself, hzero.1, hzero.2]
    exact ⟨rfl, rfl⟩
  · have hprice' : g.systemState.price = some (decimalize price) := by rw [hg.price, hprice]; rfl
    have hdiffers : ¬ (decimalize ((v.troveManager.applied b).troves b).coll = (g.trove b).collateral ∧
        decimalize ((v.troveManager.applied b).troves b).debt = (g.trove b).debt) := by
      rw [(hg.amounts b).collateral, (hg.amounts b).debt, decimalize_inj, decimalize_inj, hself]
      dsimp only
      omega
    refine ⟨_, updateTrove_of_ne .accrueRewards b _ _ _ hprice' hdiffers rfl, ?_, fun _ hm => ?_⟩
    · refine hg.saved (.applied _ b) ?_ (fun _ => hactive) _ rfl stale _ _ _
      rw [hself, statusAfter_of_pos (Nat.add_pos_left hpos _)]
      exact congrArg entityStatus hactive.symm
    · refine hm.saved hg (.applied _ b) (Set.sdiff_subset.trans hstale) (fun _ _ => ?_)
        hm.totalCollateral hm.totalDebt hm.tokensInStabilityPool
      simp [TroveManager.applied]

end Rewards

/-! ## Liquidating a trove -/

section Liquidation

variable {b : Address} {price : Nat} {operation : TroveOperation}

/-- The reward that the subgraph computes from its snapshots. -/
theorem redistributed_eq {snapshot accumulator stake : ℕ} (h : snapshot ≤ accumulator) :
    (((accumulator : ℤ) - snapshot) * stake).tdiv BIGINT_SCALING_FACTOR =
      (stake * (accumulator - snapshot) / DECIMAL_PRECISION : ℕ) := by
  have hcast : ((accumulator : ℤ) - snapshot) * stake = ((stake * (accumulator - snapshot) : ℕ) : ℤ) := by
    push_cast [Nat.cast_sub h]
    ring
  rw [hcast, Int.tdiv_eq_ediv_of_nonneg (Int.natCast_nonneg _)]
  rfl

/-- The rewards that the subgraph adds to a trove about to be closed. -/
def Store.redistributed (g : Store) (trove : Trove) : ℤ × ℤ :=
  (((g.global.rawTotalRedistributedCollateral - trove.rawSnapshotOfTotalRedistributedCollateral) *
      trove.rawStake).tdiv BIGINT_SCALING_FACTOR,
    ((g.global.rawTotalRedistributedDebt - trove.rawSnapshotOfTotalRedistributedDebt) *
      trove.rawStake).tdiv BIGINT_SCALING_FACTOR)

/-- They are not negative, as no snapshot is ahead of its accumulator. -/
theorem Indexes.redistributed_nonneg (hg : Indexes g v) (b : Address) :
    0 ≤ (g.redistributed (g.trove b)).1 ∧ 0 ≤ (g.redistributed (g.trove b)).2 := by
  obtain ⟨hcoll, hdebt⟩ := hg.snapshots_le b
  have hstake : (0 : ℤ) ≤ (g.trove b).rawStake := by
    rw [(hg.amounts b).rawStake]
    exact Int.natCast_nonneg _
  constructor
  · refine Int.tdiv_nonneg (Int.mul_nonneg ?_ hstake) (by decide)
    rw [hg.L_ETH]
    omega
  · refine Int.tdiv_nonneg (Int.mul_nonneg ?_ hstake) (by decide)
    rw [hg.L_LUSDDebt]
    omega

/-- They are the rewards that are pending, as long as the snapshots are those in storage. -/
theorem Mirrors.redistributed (hm : Mirrors g v) (hg : Indexes g v) (hstale : b ∉ v.stale)
    (hETH : (v.troveManager.rewardSnapshots b).ETH ≤ v.troveManager.L_ETH)
    (hLUSDDebt : (v.troveManager.rewardSnapshots b).LUSDDebt ≤ v.troveManager.L_LUSDDebt) :
    g.redistributed (g.trove b) =
      ((v.troveManager.pendingETH b : ℤ), (v.troveManager.pendingLUSDDebt b : ℤ)) := by
  unfold Store.redistributed
  rw [(hg.amounts b).rawStake, hg.L_ETH, hg.L_LUSDDebt]
  by_cases hstake : (v.troveManager.troves b).stake = 0
  · rw [pendingETH, pendingLUSDDebt, hstake]
    simp
  · obtain ⟨hcoll, hdebt⟩ := hm.snapshots b hstale hstake
    rw [hcoll, hdebt, redistributed_eq hETH, redistributed_eq hLUSDDebt]
    rfl

theorem Indexes.applyRedistribution (hg : Indexes g v)
    (hactive : (v.troveManager.troves b).status = .active) {coll debt : ℕ}
    (hredistributed : g.redistributed (g.trove b) = ((coll : ℤ), (debt : ℤ))) :
    g.applyRedistributionToTroveBeforeLiquidation b = g.updateTrove .accrueRewards b
      ((v.troveManager.troves b).coll + coll : ℕ) ((v.troveManager.troves b).debt + debt : ℕ) 0 := by
  have hcoll := congrArg Prod.fst hredistributed
  have hdebt := congrArg Prod.snd hredistributed
  unfold Store.redistributed at hcoll hdebt
  rw [Store.applyRedistributionToTroveBeforeLiquidation, (hg.getTrove_active hactive).1]
  dsimp only [Option.bind_eq_bind, Option.bind_some] at hcoll hdebt ⊢
  rw [hcoll, hdebt, (hg.amounts b).rawCollateral, (hg.amounts b).rawDebt, Nat.cast_add, Nat.cast_add]

/-- The trove right before it is closed: its rewards are added to it, or there are none. -/
theorem Indexes.accrueRewards (hg : Indexes g v) (hprice : v.price = some price)
    (hactive : (v.troveManager.troves b).status = .active)
    (hpos : 0 < (v.troveManager.troves b).coll) (coll debt : ℕ) :
    ∃ g' t, g.updateTrove .accrueRewards b ((v.troveManager.troves b).coll + coll : ℕ)
        ((v.troveManager.troves b).debt + debt : ℕ) 0 = some g' ∧
      Indexes g' { v with troveManager := t } ∧ Writes b v.troveManager t ∧
      (t.troves b).coll = (v.troveManager.troves b).coll + coll ∧
      (t.troves b).debt = (v.troveManager.troves b).debt + debt ∧
      (t.troves b).status = .active ∧ g'.systemState = g.systemState ∧
      g'.depositedAmount = g.depositedAmount ∧ ∀ x ≠ b, g'.trove x = g.trove x := by
  by_cases hnone : coll = 0 ∧ debt = 0
  · refine ⟨g, v.troveManager, ?_, hg, ⟨rfl, rfl, fun x _ => ⟨⟨rfl, rfl, rfl, rfl⟩, rfl⟩⟩, ?_, ?_,
      hactive, rfl, rfl, fun _ _ => rfl⟩
    · refine updateTrove_of_eq (hg.getTrove_active hactive).2 ?_
      rw [(hg.amounts b).collateral, (hg.amounts b).debt, hnone.1, hnone.2]
      exact ⟨rfl, rfl⟩
    · rw [hnone.1, Nat.add_zero]
    · rw [hnone.2, Nat.add_zero]
  · have hprice' : g.systemState.price = some (decimalize price) := by rw [hg.price, hprice]; rfl
    set t := v.troveManager.adjusted b ((v.troveManager.troves b).coll + coll)
      ((v.troveManager.troves b).debt + debt) 0 with ht
    have hself : t.troves b = { v.troveManager.troves b with
        coll := (v.troveManager.troves b).coll + coll
        debt := (v.troveManager.troves b).debt + debt
        stake := 0 } := Function.update_self ..
    have hdiffers : ¬ (decimalize ((v.troveManager.troves b).coll + coll : ℕ) =
        (g.trove b).collateral ∧
        decimalize ((v.troveManager.troves b).debt + debt : ℕ) = (g.trove b).debt) := by
      rw [(hg.amounts b).collateral, (hg.amounts b).debt, decimalize_inj, decimalize_inj]
      omega
    have hindexes : Indexes (g.saved .accrueRewards b (t.troves b).coll (t.troves b).debt
        (t.troves b).stake g.systemState) { v with troveManager := t } := by
      refine hg.saved (.adjusted _ b _ _ 0) ?_ (fun _ => hactive) g.systemState rfl v.stale v.coll v.debt
        v.tokens
      rw [hself, statusAfter_of_pos (Nat.add_pos_left hpos _)]
      exact congrArg entityStatus hactive.symm
    rw [hself] at hindexes
    refine ⟨_, t, updateTrove_of_ne .accrueRewards b _ _ _ hprice' hdiffers rfl, hindexes,
      .adjusted _ b _ _ 0, by rw [hself], by rw [hself], by rw [hself]; exact hactive, rfl, rfl,
      fun x hx => ?_⟩
    exact trove_saveTrove_of_ne g _ _ _ hx

/-- A liquidation always has an effect on a trove with debt. -/
theorem updateByTroveChange_liquidation (change : TroveChange) {ratio : ℚ}
    (hop : change.troveOperation.isLiquidation = true)
    (hratio : change.collateralRatioBefore = some ratio) (s : SystemState) :
    ∃ s', s.updateByTroveChange change = some s' ∧ s'.price = s.price := by
  have hother : ¬ (change.troveOperation.isBorrowerOperation ||
      change.troveOperation.isRedemption) = true := by
    revert hop
    cases change.troveOperation <;> decide
  have hoffset : ∀ (coll debt : ℚ) (s : SystemState),
      (s.tryToOffsetWithTokensFromStabilityPool coll debt).price = s.price := by
    intro coll debt s
    unfold SystemState.tryToOffsetWithTokensFromStabilityPool
    split
    · rfl
    · split <;> rfl
  obtain ⟨offset, hoffsets⟩ : ∃ offset, SystemState.offsets change = some offset := by
    unfold SystemState.offsets
    rw [hratio]
    split <;> exact ⟨_, rfl⟩
  unfold SystemState.updateByTroveChange
  rw [if_neg hother, if_pos hop, hoffsets]
  dsimp only [Option.bind_eq_bind, Option.bind_some]
  split
  · exact ⟨_, rfl, hoffset _ _ _⟩
  · exact ⟨_, rfl, rfl⟩

theorem calculateCollateralRatio_of_pos (coll : ℕ) {debt : ℕ} (hdebt : 0 < debt) (price : ℚ) :
    ∃ ratio, calculateCollateralRatio (decimalize coll) (decimalize debt) price = some ratio := by
  have hne : decimalize debt ≠ 0 := by
    rw [← decimalize_zero, Ne, decimalize_inj]
    omega
  exact ⟨_, if_neg hne⟩

theorem Writes.unregister_of_writes {t t₁ : TroveManager} (h : Writes b t t₁) (status : Status) :
    Writes b t₁ (t.unregister b status) where
  L_ETH := h.L_ETH.symm
  L_LUSDDebt := h.L_LUSDDebt.symm
  other x hx := by
    obtain ⟨hsame₁, hstatus₁⟩ := h.other x hx
    obtain ⟨hsame, hstatus⟩ := @sameTrove_unregister b t x status hx
    exact ⟨⟨hsame.coll.trans hsame₁.coll.symm, hsame.debt.trans hsame₁.debt.symm,
      hsame.stake.trans hsame₁.stake.symm, hsame.snapshot.trans hsame₁.snapshot.symm⟩,
      hstatus.trans hstatus₁.symm⟩

/-- The event that closes a liquidated trove. -/
theorem Indexes.updateTrove_close (hg : Indexes g v) (hprice : v.price = some price)
    (howes : 0 < (v.troveManager.troves b).debt) {systemState : SystemState}
    (hsystem : g.systemState.updateByTroveChange
      (liquidationChange operation (v.troveManager.troves b).coll (v.troveManager.troves b).debt
        (decimalize price)) = some systemState) :
    g.updateTrove operation b 0 0 0 = some (g.saved operation b (0 : ℕ) (0 : ℕ) (0 : ℕ) systemState) := by
  have hprice' : g.systemState.price = some (decimalize price) := by rw [hg.price, hprice]; rfl
  have hdiffers : ¬ (decimalize 0 = (g.trove b).collateral ∧ decimalize 0 = (g.trove b).debt) := by
    rw [(hg.amounts b).debt, decimalize_inj (m := 0)]
    omega
  refine updateTrove_of_ne operation b 0 0 0 hprice' hdiffers ?_
  rw [(hg.amounts b).collateral, (hg.amounts b).debt]
  exact hsystem

theorem Indexes.closed (hg : Indexes g v) {t : TroveManager}
    (hop : operation.isLiquidation = true) (hactive : (v.troveManager.troves b).status = .active)
    (hw : Writes b v.troveManager (t.unregister b .closedByLiquidation)) {systemState : SystemState}
    (hprice : systemState.price = g.systemState.price) (coll debt tokens : ℤ) :
    Indexes (g.saved operation b (0 : ℕ) (0 : ℕ) (0 : ℕ) systemState) { v with
      troveManager := t.unregister b .closedByLiquidation, coll, debt, tokens } := by
  have hclosed : (t.unregister b .closedByLiquidation).troves b =
      ⟨0, 0, 0, .closedByLiquidation, (t.troves b).arrayIndex⟩ := unregister_troves_self
  have h := @Indexes.saved _ _ _ _ operation hg hw ?_ (fun _ => hactive) systemState hprice v.stale coll
    debt tokens
  · rw [hclosed] at h
    exact h
  · rw [hclosed, Store.statusAfter, if_pos (by rfl), if_pos hop]
    rfl

/-- The rule for a liquidated trove. -/
theorem Replays.liquidated {LUSDInStabPool : Nat} {managerOperation : TroveManagerOperation}
    {vals : LiquidationValues} (hprice : v.price = some price)
    (hop : (getTroveOperationFromTroveManagerOperation managerOperation).isLiquidation = true)
    (hactive : (v.troveManager.troves b).status = .active)
    (hpos : 0 < (v.troveManager.troves b).coll) (howes : 0 < (v.troveManager.troves b).debt)
    (hfresh : exact → b ∉ v.stale)
    (hETH : (v.troveManager.rewardSnapshots b).ETH ≤ v.troveManager.L_ETH)
    (hLUSDDebt : (v.troveManager.rewardSnapshots b).LUSDDebt ≤ v.troveManager.L_LUSDDebt)
    (hcoll : vals.entireTroveColl = (v.troveManager.troves b).coll + v.troveManager.pendingETH b)
    (hdebt : vals.entireTroveDebt = (v.troveManager.troves b).debt + v.troveManager.pendingLUSDDebt b)
    (htokens : v.tokens = LUSDInStabPool)
    (hdecides : Decides (getTroveOperationFromTroveManagerOperation managerOperation) price
      LUSDInStabPool vals) :
    Replays exact v (liquidatedLog managerOperation b) { v with
      troveManager := v.troveManager.unregister b .closedByLiquidation
      coll := v.coll - (vals.collToSendToSP + vals.collSurplus + vals.collGasCompensation : Nat)
      debt := v.debt - vals.debtToOffset
      tokens := v.tokens - vals.debtToOffset } := by
  intro g hg
  set operation := getTroveOperationFromTroveManagerOperation managerOperation
  -- the first event, whatever the rewards are in the subgraph
  obtain ⟨hcollNonneg, hdebtNonneg⟩ := hg.redistributed_nonneg b
  obtain ⟨coll, hcollEq⟩ := Int.eq_ofNat_of_zero_le hcollNonneg
  obtain ⟨debt, hdebtEq⟩ := Int.eq_ofNat_of_zero_le hdebtNonneg
  have hredistributed : g.redistributed (g.trove b) = ((coll : ℤ), (debt : ℤ)) :=
    Prod.ext hcollEq hdebtEq
  obtain ⟨g₁, t₁, hg₁, hindexes, hwrites, hcoll₁, hdebt₁, hactive₁, hstate, hdeposits, hother⟩ :=
    hg.accrueRewards hprice hactive hpos coll debt
  rw [← hg.applyRedistribution hactive hredistributed] at hg₁
  have howes₁ : 0 < (t₁.troves b).debt := by omega
  -- the second event closes the trove
  have hlog : g.replay (liquidatedLog managerOperation b) =
      g₁.updateTrove operation b 0 0 0 := by
    change (g.applyRedistributionToTroveBeforeLiquidation b).bind (fun g' =>
      (g'.updateTrove operation b 0 0 0).bind some) = _
    rw [hg₁, Option.bind_some]
    cases g₁.updateTrove operation b 0 0 0 <;> rfl
  obtain ⟨ratio, hratio⟩ :=
    calculateCollateralRatio_of_pos (t₁.troves b).coll howes₁ (decimalize price)
  obtain ⟨systemState, hsystem, hsame⟩ := updateByTroveChange_liquidation (liquidationChange operation
    (t₁.troves b).coll (t₁.troves b).debt (decimalize price)) hop hratio g₁.systemState
  refine ⟨_, hlog.trans (hindexes.updateTrove_close hprice howes₁ hsystem),
    hindexes.closed hop hactive₁ (hwrites.unregister_of_writes _) hsame _ _ _, fun hexact hm => ?_⟩
  -- the rewards are those in storage, and so is what is offset
  have hrewards := hm.redistributed hg (hfresh hexact) hETH hLUSDDebt
  rw [hredistributed, Prod.mk.injEq, Nat.cast_inj, Nat.cast_inj] at hrewards
  have htotals := hdecides v.coll v.debt
  rw [hcoll, hdebt, ← hrewards.1, ← hrewards.2, ← hcoll₁, ← hdebt₁] at htotals
  rw [hstate, hm.systemState_eq hg hprice, htokens, htotals] at hsystem
  cases hsystem
  refine ⟨fun x hx hstake => ?_, fun x => ?_, rfl, rfl, by rw [htokens]; rfl⟩
  · have hxb : x ≠ b := by
      rintro rfl
      exact hstake (congrArg Liquity.Trove.stake unregister_troves_self)
    obtain ⟨hsame, -⟩ := @sameTrove_unregister b v.troveManager x .closedByLiquidation hxb
    rw [Store.saved, trove_saveTrove_of_ne _ _ _ _ hxb, hother x hxb, hsame.snapshot]
    exact hm.snapshots x hx (hsame.stake ▸ hstake)
  · change g₁.depositedAmount x = _
    rw [hdeposits]
    exact hm.deposits x

end Liquidation

/-! ## Changing a deposit -/

section Deposits

variable {x : Address} {compounded newDeposit gain loss : Nat}

/-- The collateral gain is withdrawn and the deposit changed: what the two events of a depositor
operation do together, in either order. -/
def Store.changeDeposit (depositor : Address) (newDeposit ETH LUSDLoss : ℤ) (g : Store) : Store :=
  (g.withdrawCollateralGainFromStabilityDeposit depositor ETH LUSDLoss).updateStabilityDeposit depositor
    newDeposit

/-- The first event leaves its amount behind for the second. -/
theorem deposit_eq (hidle : g.global.tmpDepositUpdate = none) (x : Address)
    (newDeposit ETH LUSDLoss : ℤ) :
    (g.handleUserDepositChanged x newDeposit).handleETHGainWithdrawn x ETH LUSDLoss =
      g.changeDeposit x newDeposit ETH LUSDLoss := by
  obtain ⟨⟨collateral, debt, tmpDepositUpdate⟩, systemState, troves, depositedAmount⟩ := g
  cases hidle
  rfl

/-- The first event leaves a dummy value behind for the second. -/
theorem gainToTrove_eq (hidle : g.global.tmpDepositUpdate = none) (x : Address)
    (newDeposit ETH LUSDLoss : ℤ) :
    (g.handleETHGainWithdrawn x ETH LUSDLoss).handleUserDepositChanged x newDeposit =
      g.changeDeposit x newDeposit ETH LUSDLoss := by
  obtain ⟨⟨collateral, debt, tmpDepositUpdate⟩, systemState, troves, depositedAmount⟩ := g
  cases hidle
  unfold Store.changeDeposit Store.handleETHGainWithdrawn
    Store.withdrawCollateralGainFromStabilityDeposit
  by_cases hnop : ETH = 0 ∧ LUSDLoss = 0
  · simp only [if_pos hnop]
    rfl
  · simp only [if_neg hnop]
    rfl

theorem withdrawCollateralGain_eq (hm : Mirrors g v) (hloss : v.deposits x = compounded + loss) :
    g.withdrawCollateralGainFromStabilityDeposit x gain loss =
      { g with depositedAmount := Function.update g.depositedAmount x (decimalize compounded) } := by
  have hcompounded : g.depositedAmount x - decimalize loss = decimalize compounded := by
    rw [hm.deposits, hloss, ← decimalize_sub]
    push_cast
    rw [add_sub_cancel_right]
  unfold Store.withdrawCollateralGainFromStabilityDeposit
  split
  next hnop =>
    have hzero : loss = 0 := by omega
    subst hzero
    rw [← hcompounded, Nat.cast_zero, decimalize_zero, sub_zero, Function.update_eq_self]
  next => rw [hcompounded]; rfl

/-- What the handlers of deposits leave alone. -/
structure TrovesKept (g g' : Store) : Prop where
  global : g'.global = g.global
  troves : g'.troves = g.troves
  price : g'.systemState.price = g.systemState.price

theorem updateStabilityDepositByOperation_keeps (g : Store) (x : Address)
    (operation : StabilityDepositOperation) (amount : ℚ) :
    TrovesKept g (g.updateStabilityDepositByOperation x operation amount) := by
  refine ⟨rfl, rfl, ?_⟩
  unfold Store.updateStabilityDepositByOperation SystemState.updateByStabilityDepositChange
  dsimp only
  split <;> rfl

theorem changeDeposit_keeps (g : Store) (x : Address) (newDeposit ETH LUSDLoss : ℤ) :
    TrovesKept g (g.changeDeposit x newDeposit ETH LUSDLoss) := by
  have hwithdrawn : TrovesKept g (g.withdrawCollateralGainFromStabilityDeposit x ETH LUSDLoss) := by
    unfold Store.withdrawCollateralGainFromStabilityDeposit
    split
    · exact ⟨rfl, rfl, rfl⟩
    · exact updateStabilityDepositByOperation_keeps g x _ _
  unfold Store.changeDeposit Store.updateStabilityDeposit
  dsimp only
  split
  · exact hwithdrawn
  · obtain ⟨hglobal, htroves, hprice⟩ := updateStabilityDepositByOperation_keeps
      (g.withdrawCollateralGainFromStabilityDeposit x ETH LUSDLoss) x _ (decimalize newDeposit)
    exact ⟨hglobal.trans hwithdrawn.global, htroves.trans hwithdrawn.troves,
      hprice.trans hwithdrawn.price⟩

theorem Indexes.changeDeposit (hg : Indexes g v) (x : Address) (deposits : Address → Nat) (tokens : ℤ) :
    Indexes (g.changeDeposit x newDeposit gain loss) { v with deposits, tokens } := by
  obtain ⟨hglobal, htroves, hprice⟩ := changeDeposit_keeps g x newDeposit gain loss
  refine ⟨?_, ?_, ?_, hprice.trans hg.price, fun y => ?_, fun y => ?_, fun y => ?_, ?_⟩
  · rw [hglobal, hg.L_ETH]
  · rw [hglobal, hg.L_LUSDDebt]
  · rw [hglobal, hg.idle]
  · rw [Store.trove, htroves]
    exact hg.amounts y
  · rw [Store.statusOf, htroves]
    exact hg.status y
  · rw [Store.trove, htroves]
    exact hg.snapshots_le y
  · have hstatus : (g.changeDeposit x newDeposit gain loss).statusOf = g.statusOf := by
      funext y
      rw [Store.statusOf, htroves]
      rfl
    refine ⟨fun status => ?_, ?_⟩
    · rw [hglobal, Store.numberWith, hstatus]
      exact hg.counted.numberOf status
    · rw [hglobal, Store.numberOfTroves, hstatus]
      exact hg.counted.total

theorem Mirrors.changeDeposit (hm : Mirrors g v) (hloss : v.deposits x = compounded + loss) :
    Mirrors (g.changeDeposit x newDeposit gain loss) { v with
      deposits := Function.update v.deposits x newDeposit
      tokens := v.tokens + (newDeposit - compounded) } := by
  have hdeposits : ∀ y, Function.update (Function.update g.depositedAmount x (decimalize compounded)) x
      (decimalize newDeposit) y = decimalize (Function.update v.deposits x newDeposit y) := by
    intro y
    by_cases hy : y = x
    · subst hy
      simp
    · simp [Function.update_of_ne hy, hm.deposits]
  rw [Store.changeDeposit, withdrawCollateralGain_eq hm hloss, Store.updateStabilityDeposit]
  simp only [Function.update_self, decimalize_inj]
  split
  next hsame =>
    -- only the gain was withdrawn
    refine ⟨hm.snapshots, fun y => ?_, hm.totalCollateral, hm.totalDebt, ?_⟩
    · rw [← hdeposits y, hsame, Function.update_idem]
    · rw [hsame, sub_self, add_zero]
      exact hm.tokensInStabilityPool
  next =>
    unfold Store.updateStabilityDepositByOperation SystemState.updateByStabilityDepositChange
    rw [if_pos (by split <;> simp)]
    refine ⟨hm.snapshots, hdeposits, hm.totalCollateral, hm.totalDebt, ?_⟩
    simp only [hm.tokensInStabilityPool, Function.update_self, ← decimalize_sub, ← decimalize_add]

/-- The rule for `provideToSP` and `withdrawFromSP`. -/
theorem Replays.deposit (hloss : v.deposits x = compounded + loss) :
    Replays exact v [.userDepositChanged x newDeposit, .ETHGainWithdrawn x gain loss] { v with
      deposits := Function.update v.deposits x newDeposit
      tokens := v.tokens + (newDeposit - compounded) } := by
  intro g hg
  refine ⟨g.changeDeposit x newDeposit gain loss, ?_, hg.changeDeposit x _ _,
    fun _ hm => hm.changeDeposit hloss⟩
  exact congrArg some (deposit_eq hg.idle x newDeposit gain loss)

/-- The rule for `withdrawETHGainToTrove`, which emits the events the other way round. -/
theorem Replays.gainToTrove (hloss : v.deposits x = compounded + loss) :
    Replays exact v [.ETHGainWithdrawn x gain loss, .userDepositChanged x newDeposit] { v with
      deposits := Function.update v.deposits x newDeposit
      tokens := v.tokens + (newDeposit - compounded) } := by
  intro g hg
  refine ⟨g.changeDeposit x newDeposit gain loss, ?_, hg.changeDeposit x _ _,
    fun _ hm => hm.changeDeposit hloss⟩
  exact congrArg some (gainToTrove_eq hg.idle x newDeposit gain loss)

end Deposits

/-! ## Whole logs -/

theorem Emission.replays (h : Emission exact v log v') : Replays exact v log v' := by
  cases h with
  | silent troves snapshots L_ETH L_LUSDDebt stale_le =>
    exact .silent troves snapshots L_ETH L_LUSDDebt stale_le
  | lastGoodPriceUpdated price => exact .lastGoodPriceUpdated v price
  | LTermsUpdated troves snapshots L_ETH L_LUSDDebt =>
    exact .LTermsUpdated troves snapshots L_ETH L_LUSDDebt
  | applied price_eq active positive stale_le vanish =>
    exact .applied price_eq active positive stale_le vanish
  | updated price_eq reports writes changed status closing stale_le snapshot =>
    exact .updated price_eq reports writes changed status closing stale_le snapshot
  | liquidated price_eq liquidation active positive owes fresh L_ETH L_LUSDDebt coll debt tokens
      decides =>
    exact .liquidated price_eq liquidation active positive owes fresh L_ETH L_LUSDDebt coll debt tokens
      decides
  | deposit loss_eq => exact .deposit loss_eq
  | gainToTrove loss_eq => exact .gainToTrove loss_eq

theorem Emits.replays (h : Emits exact v log v') : Replays exact v log v' := by
  induction h with
  | nil v => exact .nil v
  | cons h _ ih => exact h.replays.append ih

end Subgraph

end Liquity
