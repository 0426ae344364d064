import Liquity.Soundness

/-!
# Sequential and batch liquidation

`liquidateTroves` walks the list from its tail, `batchLiquidateTroves` goes through an array, and each
has two loops of its own.  The sequential loops break where the batch loops skip, so on the array of
the troves that a sequential loop examines the batch loop computes the same, failures included.
-/

open Lib

namespace Liquity

open SafeMath LiquityMath TroveManager

variable {d : Deployment} {s s' : System} {price : Nat} {l l' : LoopState}

namespace TroveManager

/-! ## The troves that a sequential loop examines -/

section Examined

variable (d : Deployment) (price : Nat)

/-- The troves that `sequenceNormalModeLoop` computes the ratio of, in its order. -/
def examinedNormalMode : (rounds : Nat) → LoopState → List Address
  | 0, _ => []
  | rounds + 1, l =>
    let user := l.system.sortedTroves.getLast
    user :: match l.system.troveManager.getCurrentICR user price with
      | .error _ => []
      | .ok ICR =>
        if ICR < MCR then
          match liquidateInNormalMode d user l with
          | .error _ => []
          | .ok l => examinedNormalMode rounds l
        else []

/-- The troves that `sequenceRecoveryModeLoop` computes the ratio of, in its order. -/
def examinedRecoveryMode (firstUser : Address) :
    (rounds : Nat) → (user : Address) → LoopState → List Address
  | 0, _, _ => []
  | rounds + 1, user, l =>
    if user ≠ firstUser then
      let nextUser := l.system.sortedTroves.getPrev user
      user :: match l.system.troveManager.getCurrentICR user price with
        | .error _ => []
        | .ok ICR =>
          if l.vars.backToNormalMode = false then
            if MCR ≤ ICR ∧ l.vars.remainingLUSDInStabPool = 0 then []
            else
              match liquidateInRecoveryMode d price user ICR l with
              | .error _ => []
              | .ok l => examinedRecoveryMode firstUser rounds nextUser l
          else if ICR < MCR then
            match liquidateInNormalMode d user l with
            | .error _ => []
            | .ok l => examinedRecoveryMode firstUser rounds nextUser l
          else []
    else []

/-- The troves that `liquidateTroves` examines, in the mode the system is in. -/
def examinedTroves (n : Nat) (s : System) : List Address :=
  match s.checkRecoveryMode price with
  | .error _ => []
  | .ok false =>
    examinedNormalMode d price n (startNormalMode s.stabilityPool.totalLUSDDeposits s)
  | .ok true =>
    match startRecoveryMode s.stabilityPool.totalLUSDDeposits s with
    | .error _ => []
    | .ok l =>
      examinedRecoveryMode d price s.sortedTroves.getFirst n s.sortedTroves.getLast l

end Examined

/-! ## The list while a loop runs -/

/-- A trove that is closed leaves the list, and at least one other stays. -/
theorem liquidateNormalMode_list (hd : d.Wired) {b : Address} {LUSDInStabPool : Nat}
    {r : LiquidationValues × System} (h : liquidateNormalMode d b LUSDInStabPool s = .ok r) :
    1 < s.troveManager.troveOwners.length ∧
      SortedTroves.remove d d.troveManager b s.sortedTroves = .ok r.2.sortedTroves := by
  simp only [liquidateNormalMode, bind_ok, pure_ok] at h
  obtain ⟨entire, -, _, -, _, -, s₁, hclose, rfl⟩ := h
  obtain ⟨-, -, hmore, -, list, ether, hlist, rfl⟩ := closeLiquidatedTrove_ok hd hclose
  exact ⟨hmore, hlist⟩

theorem liquidateRecoveryMode_list (hd : d.Wired) {b : Address} {ICR LUSDInStabPool TCR : Nat}
    {r : LiquidationValues × System}
    (h : liquidateRecoveryMode d b ICR LUSDInStabPool TCR price s = .ok r) :
    r.2.sortedTroves = s.sortedTroves ∨
      SortedTroves.remove d d.troveManager b s.sortedTroves = .ok r.2.sortedTroves := by
  have hclosed : ∀ {entire s₁}, closeLiquidatedTrove d b entire s = .ok s₁ →
      SortedTroves.remove d d.troveManager b s.sortedTroves = .ok s₁.sortedTroves := by
    intro entire s₁ hclose
    obtain ⟨-, -, -, -, list, ether, hlist, rfl⟩ := closeLiquidatedTrove_ok hd hclose
    exact hlist
  unfold liquidateRecoveryMode at h
  split at h
  · cases h
    exact .inl rfl
  simp only [bind_ok] at h
  obtain ⟨entire, -, _, -, h⟩ := h
  split at h
  · simp only [bind_ok, pure_ok] at h
    obtain ⟨s₁, hclose, rfl⟩ := h
    exact .inr (hclosed hclose)
  split at h
  · simp only [bind_ok, pure_ok] at h
    obtain ⟨_, -, s₁, hclose, rfl⟩ := h
    exact .inr (hclosed hclose)
  split at h
  · simp only [bind_ok, pure_ok] at h
    obtain ⟨-, -, _, -, s₁, hclose, s₂, hsurplus, rfl⟩ := h
    right
    rw [hclosed hclose]
    -- booking a surplus does not touch the list
    unfold accountSurplus at hsurplus
    split at hsurplus
    · obtain ⟨_, -, rfl⟩ := System.onCollSurplusPool_ok.mp hsurplus
      rfl
    · cases hsurplus
      rfl
  · cases h
    exact .inl rfl

/-- The last trove of the list and what is before it. -/
theorem eq_append_getLast {list : SortedTroves} (hlist : SortedTroves.IsList list list.toList)
    (hne : list.toList ≠ []) : ∃ u, list.toList = u ++ [list.getLast] := by
  obtain ⟨u, x, hu⟩ := (List.eq_nil_or_concat' list.toList).resolve_left hne
  refine ⟨u, ?_⟩
  have htail := hlist.tail_eq
  rw [hu, getLastD_append] at htail
  rw [hu, SortedTroves.getLast, htail]
  rfl

/-! ## Normal Mode -/

theorem sequenceNormalModeLoop_eq (rounds : Nat) (l : LoopState) :
    sequenceNormalModeLoop d price rounds l =
      batchNormalModeLoop d price (examinedNormalMode d price rounds l) l := by
  induction rounds generalizing l with
  | zero => rfl
  | succ rounds ih =>
    simp only [sequenceNormalModeLoop, examinedNormalMode, batchNormalModeLoop]
    -- where the sequence stops, it examines no further trove, and the batch is at its end
    cases l.system.troveManager.getCurrentICR l.system.sortedTroves.getLast price with
    | error e => rfl
    | ok ICR =>
      by_cases hlt : ICR < MCR
      · cases hbody : liquidateInNormalMode d l.system.sortedTroves.getLast l with
        | error e => simp [hlt, bind, Except.bind]
        | ok l₁ => simpa [hlt, hbody, bind, Except.bind] using ih l₁
      · simp [hlt, bind, Except.bind, batchNormalModeLoop, pure, Except.pure]

/-- The examined troves are the end of the list, from the tail upwards. -/
theorem examinedNormalMode_suffix (hd : d.Wired) (hs : Sound d s .none) {LUSDInStabPool : Nat}
    (hl : Tally d PlainOnly s LUSDInStabPool l) (hne : l.system.sortedTroves.toList ≠ [])
    (rounds : Nat) :
    (examinedNormalMode d price rounds l).reverse <:+ l.system.sortedTroves.toList := by
  induction rounds generalizing l with
  | zero => exact List.nil_suffix
  | succ rounds ih =>
    have hsl := hl.evolves.sound hd hs
    -- every round takes the last trove, and the next round's list ends before it
    obtain ⟨u, hu⟩ := eq_append_getLast hsl.list hne
    have hone : [l.system.sortedTroves.getLast] <:+ l.system.sortedTroves.toList := ⟨u, hu.symm⟩
    unfold examinedNormalMode
    dsimp only
    split
    · exact hone
    next ICR hICR =>
      split
      next hlt =>
        split
        · exact hone
        next l₁ hbody =>
          have hstep : LoopStep d price false l l₁ := .normal nofun hICR hlt hbody
          have hl₁ := hl.loopStep hd hs PlainOnly.plain hstep
          simp only [liquidateInNormalMode, bind_ok, pure_ok] at hbody
          obtain ⟨r, hr, _, -, totals, -, rfl⟩ := hbody
          obtain ⟨hmore, hremove⟩ := liquidateNormalMode_list hd hr
          have herase : r.2.sortedTroves.toList = u := by
            simpa using SortedTroves.remove_middle hsl.list hu hremove
          -- the last trove of the system cannot be closed
          have hu_ne : u ≠ [] := by
            rintro rfl
            rw [hsl.registered.length_owners, hu] at hmore
            exact Nat.lt_irrefl 1 hmore
          have hrest := ih hl₁ (by rw [herase]; exact hu_ne)
          rw [herase] at hrest
          rw [List.reverse_cons, hu]
          exact List.suffix_append_self_iff.mpr hrest
      · exact hone

/-! ## Recovery Mode -/

/-- Where a loop of Recovery Mode stands: at `user`, with `u` before it and `firstUser` at the head. -/
structure AtTrove (l : LoopState) (firstUser user : Address) (u : List Address) : Prop where
  order : ∃ v, l.system.sortedTroves.toList = u ++ user :: v
  first : (u ++ [user]).headD 0 = firstUser

/-- The trove that the loop saved before it closed the current one is still on the list. -/
theorem AtTrove.next (hd : d.Wired) {allow : Ledger → Label → Prop} {LUSDInStabPool : Nat}
    (hs : Sound d s .none) (hl : Tally d allow s LUSDInStabPool l) {firstUser user : Address}
    {u : List Address} (h : AtTrove l firstUser user u) (hne : user ≠ firstUser)
    (hstep : l'.system.sortedTroves = l.system.sortedTroves ∨
      SortedTroves.remove d d.troveManager user l.system.sortedTroves = .ok l'.system.sortedTroves) :
    ∃ w, u = w ++ [l.system.sortedTroves.getPrev user] ∧
      AtTrove l' firstUser (l.system.sortedTroves.getPrev user) w := by
  obtain ⟨v, hv⟩ := h.order
  have hlist := (hl.evolves.sound hd hs).list
  -- saved from the list as it was, where `user` still links to it
  have hprev : l.system.sortedTroves.getPrev user = u.getLastD 0 := by
    have hlinked := hlist.linked
    rw [hv] at hlinked
    exact hlinked.middle.1
  have hu : u ≠ [] := by
    rintro rfl
    exact hne h.first
  obtain ⟨w, x, rfl⟩ := (List.eq_nil_or_concat' u).resolve_left hu
  rw [getLastD_append] at hprev
  obtain rfl : l.system.sortedTroves.getPrev user = x := hprev
  refine ⟨w, rfl, ?_, ?_⟩
  · rcases hstep with hkept | hremove
    · exact ⟨user :: v, by rw [hkept, hv, List.append_assoc]; rfl⟩
    · exact ⟨v, by rw [SortedTroves.remove_middle hlist hv hremove, List.append_assoc]; rfl⟩
  · rw [← h.first, headD_append (w ++ _)]
    cases w <;> rfl

/-- In Recovery Mode the two loops agree on what the sequential one examines: a part of the list,
upwards from `user`, so that the batch loop finds every trove of it active. -/
theorem sequenceRecoveryModeLoop_eq (hd : d.Wired) (hs : Sound d s .none) {LUSDInStabPool : Nat}
    (hl : Tally d PlainOnly s LUSDInStabPool l) {firstUser user : Address} {u : List Address}
    (hat : AtTrove l firstUser user u) (rounds : Nat) :
    sequenceRecoveryModeLoop d price firstUser rounds user l =
        batchRecoveryModeLoop d price
          (examinedRecoveryMode d price firstUser rounds user l) l ∧
      (examinedRecoveryMode d price firstUser rounds user l).reverse <:+ u ++ [user] := by
  induction rounds generalizing l user u with
  | zero => exact ⟨rfl, List.nil_suffix⟩
  | succ rounds ih =>
    have hsl := hl.evolves.sound hd hs
    have hone : [user] <:+ u ++ [user] := List.suffix_append u [user]
    -- on the list, so the check of the status that only the batch makes passes
    have hactive : (l.system.troveManager.troves user).status = .active := by
      obtain ⟨v, hv⟩ := hat.order
      exact (hsl.registered.mem_order user).mp (by simp [hv])
    unfold sequenceRecoveryModeLoop examinedRecoveryMode
    -- the sequence never comes to the head; the array of the batch ends there
    by_cases hfirst : user = firstUser
    · simp only [hfirst, ne_eq, not_true, if_false]
      exact ⟨rfl, List.nil_suffix⟩
    simp only [ne_eq, hfirst, not_false_eq_true, if_true, batchRecoveryModeLoop, hactive, not_true,
      if_false]
    -- what is left once the body has run
    have hrest : ∀ l₁, LoopStep d price true l l₁ →
        (l₁.system.sortedTroves = l.system.sortedTroves ∨
          SortedTroves.remove d d.troveManager user l.system.sortedTroves =
            .ok l₁.system.sortedTroves) →
        sequenceRecoveryModeLoop d price firstUser rounds (l.system.sortedTroves.getPrev user) l₁ =
            batchRecoveryModeLoop d price (examinedRecoveryMode d price firstUser rounds
              (l.system.sortedTroves.getPrev user) l₁) l₁ ∧
          (user :: examinedRecoveryMode d price firstUser rounds
            (l.system.sortedTroves.getPrev user) l₁).reverse <:+ u ++ [user] := by
      intro l₁ hstep hremoved
      obtain ⟨w, hw, hat₁⟩ := hat.next hd hs hl hfirst hremoved
      obtain ⟨heq, hsuffix⟩ := ih (hl.loopStep hd hs PlainOnly.plain hstep) hat₁
      rw [← hw] at hsuffix
      rw [List.reverse_cons]
      exact ⟨heq, List.suffix_append_self_iff.mpr hsuffix⟩
    cases hICR : l.system.troveManager.getCurrentICR user price with
    | error e => exact ⟨rfl, hone⟩
    | ok ICR =>
      -- the two loops differ only in `return` against `continue`
      by_cases hback : l.vars.backToNormalMode = false
      · by_cases hskip : MCR ≤ ICR ∧ l.vars.remainingLUSDInStabPool = 0
        · simp [hback, hskip, hone, bind, Except.bind, batchRecoveryModeLoop, pure, Except.pure]
        · cases hbody : liquidateInRecoveryMode d price user ICR l with
          | error e => simp [hback, hskip, hbody, hone, bind, Except.bind]
          | ok l₁ =>
            have hlist := hbody
            simp only [liquidateInRecoveryMode, bind_ok, pure_ok] at hlist
            obtain ⟨TCR, -, r, hr, _, -, _, -, _, -, _, -, _, -, totals, -, mode, -, rfl⟩ := hlist
            have hnext := hrest _ (.recovery rfl hback hICR hskip hbody)
              (liquidateRecoveryMode_list hd hr)
            simpa [hback, hskip, hbody, bind, Except.bind] using hnext
      · by_cases hlt : ICR < MCR
        · cases hbody : liquidateInNormalMode d user l with
          | error e => simp [hback, hlt, hone, bind, Except.bind]
          | ok l₁ =>
            have hlist := hbody
            simp only [liquidateInNormalMode, bind_ok, pure_ok] at hlist
            obtain ⟨r, hr, _, -, totals, -, rfl⟩ := hlist
            have hnext := hrest _ (.normal (fun _ => by simpa using hback) hICR hlt hbody)
              (.inr (liquidateNormalMode_list hd hr).2)
            simpa [hback, hlt, hbody, bind, Except.bind] using hnext
        · simp [hback, hlt, hone, bind, Except.bind, batchRecoveryModeLoop, pure, Except.pure]

/-! ## The calls -/

/-- A loop of Recovery Mode that starts at the tail. -/
theorem sequenceRecoveryModeLoop_start (hd : d.Wired) (hs : Sound d s .none)
    (hmode : s.checkRecoveryMode price = .ok true)
    (hstart : startRecoveryMode s.stabilityPool.totalLUSDDeposits s = .ok l) (n : Nat) :
    sequenceRecoveryModeLoop d price s.sortedTroves.getFirst n s.sortedTroves.getLast l =
        batchRecoveryModeLoop d price (examinedRecoveryMode d price s.sortedTroves.getFirst n
          s.sortedTroves.getLast l) l ∧
      (examinedRecoveryMode d price s.sortedTroves.getFirst n s.sortedTroves.getLast l).reverse <:+
        s.sortedTroves.toList := by
  by_cases hempty : s.sortedTroves.toList = []
  · -- head and tail are both null
    have hsame : s.sortedTroves.getLast = s.sortedTroves.getFirst := by
      rw [SortedTroves.getLast, SortedTroves.getFirst, hs.list.tail_eq, hs.list.head_eq, hempty]
      rfl
    cases n with
    | zero => exact ⟨rfl, List.nil_suffix⟩
    | succ n =>
      simp only [sequenceRecoveryModeLoop, examinedRecoveryMode, hsame, ne_eq, not_true, if_false]
      exact ⟨rfl, List.nil_suffix⟩
  · obtain ⟨u, hu⟩ := eq_append_getLast hs.list hempty
    have hsystem : l.system = s := by
      simp only [startRecoveryMode, bind_ok, pure_ok] at hstart
      obtain ⟨_, -, _, -, rfl⟩ := hstart
      rfl
    have hloopStart : LoopStart price s true l := ⟨hmode, hstart⟩
    have hat : AtTrove l s.sortedTroves.getFirst s.sortedTroves.getLast u := by
      refine ⟨⟨[], by rw [hsystem]; exact hu⟩, ?_⟩
      rw [← hu, ← hs.list.head_eq]
      rfl
    rw [hu]
    exact sequenceRecoveryModeLoop_eq hd hs (hloopStart.tally hs) hat n

theorem liquidateTrovesTotals_eq (hd : d.Wired) (hs : Sound d s .none) (price n : Nat) :
    liquidateTrovesTotals d price n s =
        batchLiquidateTrovesTotals d price (examinedTroves d price n s) s ∧
      (s.sortedTroves.toList ≠ [] →
        (examinedTroves d price n s).reverse <:+ s.sortedTroves.toList) := by
  unfold liquidateTrovesTotals batchLiquidateTrovesTotals examinedTroves
  cases hmode : s.checkRecoveryMode price with
  | error e => exact ⟨rfl, fun _ => List.nil_suffix⟩
  | ok recovery =>
    cases recovery with
    | false =>
      have hstart : LoopStart price s false
        (startNormalMode s.stabilityPool.totalLUSDDeposits s) := ⟨hmode, rfl⟩
      refine ⟨sequenceNormalModeLoop_eq n _, fun hne => ?_⟩
      exact examinedNormalMode_suffix hd hs (hstart.tally hs) hne n
    | true =>
      cases hstart : startRecoveryMode s.stabilityPool.totalLUSDDeposits s with
      | error e =>
        refine ⟨?_, fun _ => List.nil_suffix⟩
        simp only [getTotalsFromLiquidateTrovesSequence_RecoveryMode,
          getTotalFromBatchLiquidate_RecoveryMode, hstart]
        rfl
      | ok l =>
        obtain ⟨heq, hsuffix⟩ := sequenceRecoveryModeLoop_start hd hs hmode hstart n
        refine ⟨?_, fun _ => hsuffix⟩
        simp only [getTotalsFromLiquidateTrovesSequence_RecoveryMode,
          getTotalFromBatchLiquidate_RecoveryMode, hstart]
        exact heq

/-- Nothing is tallied where no trove is examined. -/
theorem batchLiquidateTrovesTotals_nil
    (h : batchLiquidateTrovesTotals d price [] s = .ok l) : l.totals.totalDebtInSequence = 0 := by
  obtain ⟨recovery, -, h⟩ := bind_ok.mp h
  cases recovery with
  | false =>
    cases h
    rfl
  | true =>
    simp only [getTotalFromBatchLiquidate_RecoveryMode, startRecoveryMode, batchRecoveryModeLoop,
      if_true, bind_ok, pure_ok] at h
    obtain ⟨_, ⟨_, -, _, -, rfl⟩, h⟩ := h
    cases h
    rfl

/-- A batch succeeds exactly if it tallies and settles: the check of the length only refuses an array
that would have left nothing to liquidate. -/
theorem batchLiquidateTroves_ok_iff {env : Env} {troveArray : List Address} :
    batchLiquidateTroves d env troveArray s = .ok s' ↔
      ∃ l, batchLiquidateTrovesTotals d env.price troveArray s = .ok l ∧
        settleLiquidation d env l.totals l.system = .ok s' := by
  simp only [batchLiquidateTroves, bind_ok, require_ok]
  constructor
  · rintro ⟨_, -, h⟩
    exact h
  · rintro ⟨l, hl, h⟩
    refine ⟨(), fun hlength => ?_, l, hl, h⟩
    rw [List.length_eq_zero_iff.mp hlength] at hl
    have hzero := batchLiquidateTrovesTotals_nil hl
    simp only [settleLiquidation, bind_ok, require_ok] at h
    obtain ⟨_, hpos, -⟩ := h
    omega

/-- The two calls succeed together, with the same final state. -/
theorem liquidateTroves_ok_iff (hd : d.Wired) (hs : Sound d s .none) (env : Env) (n : Nat) :
    liquidateTroves d env n s = .ok s' ↔
      batchLiquidateTroves d env (examinedTroves d env.price n s) s = .ok s' := by
  rw [batchLiquidateTroves_ok_iff, ← (liquidateTrovesTotals_eq hd hs env.price n).1,
    liquidateTroves, bind_ok]

end TroveManager

/-- A call that takes no ether runs in the state as it is, or not at all. -/
theorem Call.execute_ok_iff {env : Env} {call : Call} (hpayable : call.isPayable = false) :
    call.execute d env s = .ok s' ↔
      env.value = 0 ∧ call.body d env { s with timestamp := env.timestamp } = .ok s' := by
  by_cases hvalue : env.value = 0
  · simp only [execute, receiveValue, hvalue, if_true, true_and]
    rfl
  · simp only [execute, receiveValue, hvalue, if_false, hpayable, false_and, iff_false, bind_ok,
      require_ok]
    rintro ⟨_, ⟨_, hno, -⟩, -⟩
    cases hno

/-- Sequential liquidation, and batch liquidation of the troves that it examines, tally the same and
end in the same state or both revert.  The examined troves are the end of the list, from the tail
upwards. -/
theorem sequence_eq_batch (hd : d.Wired) (hr : Reachable d s) (env : Env) (n : Nat)
    (troveArray : List Address)
    (harray : troveArray = examinedTroves d env.price n { s with timestamp := env.timestamp }) :
    (s.sortedTroves.toList ≠ [] → troveArray.reverse <:+ s.sortedTroves.toList) ∧
      (Call.liquidateTroves n).tally d env { s with timestamp := env.timestamp } =
        (Call.batchLiquidateTroves troveArray).tally d env { s with timestamp := env.timestamp } ∧
      ∀ s', Step d s ⟨env, .liquidateTroves n⟩ s' ↔
        Step d s ⟨env, .batchLiquidateTroves troveArray⟩ s' := by
  subst harray
  have hs₀ : Sound d { s with timestamp := env.timestamp } .none := { hr.sound hd with }
  obtain ⟨htotals, hsuffix⟩ := liquidateTrovesTotals_eq hd hs₀ env.price n
  refine ⟨hsuffix, congrArg some htotals, fun s' => ?_⟩
  have hvalid : Transaction.Valid d ⟨env, .liquidateTroves n⟩ s ↔
      Transaction.Valid d ⟨env, .batchLiquidateTroves
        (examinedTroves d env.price n { s with timestamp := env.timestamp })⟩ s :=
    ⟨fun h => { h with }, fun h => { h with }⟩
  refine and_congr hvalid ?_
  rw [Call.execute_ok_iff rfl, Call.execute_ok_iff rfl]
  exact and_congr_right fun _ => liquidateTroves_ok_iff hd hs₀ env n

/-- The first of two examined troves is offset, which ends Recovery Mode; the loop breaks at the
second. -/
theorem sampleRecovery_batch : ∃ s s', Reachable sampleDeployment s ∧
    s.checkRecoveryMode (1840 * 10 ^ 18) = .ok true ∧
    s'.checkRecoveryMode (1840 * 10 ^ 18) = .ok false ∧
    Step sampleDeployment s ⟨⟨104, 0, 0, 1840 * 10 ^ 18⟩, .liquidateTroves 3⟩ s' ∧
    Step sampleDeployment s ⟨⟨104, 0, 0, 1840 * 10 ^ 18⟩, .batchLiquidateTroves [102, 103]⟩ s' := by
  obtain ⟨s, s', hs, hstep, hexamined, hbefore, hafter⟩ := exists_step
    [⟨⟨101, 11 * 10 ^ 18, 0, 2000 * 10 ^ 18⟩, .openTrove (10 ^ 18) (10000 * 10 ^ 18) 0 0⟩,
      ⟨⟨102, 6 * 10 ^ 18, 0, 2000 * 10 ^ 18⟩, .openTrove (10 ^ 18) (10000 * 10 ^ 18) 0 0⟩,
      ⟨⟨103, 62 * 10 ^ 17, 0, 2000 * 10 ^ 18⟩, .openTrove (10 ^ 18) (10000 * 10 ^ 18) 0 0⟩,
      ⟨⟨101, 0, 0, 2000 * 10 ^ 18⟩, .provideToSP (10000 * 10 ^ 18) 0⟩]
    ⟨⟨104, 0, 0, 1840 * 10 ^ 18⟩, .liquidateTroves 3⟩
    (fun s s' => examinedTroves sampleDeployment (1840 * 10 ^ 18) 3 { s with timestamp := 0 } =
        [102, 103] ∧
      (s.checkRecoveryMode (1840 * 10 ^ 18)).toOption.any (fun b => decide (b = true)) = true ∧
      (s'.checkRecoveryMode (1840 * 10 ^ 18)).toOption.any (fun b => decide (b = false)) = true)
    (by decide +kernel)
  obtain ⟨_, hbefore, rfl⟩ := exists_ok hbefore
  obtain ⟨_, hafter, rfl⟩ := exists_ok hafter
  have hbatch := sequence_eq_batch sampleDeployment_wired hs ⟨104, 0, 0, 1840 * 10 ^ 18⟩ 3 _
    hexamined.symm
  exact ⟨s, s', hs, hbefore, hafter, hstep, (hbatch.2.2 s').mp hstep⟩

end Liquity
