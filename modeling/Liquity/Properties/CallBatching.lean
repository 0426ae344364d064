import Liquity.Providers.BatchedProvider
import Mathlib.Data.List.Induction
import Mathlib.Data.List.Nodup
import Mathlib.Data.List.Perm.Basic
import Mathlib.Algebra.BigOperators.Group.List.Basic
import Mathlib.Algebra.GroupWithZero.Nat

/-!
# Batching of calls

Every call that was enqueued is waiting in one batch or settled, and what it is settled with is the
answer to itself, whichever way calls, timers and answers interleave.
-/

namespace Liquity.Providers

/-- The two lists of a batch match by position, and no call of it is for another block. -/
def BatchedCalls.Matched (batch : BatchedCalls) : Prop :=
  batch.calls = batch.callbacks.map (·.call) ∧
    ∀ callback ∈ batch.callbacks, callback.blockTag.getD .latest = batch.blockTag.getD .latest

theorem BatchedCalls.matched_empty : emptyBatch.Matched := by
  constructor
  · rfl
  · intro callback h
    cases h

namespace BatchedProvider

variable {Data Reason : Type} {p p' : BatchedProvider Data Reason}
  {events : List (Event Data Reason)} {event : Event Data Reason}

/-- A promise is settled with the answer to its own batch: the data of its own call at its own block,
or the error. -/
def SettledByAnswer (events : List (Event Data Reason)) (callback : Callback)
    (outcome : Outcome Data Reason) : Prop :=
  ∃ before i answer after q batch,
    events = before ++ .answered i answer :: after ∧ run before = some q ∧
      q.dispatched[i]? = some batch ∧ callback ∈ batch.callbacks ∧
      outcome = match answer with
        | .ok chain => .resolved (some (chain (callback.blockTag.getD .latest) callback.call))
        | .error error => .rejected error

/-- How often a callback is held by the open batch, by a dispatched batch or by a settled promise. -/
def places (p : BatchedProvider Data Reason) (callback : Callback) : Nat :=
  p.batched.callbacks.count callback + (p.dispatched.map (·.callbacks.count callback)).sum +
    (p.settled.map Prod.fst).count callback

/-- What holds after the events of a run. -/
structure Accounted (events : List (Event Data Reason)) (p : BatchedProvider Data Reason) : Prop where
  distinct : (p.enqueued.map (·.id)).Nodup
  /-- No enqueued call is lost, held twice or settled twice. -/
  once : ∀ callback ∈ p.enqueued, p.places callback = 1
  enqueued : ∀ callback, p.places callback ≠ 0 → callback ∈ p.enqueued
  /-- One timer is running for the open batch, and none without a call in it. -/
  timer : if p.batched.calls = [] then p.timers = [] else ∃ id, p.timers = [id]
  matched : ∀ batch ∈ p.batched :: p.dispatched, batch.Matched
  nonempty : ∀ batch ∈ p.dispatched, batch.calls ≠ []
  settled : ∀ s ∈ p.settled, SettledByAnswer events s.1 s.2
  /-- An enqueued call has the target, the data and the block of the request that was made. -/
  requested : ∀ callback ∈ p.enqueued, ∃ request : ResolvedTransactionRequest,
    .resolved callback.id request callback.blockTag ∈ events ∧
      callback.call = ⟨request.«to», request.data⟩

/-! ## The invariant -/

structure Inv (p : BatchedProvider Data Reason) : Prop where
  ids : (p.resolving ++ p.enqueued.map (·.id)).Nodup
  numbered : ∀ id ∈ p.resolving ++ p.enqueued.map (·.id), id < p.numberOfCalls
  multicall : p.multicall = none → p.resolving = [] ∧ p.batched.calls = []
  partition : p.enqueued.Perm
    (p.batched.callbacks ++ p.dispatched.flatMap (·.callbacks) ++ p.settled.map Prod.fst)
  timer : (p.batched.calls = [] ∧ p.timers = []) ∨
    (p.batched.calls ≠ [] ∧ ∃ id, p.timeoutId = some id ∧ p.timers = [id])
  matched : ∀ batch ∈ p.batched :: p.dispatched, batch.Matched
  nonempty : ∀ batch ∈ p.dispatched, batch.calls ≠ []

theorem inv_initial : Inv (initial : BatchedProvider Data Reason) where
  ids := by simp [initial]
  numbered := by simp [initial]
  multicall _ := ⟨rfl, rfl⟩
  partition := by simp [initial, emptyBatch]
  timer := .inl ⟨rfl, rfl⟩
  matched := by
    intro batch h
    rw [List.mem_singleton.mp h]
    exact BatchedCalls.matched_empty
  nonempty := by simp [initial]

/-! ## What each step does -/

theorem checkRatio_eq (p : BatchedProvider Data Reason) (now : Nat) :
    ∃ numberOfBatchedCalls numberOfActualCalls timeOfLastRatioCheck, p.checkRatio now =
      { p with
        numberOfBatchedCalls := numberOfBatchedCalls, numberOfActualCalls := numberOfActualCalls
        timeOfLastRatioCheck := timeOfLastRatioCheck } := by
  unfold checkRatio
  split
  · exact ⟨_, _, _, rfl⟩
  · split
    · exact ⟨_, _, _, rfl⟩
    · exact ⟨_, _, _, rfl⟩

/-- What `call` leaves alone before it awaits anything. -/
theorem call_kept (p : BatchedProvider Data Reason) (now : Nat) :
    (p.call now).enqueued = p.enqueued ∧ (p.call now).settled = p.settled := by
  unfold call
  cases hmulticall : p.multicall with
  | none => exact ⟨rfl, rfl⟩
  | some m =>
    obtain ⟨_, _, _, hcheck⟩ := checkRatio_eq { p with numberOfCalls := p.numberOfCalls + 1 } now
    simp only [hmulticall] at hcheck ⊢
    rw [hcheck]
    exact ⟨rfl, rfl⟩

/-- A call whose properties are resolved is forwarded, or it joins the open batch and restarts the
timer. -/
theorem callResolved_cases (p : BatchedProvider Data Reason) (multicallAddress : String) (id : Nat)
    (request : ResolvedTransactionRequest) (blockTag : Option BlockTag) :
    (∃ numberOfActualCalls forwarded, p.callResolved multicallAddress id request blockTag =
        { p with numberOfActualCalls := numberOfActualCalls, forwarded := forwarded }) ∨
      ∃ tag numberOfBatchedCalls,
        (p.batched.calls = [] → tag = blockTag) ∧
        (p.batched.calls ≠ [] → tag = p.batched.blockTag ∧
          blockTag.getD .latest = p.batched.blockTag.getD .latest) ∧
        p.callResolved multicallAddress id request blockTag =
          { p with
            numberOfBatchedCalls := numberOfBatchedCalls
            timeoutId := some p.nextTimerId
            timers := (match p.timeoutId with
              | some id => p.timers.filter (· ≠ id)
              | none => p.timers) ++ [p.nextTimerId]
            nextTimerId := p.nextTimerId + 1
            enqueued := p.enqueued ++ [⟨id, ⟨request.«to», request.data⟩, blockTag⟩]
            batched :=
              { calls := p.batched.calls ++ [⟨request.«to», request.data⟩]
                callbacks := p.batched.callbacks ++ [⟨id, ⟨request.«to», request.data⟩, blockTag⟩]
                blockTag := tag } } := by
  unfold callResolved
  split
  next => exact .inl ⟨_, _, rfl⟩
  next hbatch =>
    right
    cases hcalls : p.batched.calls with
    | nil =>
      refine ⟨blockTag, p.numberOfBatchedCalls + 1, fun _ => rfl, fun h => absurd rfl h, ?_⟩
      simp only [hcalls, List.isEmpty_nil, if_true, enqueueCall]
      cases p.timeoutId <;> simp [clearTimeout]
    | cons head tail =>
      refine ⟨p.batched.blockTag, p.numberOfBatchedCalls + 1, fun h => absurd h (by simp), ?_, ?_⟩
      · intro _
        simp only [alreadyBatchedCallsConflictWith, hcalls] at hbatch
        simp only [List.isEmpty_cons, Bool.not_false, Bool.true_and, Bool.or_eq_true, not_or] at hbatch
        exact ⟨rfl, by simpa using hbatch.2⟩
      · simp only [hcalls, List.isEmpty_cons, Bool.false_eq_true, if_false, enqueueCall]
        cases p.timeoutId <;> simp [clearTimeout, hcalls]

/-- A batch with a call in it is dispatched as it is, and one with more calls calls back. -/
theorem dispatchCalls_cases (hcalls : p.batched.calls ≠ []) (hmulticall : p.multicall ≠ none)
    (now : Nat) :
    p.dispatchCalls now =
        { p with batched := emptyBatch, dispatched := p.dispatched ++ [p.batched] } ∨
      p.dispatchCalls now =
        { p with
          batched := emptyBatch, dispatched := p.dispatched ++ [p.batched]
          aggregates := p.aggregates ++ [p.numberOfCalls] }.call now := by
  unfold dispatchCalls
  cases h : p.batched.calls with
  | nil => exact absurd h hcalls
  | cons head tail =>
    cases hm : p.multicall with
    | none => exact absurd hm hmulticall
    | some m =>
      cases tail with
      | nil => exact .inl (by simp [h])
      | cons second rest => exact .inr (by simp [h])

/-- Position by position, an answer gives each caller of a batch the data of its own call. -/
theorem settle_ok (chain : Chain Data) {batch : BatchedCalls} (hbatch : batch.Matched)
    (p : BatchedProvider Data Reason) :
    settle (.ok chain) batch p =
      { p with
        settled := p.settled ++ batch.callbacks.map fun callback =>
          (callback, .resolved (some (chain (callback.blockTag.getD .latest) callback.call))) } := by
  have hresults : results chain batch =
      batch.callbacks.map fun c => chain (c.blockTag.getD .latest) c.call := by
    have haggregate : aggregate chain batch.calls batch.blockTag =
        batch.callbacks.map fun c => chain (c.blockTag.getD .latest) c.call := by
      rw [aggregate, hbatch.1, List.map_map]
      apply List.map_congr_left
      intro c hc
      rw [hbatch.2 c hc]
      rfl
    rw [← haggregate]
    unfold results
    split
    next call h => rw [h]; rfl
    next => rfl
  simp only [settle]
  congr 2
  rw [hresults]
  apply List.ext_getElem
  · simp
  · intro i h₁ h₂
    have hi : i < batch.callbacks.length := by simpa using h₁
    simp only [List.getElem_mapIdx, List.getElem_map, List.getElem?_map,
      List.getElem?_eq_getElem hi, Option.map_some]

/-- What an answer adds to the settled promises. -/
def outcomes (answer : Except Reason (Chain Data)) (batch : BatchedCalls) :
    List (Callback × Outcome Data Reason) :=
  batch.callbacks.map fun callback =>
    (callback, match answer with
      | .ok chain => .resolved (some (chain (callback.blockTag.getD .latest) callback.call))
      | .error error => .rejected error)

theorem settle_eq (answer : Except Reason (Chain Data)) {batch : BatchedCalls}
    (hbatch : batch.Matched) (p : BatchedProvider Data Reason) :
    settle answer batch p = { p with settled := p.settled ++ outcomes answer batch } := by
  cases answer with
  | ok chain => exact settle_ok chain hbatch p
  | error error => rfl

/-! ## The invariant is kept -/

theorem Inv.erase (hp : Inv p) (id : Nat) :
    Inv { p with resolving := p.resolving.erase id } := by
  have hsub : (p.resolving.erase id ++ p.enqueued.map (·.id)).Sublist
      (p.resolving ++ p.enqueued.map (·.id)) :=
    List.Sublist.append_right List.erase_sublist _
  exact { hp with
    ids := hp.ids.sublist hsub
    numbered := fun i hi => hp.numbered i (hsub.subset hi)
    multicall := fun h => by
      have hnil := (hp.multicall h).1
      refine ⟨?_, (hp.multicall h).2⟩
      show p.resolving.erase id = []
      rw [hnil]
      rfl }

theorem inv_setChainId (hp : Inv p) (chainId : Nat) : Inv (p.setChainId chainId) := by
  unfold setChainId
  split
  next => exact hp
  next hnone =>
    have hidle := hp.multicall (by simpa using hnone)
    exact { hp with multicall := fun _ => hidle }

theorem inv_call (hp : Inv p) (now : Nat) : Inv (p.call now) := by
  have hnumbered : ∀ id ∈ p.resolving ++ p.enqueued.map (·.id), id < p.numberOfCalls + 1 :=
    fun id hid => Nat.lt_succ_of_lt (hp.numbered id hid)
  unfold call
  cases hmulticall : p.multicall with
  | none => exact { hp with numbered := hnumbered, multicall := fun _ => hp.multicall hmulticall }
  | some m =>
    obtain ⟨_, _, _, hcheck⟩ := checkRatio_eq { p with numberOfCalls := p.numberOfCalls + 1 } now
    simp only [hmulticall] at hcheck ⊢
    rw [hcheck]
    have hperm : (p.resolving ++ [p.numberOfCalls] ++ p.enqueued.map (·.id)).Perm
        (p.numberOfCalls :: (p.resolving ++ p.enqueued.map (·.id))) := by
      rw [List.append_assoc]
      exact List.perm_middle
    exact { hp with
      ids := by
        apply hperm.nodup_iff.mpr
        rw [List.nodup_cons]
        exact ⟨fun h => absurd (hp.numbered _ h) (by omega), hp.ids⟩
      numbered := fun id hid => by
        rcases List.mem_cons.mp (hperm.mem_iff.mp hid) with rfl | hid
        · exact Nat.lt_succ_self _
        · exact hnumbered id hid
      multicall := fun h => by cases h }

theorem inv_callResolved (hp : Inv p) {multicallAddress : String}
    (hmulticall : p.multicall = some multicallAddress) {id : Nat} (hid : id ∈ p.resolving)
    (request : ResolvedTransactionRequest) (blockTag : Option BlockTag) :
    Inv ({ p with resolving := p.resolving.erase id }.callResolved
      multicallAddress id request blockTag) := by
  have hq := hp.erase id
  rcases callResolved_cases { p with resolving := p.resolving.erase id } multicallAddress id request
    blockTag with ⟨_, _, h⟩ | ⟨tag, _, htag, hsame, h⟩
  · rw [h]
    exact { hq with }
  rw [h]
  generalize CallRequest.mk request.«to» request.data = call
  have hperm : (p.resolving.erase id ++ (p.enqueued ++ [Callback.mk id call blockTag]).map (·.id)).Perm
      (p.resolving ++ p.enqueued.map (·.id)) := by
    have herase : (id :: p.resolving.erase id ++ p.enqueued.map (·.id)).Perm
        (p.resolving ++ p.enqueued.map (·.id)) :=
      (List.perm_cons_erase hid).symm.append_right _
    refine List.Perm.trans ?_ herase
    rw [List.map_append, ← List.append_assoc]
    exact List.perm_append_singleton _ _
  exact {
    ids := hperm.nodup_iff.mpr hp.ids
    numbered := fun i hi => hp.numbered i (hperm.mem_iff.mp hi)
    multicall := fun hnone => by
      have hnone : p.multicall = none := hnone
      rw [hmulticall] at hnone
      cases hnone
    partition := by
      have hmove : (p.enqueued ++ [Callback.mk id call blockTag]).Perm
          (p.batched.callbacks ++ p.dispatched.flatMap (·.callbacks) ++ p.settled.map Prod.fst ++
            [Callback.mk id call blockTag]) := hp.partition.append_right _
      refine hmove.trans ?_
      simp only [List.append_assoc]
      refine List.Perm.append_left _ ?_
      rw [← List.append_assoc]
      exact List.perm_append_singleton _ _
    timer := by
      refine .inr ⟨by simp, p.nextTimerId, rfl, ?_⟩
      show (match p.timeoutId with
        | some id => p.timers.filter (· ≠ id)
        | none => p.timers) ++ [p.nextTimerId] = [p.nextTimerId]
      rcases hp.timer with ⟨-, htimers⟩ | ⟨-, timer, htimeout, htimers⟩
      · rw [htimers]
        cases p.timeoutId <;> rfl
      · -- the timer that was running is the one that is cleared
        rw [htimeout, htimers]
        simp
    matched := by
      intro batch hbatch
      rcases List.mem_cons.mp hbatch with rfl | hbatch
      · have hopen := hp.matched p.batched List.mem_cons_self
        refine ⟨?_, ?_⟩
        · show p.batched.calls ++ [call] =
            (p.batched.callbacks ++ [Callback.mk id call blockTag]).map (·.call)
          rw [hopen.1, List.map_append]
          rfl
        · intro callback hmem
          show callback.blockTag.getD .latest = tag.getD .latest
          rcases List.mem_append.mp hmem with hmem | hmem
          · -- the tag of a batch with calls in it stays
            have hcalls : p.batched.calls ≠ [] := by
              rw [hopen.1]
              simp only [ne_eq, List.map_eq_nil_iff]
              exact List.ne_nil_of_mem hmem
            rw [(hsame hcalls).1]
            exact hopen.2 callback hmem
          · -- the new call sets the tag of an empty batch, and otherwise has the same one
            rw [List.mem_singleton.mp hmem]
            by_cases hcalls : p.batched.calls = []
            · rw [htag hcalls]
            · rw [(hsame hcalls).1]
              exact (hsame hcalls).2
      · exact hp.matched batch (List.mem_cons_of_mem _ hbatch)
    nonempty := hp.nonempty }

theorem inv_timer (hp : Inv p) {id : Nat} (hid : id ∈ p.timers) (now : Nat) :
    Inv ({ p with timers := p.timers.erase id }.dispatchCalls now) := by
  -- the timer that fires is the timer of the open batch
  rcases hp.timer with ⟨-, htimers⟩ | ⟨hcalls, timer, -, htimers⟩
  · rw [htimers] at hid
    cases hid
  have hmulticall : p.multicall ≠ none := fun h => hcalls (hp.multicall h).2
  rw [htimers, List.mem_singleton] at hid
  subst hid
  have hopen : ∀ aggregates, Inv { p with
      timers := p.timers.erase id, batched := emptyBatch
      dispatched := p.dispatched ++ [p.batched], aggregates := aggregates } := fun _ => { hp with
    multicall := fun h => absurd h hmulticall
    partition := by
      refine hp.partition.trans ?_
      simp only [emptyBatch, List.flatMap_append, List.flatMap_cons, List.flatMap_nil,
        List.append_nil, List.nil_append]
      exact List.Perm.append_right _ List.perm_append_comm
    timer := by
      refine .inl ⟨rfl, ?_⟩
      show p.timers.erase id = []
      rw [htimers]
      simp
    matched := by
      intro batch hbatch
      rcases List.mem_cons.mp hbatch with rfl | hbatch
      · exact BatchedCalls.matched_empty
      · rcases List.mem_append.mp hbatch with hbatch | hbatch
        · exact hp.matched batch (List.mem_cons_of_mem _ hbatch)
        · rw [List.mem_singleton.mp hbatch]
          exact hp.matched p.batched List.mem_cons_self
    nonempty := by
      intro batch hbatch
      rcases List.mem_append.mp hbatch with hbatch | hbatch
      · exact hp.nonempty batch hbatch
      · rw [List.mem_singleton.mp hbatch]
        exact hcalls }
  rcases dispatchCalls_cases (p := { p with timers := p.timers.erase id }) hcalls hmulticall now with
    h | h
  · rw [h]
    exact hopen p.aggregates
  · rw [h]
    exact inv_call (hopen _) now

/-- The callers of a batch move from the dispatched batches to the settled promises. -/
theorem flatMap_eraseIdx_perm {batches : List BatchedCalls} {i : Nat} {batch : BatchedCalls}
    (h : batches[i]? = some batch) :
    (batches.flatMap (·.callbacks)).Perm
      (batch.callbacks ++ (batches.eraseIdx i).flatMap (·.callbacks)) := by
  obtain ⟨hi, rfl⟩ := List.getElem?_eq_some_iff.mp h
  have hperm : batches.Perm (batches[i] :: batches.eraseIdx i) :=
    (List.getElem_cons_eraseIdx_perm hi).symm
  rw [← List.flatMap_cons]
  exact hperm.flatMap_right _

theorem inv_answered (hp : Inv p) {i : Nat} {batch : BatchedCalls}
    (hbatch : p.dispatched[i]? = some batch) (answer : Except Reason (Chain Data)) :
    Inv (settle answer batch { p with dispatched := p.dispatched.eraseIdx i }) := by
  have hmatched := hp.matched batch (List.mem_cons_of_mem _ (List.mem_of_getElem? hbatch))
  have hsub : ∀ other ∈ p.dispatched.eraseIdx i, other ∈ p.dispatched :=
    fun other h => List.mem_of_mem_eraseIdx h
  rw [settle_eq answer hmatched]
  exact { hp with
    partition := by
      have hfst : (outcomes answer batch).map Prod.fst = batch.callbacks := by
        rw [outcomes, List.map_map]
        exact List.map_id' _
      refine hp.partition.trans ?_
      show (p.batched.callbacks ++ p.dispatched.flatMap (·.callbacks) ++ p.settled.map Prod.fst).Perm
        (p.batched.callbacks ++ (p.dispatched.eraseIdx i).flatMap (·.callbacks) ++
          (p.settled ++ outcomes answer batch).map Prod.fst)
      rw [List.map_append, hfst]
      simp only [List.append_assoc]
      refine List.Perm.append_left _ ?_
      refine ((flatMap_eraseIdx_perm hbatch).append_right _).trans ?_
      rw [List.append_assoc]
      refine List.perm_append_comm.trans ?_
      rw [List.append_assoc]
    matched := by
      intro other hother
      rcases List.mem_cons.mp hother with rfl | hother
      · exact hp.matched _ List.mem_cons_self
      · exact hp.matched other (List.mem_cons_of_mem _ (hsub other hother))
    nonempty := fun other hother => hp.nonempty other (hsub other hother) }

theorem inv_step (hp : Inv p) (h : p.step event = some p') : Inv p' := by
  cases event with
  | setChainId chainId =>
    cases h
    exact inv_setChainId hp chainId
  | call now =>
    cases h
    exact inv_call hp now
  | resolved id request blockTag =>
    simp only [step] at h
    split at h
    next m hmulticall =>
      split at h
      next hid =>
        cases h
        exact inv_callResolved hp hmulticall hid.1 request blockTag
      next => cases h
    next => cases h
  | unresolvable id =>
    simp only [step] at h
    split at h <;> cases h
    exact hp.erase id
  | timer id now =>
    simp only [step] at h
    split at h
    next hid =>
      cases h
      exact inv_timer hp hid now
    next => cases h
  | answered i answer =>
    obtain ⟨batch, hbatch, rfl⟩ := Option.map_eq_some_iff.mp h
    exact inv_answered hp hbatch answer

/-- A timer neither enqueues a call nor settles a promise. -/
theorem Inv.dispatchCalls_kept (hp : Inv p) {id : Nat} (hid : id ∈ p.timers) (now : Nat) :
    ({ p with timers := p.timers.erase id }.dispatchCalls now).enqueued = p.enqueued ∧
      ({ p with timers := p.timers.erase id }.dispatchCalls now).settled = p.settled := by
  rcases hp.timer with ⟨-, htimers⟩ | ⟨hcalls, -⟩
  · rw [htimers] at hid
    cases hid
  · rcases dispatchCalls_cases (p := { p with timers := p.timers.erase id }) hcalls
      (fun h => hcalls (hp.multicall h).2) now with h | h
    · rw [h]
      exact ⟨rfl, rfl⟩
    · rw [h]
      exact call_kept _ now

/-- What an event adds to the enqueued calls and the settled promises: a resolved request enqueues what
it asks for, an answer settles its batch, and nothing else adds anything. -/
theorem step_cases (hp : Inv p) (h : p.step event = some p') :
    (p'.enqueued = p.enqueued ∧ p'.settled = p.settled) ∨
      (∃ id request blockTag, event = .resolved id request blockTag ∧
        p'.enqueued = p.enqueued ++ [⟨id, ⟨request.«to», request.data⟩, blockTag⟩] ∧
        p'.settled = p.settled) ∨
      ∃ i answer batch, event = .answered i answer ∧ p.dispatched[i]? = some batch ∧
        p'.enqueued = p.enqueued ∧ p'.settled = p.settled ++ outcomes answer batch := by
  cases event with
  | setChainId chainId =>
    cases h
    left
    unfold setChainId
    split <;> exact ⟨rfl, rfl⟩
  | call now =>
    cases h
    exact .inl (call_kept p now)
  | resolved id request blockTag =>
    simp only [step] at h
    split at h
    next m hmulticall =>
      split at h
      next hid =>
        cases h
        rcases callResolved_cases { p with resolving := p.resolving.erase id } m id request blockTag with
          ⟨_, _, h⟩ | ⟨_, _, -, -, h⟩
        · left
          rw [h]
          exact ⟨rfl, rfl⟩
        · right
          left
          rw [h]
          exact ⟨id, request, blockTag, rfl, rfl, rfl⟩
      next => cases h
    next => cases h
  | unresolvable id =>
    simp only [step] at h
    split at h <;> cases h
    exact .inl ⟨rfl, rfl⟩
  | timer id now =>
    simp only [step] at h
    split at h
    next hid =>
      cases h
      exact .inl (hp.dispatchCalls_kept hid now)
    next => cases h
  | answered i answer =>
    obtain ⟨batch, hbatch, rfl⟩ := Option.map_eq_some_iff.mp h
    have hmatched := hp.matched batch (List.mem_cons_of_mem _ (List.mem_of_getElem? hbatch))
    rw [settle_eq answer hmatched]
    exact .inr (.inr ⟨i, answer, batch, rfl, hbatch, rfl, rfl⟩)

/-! ## Whole runs -/

theorem run_snoc (h : run (events ++ [event]) = some p') :
    ∃ p, run events = some p ∧ p.step event = some p' := by
  unfold run at h ⊢
  rw [List.foldlM_append, Option.bind_eq_bind, Option.bind_eq_some_iff] at h
  simpa using h

theorem inv_run (h : run events = some p) : Inv p := by
  -- on the last event, like the runs below
  induction events using List.reverseRecOn generalizing p with
  | nil =>
    cases h
    exact inv_initial
  | append_singleton before event ih =>
    obtain ⟨q, hq, hstep⟩ := run_snoc h
    exact inv_step (ih hq) hstep

theorem SettledByAnswer.snoc {callback : Callback} {outcome : Outcome Data Reason}
    (h : SettledByAnswer events callback outcome) :
    SettledByAnswer (events ++ [event]) callback outcome := by
  obtain ⟨before, i, answer, after, q, batch, rfl, hrest⟩ := h
  refine ⟨before, i, answer, after ++ [event], q, batch, ?_, hrest⟩
  rw [List.append_assoc, List.cons_append]

theorem settled_run (h : run events = some p) : ∀ s ∈ p.settled, SettledByAnswer events s.1 s.2 := by
  induction events using List.reverseRecOn generalizing p with
  | nil =>
    cases h
    intro s hs
    cases hs
  | append_singleton before event ih =>
    obtain ⟨q, hq, hstep⟩ := run_snoc h
    intro s hs
    rcases step_cases (inv_run hq) hstep with ⟨-, hsame⟩ | ⟨_, _, _, -, -, hsame⟩ |
      ⟨i, answer, batch, rfl, hbatch, -, hadd⟩
    · rw [hsame] at hs
      exact (ih hq s hs).snoc
    · rw [hsame] at hs
      exact (ih hq s hs).snoc
    · rw [hadd, List.mem_append] at hs
      rcases hs with hs | hs
      · exact (ih hq s hs).snoc
      · -- settled by the last event, which answers the batch of `callback`
        obtain ⟨callback, hcallback, rfl⟩ := List.mem_map.mp hs
        exact ⟨before, i, answer, [], q, batch, rfl, hq, hbatch, hcallback, rfl⟩

/-- Every enqueued call goes back to the request of its own number. -/
theorem requested_run (h : run events = some p) :
    ∀ callback ∈ p.enqueued, ∃ request : ResolvedTransactionRequest,
      .resolved callback.id request callback.blockTag ∈ events ∧
        callback.call = ⟨request.«to», request.data⟩ := by
  induction events using List.reverseRecOn generalizing p with
  | nil =>
    cases h
    intro callback hcallback
    cases hcallback
  | append_singleton before event ih =>
    obtain ⟨q, hq, hstep⟩ := run_snoc h
    intro callback hcallback
    -- the call was enqueued before, or the last event enqueued it
    have hbefore : callback ∈ q.enqueued → ∃ request : ResolvedTransactionRequest,
        .resolved callback.id request callback.blockTag ∈ before ++ [event] ∧
          callback.call = ⟨request.«to», request.data⟩ := by
      intro hmem
      obtain ⟨request, hevent, hcall⟩ := ih hq callback hmem
      exact ⟨request, List.mem_append_left _ hevent, hcall⟩
    rcases step_cases (inv_run hq) hstep with ⟨hsame, -⟩ | ⟨id, request, blockTag, rfl, hadd, -⟩ |
      ⟨_, _, _, -, -, hsame, -⟩
    · rw [hsame] at hcallback
      exact hbefore hcallback
    · rw [hadd, List.mem_append] at hcallback
      rcases hcallback with hcallback | hcallback
      · exact hbefore hcallback
      · rw [List.mem_singleton.mp hcallback]
        exact ⟨request, List.mem_append_right _ List.mem_cons_self, rfl⟩
    · rw [hsame] at hcallback
      exact hbefore hcallback

theorem Inv.places_eq (hp : Inv p) (callback : Callback) :
    p.places callback = p.enqueued.count callback := by
  rw [hp.partition.count_eq, List.count_append, List.count_append, List.count_flatMap]
  rfl

/-- In every state of a run each enqueued call is in one place, waiting for a timer or an answer, or
settled with the answer to the request that it was made with. -/
theorem run_accounted (h : run events = some p) : Accounted events p where
  distinct := (List.nodup_append.mp (inv_run h).ids).2.1
  once := by
    intro callback hcallback
    rw [(inv_run h).places_eq]
    have hnodup : p.enqueued.Nodup := (List.nodup_append.mp (inv_run h).ids).2.1.of_map _
    exact List.count_eq_one_of_mem hnodup hcallback
  enqueued := by
    intro callback hplaces
    rw [(inv_run h).places_eq] at hplaces
    exact List.count_pos_iff.mp (Nat.pos_of_ne_zero hplaces)
  timer := by
    rcases (inv_run h).timer with ⟨hcalls, htimers⟩ | ⟨hcalls, id, -, htimers⟩
    · rw [if_pos hcalls]
      exact htimers
    · rw [if_neg hcalls]
      exact ⟨id, htimers⟩
  matched := (inv_run h).matched
  nonempty := (inv_run h).nonempty
  settled := settled_run h
  requested := requested_run h

/-! ## An interleaving -/

def sampleRequest (target : String) : ResolvedTransactionRequest :=
  { «to» := some target, data := some (.hex "0x"), gasLimit := none, gasPrice := none, value := none }

/-- Two calls share a batch, whose `aggregate` is the call of number 3, a third joins the next one
before the first is answered, and the second batch is answered first. -/
def sampleEvents : List (Event Nat String) :=
  [.setChainId 1, .call 0, .call 0, .call 0,
    .resolved 1 (sampleRequest "a") none, .resolved 0 (sampleRequest "b") (some .latest), .timer 1 5,
    .resolved 3 { sampleRequest "0xeefBa1e63905eF1D7ACbA5a8513c70307C1cE441" with
      data := some (.hex "0x252dba42") } none,
    .resolved 2 (sampleRequest "c") (some (.number 7)), .timer 2 6,
    .answered 1 (.ok fun _ call => if call.target = some "c" then 3 else 0),
    .answered 0 (.error "timeout")]

def sampleProvider : BatchedProvider Nat String := (run sampleEvents).getD initial

theorem sampleEvents_accounted :
    sampleProvider.settled.length = 3 ∧ sampleProvider.numberOfActualCalls = 1 ∧
      Accounted sampleEvents sampleProvider := by
  refine ⟨?_, ?_, ?_⟩
  · rfl
  · rfl
  · exact run_accounted rfl

end BatchedProvider

end Liquity.Providers
