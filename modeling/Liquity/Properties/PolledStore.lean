import Liquity.LibEthers.BlockPolledLiquityStore
import Mathlib.Data.List.Induction

/-!
# The block-polled store and time

The store never goes back in time and stays quiet after it was stopped exactly when every fetch is
answered before a newer one and before the stop.
-/

namespace Liquity.LibEthers.BlockPolledLiquityStore

open LibBase

variable {schema : StoreSchema} {events : List (Event schema)} {p p' : BlockPolledLiquityStore schema}
  {event : Event schema}

/-- One event of a run, with the states before and after it. -/
def Happens (events : List (Event schema)) (p : BlockPolledLiquityStore schema)
    (event : Event schema) (p' : BlockPolledLiquityStore schema) : Prop :=
  ∃ before after, events = before ++ event :: after ∧ run before = some p ∧ p.step event = some p'

/-- The block tag in the store's state does not decrease. -/
def Forward (p p' : BlockPolledLiquityStore schema) : Prop :=
  ∀ m, p.blockTag = some m → ∃ n, p'.blockTag = some n ∧ m ≤ n

/-- Nothing happens to a store that was stopped: its state stays, nobody is called and no update is
left scheduled. -/
def Quiet (p p' : BlockPolledLiquityStore schema) : Prop :=
  p.listening = false → p'.store.state = p.store.state ∧ p'.store.calls = p.store.calls ∧
    p'.store.updateScheduled = false

/-- When a fetch is answered, the store is still running and holds nothing newer; a store that is
loaded ignores the initial fetch. -/
def InOrder (p : BlockPolledLiquityStore schema) : Event schema → Prop
  | .fetched i _ => ∀ fetch, p.outstanding[i]? = some fetch →
    match fetch with
    | .initial => p.listening = true ∨ p.store.loaded = true
    | .block n => p.listening = true ∧ ∀ m, p.blockTag = some m → m ≤ n
  | _ => True

/-- A stopped store has no update scheduled. -/
def Settled (p : BlockPolledLiquityStore schema) : Prop :=
  p.listening = false → p.store.updateScheduled = false

/-! ## One event -/

theorem handleFetched_initial {result : FetchResult schema} (h : p.store.loaded = true) :
    handleFetched .initial result p.store = p.store := by
  obtain ⟨state, hstate⟩ := Option.isSome_iff_exists.mp h
  simp only [handleFetched, hstate]

/-- An answer to a fetch for a block is what the store shows next, with an update scheduled. -/
theorem handleFetched_block (n : Nat) (result : FetchResult schema)
    (store : LiquityStore schema ExtraState) :
    (handleFetched (.block n) result store).state.bind (fun state => state.extraState.blockTag) =
        some n ∧
      (handleFetched (.block n) result store).updateScheduled = true := by
  unfold handleFetched
  cases store.state with
  | none => exact ⟨rfl, rfl⟩
  | some state => exact ⟨rfl, rfl⟩

/-- Only answers to fetches and the update timer change the store before it is stopped, and the
timer keeps the block tag. -/
theorem step_forward_or_fetched (h : p.step event = some p') :
    p'.blockTag = p.blockTag ∨ ∃ i result, event = .fetched i result := by
  cases event with
  | fetched i result => exact .inr ⟨i, result, rfl⟩
  | block n =>
    simp only [step] at h
    split at h <;> cases h
    exact .inl rfl
  | debounceTimer =>
    simp only [step] at h
    split at h <;> cases h
    exact .inl rfl
  | updateTimer now =>
    simp only [step] at h
    split at h
    next state _ hstate =>
      cases h
      refine .inl ?_
      simp only [blockTag, hstate]
      rfl
    next => cases h
  | fetchFailed i =>
    simp only [step] at h
    split at h <;> cases h
    exact .inl rfl
  | stop =>
    cases h
    exact .inl rfl

theorem step_fetched {i : Nat} {result : FetchResult schema}
    (h : p.step (.fetched i result) = some p') :
    ∃ fetch, p.outstanding[i]? = some fetch ∧ p'.listening = p.listening ∧
      p'.store = handleFetched fetch result p.store := by
  obtain ⟨fetch, hfetch, rfl⟩ := Option.map_eq_some_iff.mp h
  exact ⟨fetch, hfetch, rfl, rfl⟩

theorem forward_of_inOrder (hp : InOrder p event) (h : p.step event = some p') : Forward p p' := by
  intro m hm
  rcases step_forward_or_fetched h with hsame | ⟨i, result, rfl⟩
  · exact ⟨m, hsame.trans hm, Nat.le_refl m⟩
  obtain ⟨fetch, hfetch, -, hstore⟩ := step_fetched h
  cases fetch with
  | initial =>
    -- a store with a block tag is loaded
    have hloaded : p.store.loaded = true := by
      obtain ⟨state, hstate, -⟩ := Option.bind_eq_some_iff.mp hm
      exact Option.isSome_iff_exists.mpr ⟨state, hstate⟩
    refine ⟨m, ?_, Nat.le_refl m⟩
    rw [handleFetched_initial hloaded] at hstore
    rw [blockTag, hstore]
    exact hm
  | block n =>
    refine ⟨n, ?_, (hp _ hfetch).2 m hm⟩
    rw [blockTag, hstore]
    exact (handleFetched_block n result p.store).1

theorem quiet_of_inOrder (hsettled : Settled p) (hp : InOrder p event)
    (h : p.step event = some p') : Quiet p p' := by
  intro hstopped
  have hnone := hsettled hstopped
  cases event with
  | block n =>
    simp only [step, hstopped, Bool.false_eq_true, if_false] at h
    cases h
  | debounceTimer =>
    simp only [step] at h
    split at h <;> cases h
    exact ⟨rfl, rfl, hnone⟩
  | updateTimer now =>
    simp only [step, hnone] at h
    cases h
  | fetched i result =>
    obtain ⟨fetch, hfetch, -, hstore⟩ := step_fetched h
    have hfetch := hp _ hfetch
    cases fetch with
    | initial =>
      rw [handleFetched_initial (hfetch.resolve_left (by simp [hstopped]))] at hstore
      rw [hstore]
      exact ⟨rfl, rfl, hnone⟩
    | block n =>
      rw [hstopped] at hfetch
      cases hfetch.1
  | fetchFailed i =>
    simp only [step] at h
    split at h <;> cases h
    exact ⟨rfl, rfl, hnone⟩
  | stop =>
    cases h
    exact ⟨rfl, rfl, rfl⟩

theorem settled_step (hsettled : Settled p) (hp : InOrder p event) (h : p.step event = some p') :
    Settled p' := by
  intro hstopped
  by_cases hlistening : p.listening = true
  · -- only the call of the stop function ends the listening
    cases event with
    | stop =>
      cases h
      rfl
    | fetched i result =>
      obtain ⟨-, -, hsame, -⟩ := step_fetched h
      rw [hsame, hlistening] at hstopped
      cases hstopped
    | block n | debounceTimer | updateTimer now | fetchFailed i =>
      simp only [step] at h
      split at h <;> cases h
      all_goals
        have hsame : p.listening = false := hstopped
        rw [hlistening] at hsame
        cases hsame
  · exact (quiet_of_inOrder hsettled hp h (by simpa using hlistening)).2.2

/-- An answer out of order turns the clock back or wakes a stopped store. -/
theorem inOrder_of_safe (h : p.step event = some p') (hforward : Forward p p')
    (hquiet : Quiet p p') : InOrder p event := by
  cases event with
  | fetched i result =>
    intro fetch hfetch
    obtain ⟨fetch', hfetch', -, hstore⟩ := step_fetched h
    obtain rfl : fetch = fetch' := Option.some.inj (hfetch.symm.trans hfetch')
    cases fetch with
    | initial =>
      by_cases hlistening : p.listening = true
      · exact .inl hlistening
      · right
        by_contra hloaded
        have hstate : p.store.state = none := by simpa [LiquityStore.loaded] using hloaded
        have hkept := (hquiet (by simpa using hlistening)).1
        rw [hstore, hstate] at hkept
        simp only [handleFetched, hstate] at hkept
        cases hkept
    | block n =>
      obtain ⟨htag, hscheduled⟩ := handleFetched_block n result p.store
      rw [← hstore] at htag hscheduled
      constructor
      · by_contra hstopped
        rw [(hquiet (by simpa using hstopped)).2.2] at hscheduled
        cases hscheduled
      · intro m hm
        obtain ⟨n', hn', hle⟩ := hforward m hm
        rw [blockTag, htag] at hn'
        cases hn'
        exact hle
  | block | debounceTimer | updateTimer | fetchFailed | stop => exact trivial

/-! ## Whole runs -/

/-- A run whose events are all in order leaves no update scheduled after a stop. -/
theorem settled_run (hrun : run events = some p)
    (hall : ∀ q e q', Happens events q e q' → InOrder q e) : Settled p := by
  induction events using List.reverseRecOn generalizing p with
  | nil =>
    cases hrun
    intro hstopped
    cases hstopped
  | append_singleton before event ih =>
    have hsplit := hrun
    unfold run at hsplit
    rw [List.foldlM_append, Option.bind_eq_bind, Option.bind_eq_some_iff] at hsplit
    obtain ⟨q, hq, hstep⟩ := hsplit
    have hstep : q.step event = some p := by simpa using hstep
    have hbefore : Settled q := by
      refine ih hq fun r e r' ⟨u, v, huv, hu, hr⟩ => hall r e r' ⟨u, v ++ [event], ?_, hu, hr⟩
      rw [huv, List.append_assoc, List.cons_append]
    exact settled_step hbefore (hall q event p ⟨before, [], rfl, hq, hstep⟩) hstep

/-- Every step of a run goes forward and is quiet after the stop exactly when every event of it is in
order. -/
theorem forward_and_quiet_iff_inOrder (events : List (Event schema)) :
    (∀ p event p', Happens events p event p' → Forward p p' ∧ Quiet p p') ↔
      ∀ p event p', Happens events p event p' → InOrder p event := by
  constructor
  · intro hsafe p event p' hhappens
    obtain ⟨hforward, hquiet⟩ := hsafe p event p' hhappens
    obtain ⟨before, after, -, -, hstep⟩ := hhappens
    exact inOrder_of_safe hstep hforward hquiet
  · intro hall p event p' hhappens
    have hin := hall p event p' hhappens
    obtain ⟨before, after, rfl, hbefore, hstep⟩ := hhappens
    have hsettled : Settled p := settled_run hbefore fun q e q' ⟨u, v, huv, hu, hq⟩ =>
      hall q e q' ⟨u, v ++ event :: after, by rw [huv, List.append_assoc, List.cons_append], hu, hq⟩
    exact ⟨forward_of_inOrder hin hstep, quiet_of_inOrder hsettled hin hstep⟩

/-! ## Runs that go wrong -/

/-- A store with one number as its state. -/
def sampleSchema : StoreSchema :=
  { Field := Unit, Value := Nat, Derived := Unit, equals := fun _ a b => a == b
    derive := fun _ _ => (), reduceDerived := fun _ _ => () }

def sampleResult (n : Nat) : FetchResult sampleSchema := ⟨n, fun _ => n, n, 0, 0⟩

/-- Blocks 1 and 2 arrive, and block 2 is fetched faster. -/
def sampleOvertaken : List (Event sampleSchema) :=
  [.block 1, .debounceTimer, .block 2, .debounceTimer, .fetched 2 (sampleResult 2)]

/-- The store is stopped while block 1 is fetched. -/
def sampleStopped : List (Event sampleSchema) :=
  [.fetched 0 (sampleResult 0), .block 1, .debounceTimer, .stop]

/-- The older fetch overwrites the newer one, and a fetch that is answered after the stop changes the
state, calls the listeners and schedules the next update. -/
theorem store_goes_back_and_wakes :
    (¬ ∀ (events : List (Event sampleSchema)) p event p', Happens events p event p' → Forward p p') ∧
      ¬ ∀ (events : List (Event sampleSchema)) p event p', Happens events p event p' → Quiet p p' := by
  constructor
  · intro hall
    have hforward := hall (sampleOvertaken ++ [.fetched 1 (sampleResult 1)]) _ _ _
      ⟨sampleOvertaken, [], rfl, rfl, rfl⟩ 2 rfl
    obtain ⟨n, hn, hle⟩ := hforward
    have hn : some 1 = some n := hn
    cases hn
    exact absurd hle (by decide)
  · intro hall
    have hquiet := hall (sampleStopped ++ [.fetched 0 (sampleResult 1)]) _ _ _
      ⟨sampleStopped, [], rfl, rfl, rfl⟩ rfl
    have hscheduled : true = false := hquiet.2.2
    cases hscheduled

end Liquity.LibEthers.BlockPolledLiquityStore
