import Liquity.SortedTroves.WellFormed
import Liquity.Lib.Reachability

/-!
# Sequences of calls on the trove list

The list under any sequence of `insert`, `remove` and `reInsert` calls, each with a ratio function
of its own: the shape is kept, the search always ends, and a call only moves its own id.
-/

open Lib

namespace Liquity

open SafeMath

namespace SortedTroves

variable {l l' : SortedTroves} {ids u v : List Address} {id prevId nextId : Address} {NICR : Nat}
  {getNominalICR : Address → Tx Nat}

/-! ## The search ends -/

section Search

variable (hget : ∀ x, Terminates (getNominalICR x))

include hget

theorem terminates_validInsertPosition (prevId nextId : Address) :
    Terminates (validInsertPosition getNominalICR NICR prevId nextId l) := by
  unfold validInsertPosition
  split
  · exact terminates_ok _
  split
  · split
    · exact (hget _).bind fun _ _ => terminates_pure _
    · exact terminates_ok _
  split
  · split
    · exact (hget _).bind fun _ _ => terminates_pure _
    · exact terminates_ok _
  split
  · refine (hget _).bind fun _ _ => ?_
    split
    · exact (hget _).bind fun _ _ => terminates_pure _
    · exact terminates_pure _
  · exact terminates_ok _

/-- Every round of the downward search moves one node along the list. -/
theorem IsList.terminates_descendLoop (h : IsList l ids) {p : Address} (hids : ids = u ++ p :: v)
    {rounds : Nat} (hrounds : v.length + 2 ≤ rounds) :
    Terminates (descendLoop getNominalICR NICR l rounds p (l.getNext p)) := by
  induction v generalizing u p rounds with
  | nil =>
    obtain ⟨rounds, rfl⟩ : ∃ n, rounds = n + 2 := ⟨rounds - 2, by simp at hrounds; omega⟩
    have hnext : (l.nodes p).nextId = 0 := by
      subst hids
      exact h.linked.middle.2
    unfold descendLoop
    split
    · refine (terminates_validInsertPosition hget _ _).bind fun valid _ => ?_
      split
      · exact terminates_pure _
      · simp [hnext, descendLoop, terminates_pure]
    · exact terminates_pure _
  | cons n v ih =>
    obtain ⟨rounds, rfl⟩ : ∃ m, rounds = m + 1 := ⟨rounds - 1, by omega⟩
    have hnext : (l.nodes p).nextId = n := by
      subst hids
      exact h.linked.middle.2
    unfold descendLoop
    split
    · refine (terminates_validInsertPosition hget _ _).bind fun valid _ => ?_
      split
      · exact terminates_pure _
      · rw [hnext]
        exact ih (u := u ++ [p]) (by simp [hids]) (by simpa using hrounds)
    · exact terminates_pure _

/-- Every round of the upward search moves one node back along the list. -/
theorem IsList.terminates_ascendLoop (h : IsList l ids) {n : Address} (hids : ids = u ++ n :: v)
    {rounds : Nat} (hrounds : u.length + 2 ≤ rounds) :
    Terminates (ascendLoop getNominalICR NICR l rounds (l.getPrev n) n) := by
  induction u using List.reverseRecOn generalizing v n rounds with
  | nil =>
    obtain ⟨rounds, rfl⟩ : ∃ n, rounds = n + 2 := ⟨rounds - 2, by simp at hrounds; omega⟩
    have hprev : (l.nodes n).prevId = 0 := by
      subst hids
      exact h.linked.middle.1
    unfold ascendLoop
    split
    · refine (terminates_validInsertPosition hget _ _).bind fun valid _ => ?_
      split
      · exact terminates_pure _
      · simp [hprev, ascendLoop, terminates_pure]
    · exact terminates_pure _
  | append_singleton w p ih =>
    obtain ⟨rounds, rfl⟩ : ∃ m, rounds = m + 1 := ⟨rounds - 1, by omega⟩
    have hprev : (l.nodes n).prevId = p := by
      subst hids
      exact h.linked.middle.1.trans (by rw [getLastD_append]; rfl)
    unfold ascendLoop
    split
    · refine (terminates_validInsertPosition hget _ _).bind fun valid _ => ?_
      split
      · exact terminates_pure _
      · rw [hprev]
        exact ih (v := n :: v) (by simp [hids]) (by simpa using hrounds)
    · exact terminates_pure _

theorem IsList.terminates_descendList (h : IsList l ids) {start : Address}
    (hstart : start = l.head ∨ start ∈ ids) :
    Terminates (descendList getNominalICR NICR start l) := by
  have hbefore : Terminates (isBeforeHead getNominalICR NICR start l) := by
    unfold isBeforeHead
    split
    · exact (hget _).bind fun _ _ => terminates_pure _
    · exact terminates_ok _
  refine hbefore.bind fun beforeHead _ => ?_
  split
  · exact terminates_pure _
  by_cases hmem : start ∈ ids
  · obtain ⟨u, v, rfl⟩ := List.append_of_mem hmem
    exact h.terminates_descendLoop hget rfl (by simp [h.size_eq])
  · -- an empty list: the search starts at the null pointer
    have hids : ids = [] := by
      cases ids with
      | nil => rfl
      | cons x rest =>
        have hhead : l.head = x := h.head_eq
        exact absurd (hstart.resolve_right hmem) fun hs => hmem (by simp [hs, hhead])
    have hs : start = 0 := (hstart.resolve_right hmem).trans (by rw [h.head_eq, hids]; rfl)
    simp [hs, descendLoop, terminates_pure]

theorem IsList.terminates_ascendList (h : IsList l ids) {start : Address} (hstart : start ∈ ids) :
    Terminates (ascendList getNominalICR NICR start l) := by
  have hafter : Terminates (isAfterTail getNominalICR NICR start l) := by
    unfold isAfterTail
    split
    · exact (hget _).bind fun _ _ => terminates_pure _
    · exact terminates_ok _
  refine hafter.bind fun afterTail _ => ?_
  split
  · exact terminates_pure _
  · obtain ⟨u, v, rfl⟩ := List.append_of_mem hstart
    exact h.terminates_ascendLoop hget rfl (by simp [h.size_eq])

theorem terminates_checkPrevHint (prevId : Address) :
    Terminates (checkPrevHint getNominalICR NICR prevId l) := by
  unfold checkPrevHint
  split <;> [split <;> [exact terminates_ok _; exact (hget _).bind fun _ _ => terminates_pure _];
    exact terminates_ok _]

theorem terminates_checkNextHint (nextId : Address) :
    Terminates (checkNextHint getNominalICR NICR nextId l) := by
  unfold checkNextHint
  split <;> [split <;> [exact terminates_ok _; exact (hget _).bind fun _ _ => terminates_pure _];
    exact terminates_ok _]

theorem IsList.terminates_findInsertPosition (h : IsList l ids) (prevId nextId : Address) :
    Terminates (findInsertPosition getNominalICR NICR prevId nextId l) := by
  refine (terminates_checkPrevHint hget _).bind fun p hp =>
    (terminates_checkNextHint hget _).bind fun n hn => ?_
  have hp := h.checkPrevHint_ok hp
  have hn := h.checkNextHint_ok hn
  split
  next => exact h.terminates_descendList hget (.inl rfl)
  next h0 =>
    split
    next hp0 => exact h.terminates_ascendList hget (hn.resolve_left fun hn0 => h0 ⟨hp0, hn0⟩).1
    next hp0 =>
      have hmem := (hp.resolve_left hp0).1
      split <;> exact h.terminates_descendList hget (.inr hmem)

theorem IsList.terminates_insertPosition (h : IsList l ids) (prevId nextId : Address) :
    Terminates (insertPosition getNominalICR NICR prevId nextId l) := by
  refine (terminates_validInsertPosition hget _ _).bind fun valid _ => ?_
  split
  · exact terminates_pure _
  · exact h.terminates_findInsertPosition hget prevId nextId

theorem IsList.terminates_insertInternal (h : IsList l ids) (id prevId nextId : Address) :
    Terminates (SortedTroves.insertInternal getNominalICR id NICR prevId nextId l) := by
  refine (terminates_require _ _).bind fun _ _ => (terminates_require _ _).bind fun _ _ =>
    (terminates_require _ _).bind fun _ _ => (terminates_require _ _).bind fun _ _ => ?_
  exact (h.terminates_insertPosition hget _ _).bind fun _ _ =>
    (terminates_checkedAdd _ _ _ _).bind fun _ _ => terminates_pure _

end Search

theorem terminates_removeInternal (id : Address) (l : SortedTroves) :
    Terminates (SortedTroves.removeInternal id l) :=
  (terminates_require _ _).bind fun _ _ =>
    (terminates_checkedSub _ _ _).bind fun _ _ => terminates_pure _

/-! ## Calls -/

/-- The represented ids, read off the pointers. -/
def toList (l : SortedTroves) : List Address := follow l.getNext 0 l.size l.head

/-- The list functions that the other contracts call. -/
inductive Operation where
  | insert (id : Address) (NICR : Nat) (prevId nextId : Address)
  | remove (id : Address)
  | reInsert (id : Address) (newNICR : Nat) (prevId nextId : Address)

/-- A call: who makes it, and what ratios the trove manager reports while it runs. -/
structure ListCall where
  caller : Address
  getNominalICR : Address → Tx Nat
  operation : Operation

def ListCall.execute (d : Deployment) (c : ListCall) (l : SortedTroves) : Tx SortedTroves :=
  match c.operation with
  | .insert id NICR prevId nextId => insert c.getNominalICR d c.caller id NICR prevId nextId l
  | .remove id => remove d c.caller id l
  | .reInsert id newNICR prevId nextId =>
    reInsert c.getNominalICR d c.caller id newNICR prevId nextId l

/-- Lists reached from a fresh one by any sequence of successful calls. -/
def ReachableList (d : Deployment) : SortedTroves → Prop :=
  Lib.Reachable (fun l => l = initial d.maxSize) (fun l (c : ListCall) l' => c.execute d l = .ok l')
    fun _ _ => True

/-- The shape of a doubly linked list, in terms of its pointers. -/
structure WellFormed (l : SortedTroves) : Prop where
  /-- Following `nextId` visits every contained id, … -/
  mem_toList : ∀ x, x ∈ l.toList ↔ l.contains x = true
  /-- … exactly once, … -/
  nodup : l.toList.Nodup
  /-- … and ends at the tail. -/
  last : l.toList.getLastD 0 = l.tail
  inverse : ∀ x y, l.contains x = true → l.contains y = true →
    (l.getNext x = y ↔ l.getPrev y = x)
  prev_head : l.getPrev l.head = 0
  next_tail : l.getNext l.tail = 0
  size_eq : l.size = l.toList.length
  size_le : l.size ≤ l.maxSize

/-- What a call does to the represented ids: membership changes by exactly its id and the others
keep their order. -/
def Operation.Changes : Operation → List Address → List Address → Prop
  | insert id _ _ _, ids, ids' => id ∉ ids ∧ id ∈ ids' ∧ ids'.erase id = ids
  | remove id, ids, ids' => id ∈ ids ∧ id ∉ ids' ∧ ids.erase id = ids'
  | reInsert id _ _ _, ids, ids' => id ∈ ids ∧ id ∈ ids' ∧ ids'.erase id = ids.erase id

theorem IsList.toList_eq (h : IsList l ids) : l.toList = ids := h.follow_head

theorem IsList.wellFormed (h : IsList l ids) : WellFormed l where
  mem_toList x := by rw [h.toList_eq, h.contains_iff]
  nodup := by rw [h.toList_eq]; exact h.nodup
  last := by rw [h.toList_eq, h.tail_eq]
  inverse x y hx hy :=
    h.linked.next_eq_iff h.zero_notMem ((h.contains_iff x).mp hx) ((h.contains_iff y).mp hy)
  prev_head := by
    rw [h.head_eq]
    cases ids with
    | nil => exact h.getPrev_zero
    | cons x rest => exact h.linked.1
  next_tail := by
    rw [h.tail_eq]
    rcases ids.eq_nil_or_concat' with rfl | ⟨w, y, rfl⟩
    · exact h.getNext_zero
    · rw [getLastD_append]
      exact (linked_concat.mp h.linked).2.2
  size_eq := by rw [h.toList_eq, h.size_eq]
  size_le := h.size_le

theorem erase_middle (hid : id ∉ u ++ v) : (u ++ id :: v).erase id = u ++ v := by
  have hu : id ∉ u := fun hmem => hid (by simp [hmem])
  rw [List.erase_append_right _ hu, List.erase_cons_head]

theorem IsList.notMem_of_middle (h : IsList l (u ++ id :: v)) : id ∉ u ++ v := by
  have hnodup := h.nodup
  rw [List.nodup_middle, List.nodup_cons] at hnodup
  exact hnodup.1

/-- The effect of `reInsert`: a removal, then an insertion at a gap of the shorter list. -/
theorem IsList.reInsert {d : Deployment} {caller : Address} (h : IsList l ids)
    (hre : SortedTroves.reInsert getNominalICR d caller id NICR prevId nextId l = .ok l') :
    id ∈ ids ∧ 0 < NICR ∧ ∃ u v, ids.erase id = u ++ v ∧ IsList l' (u ++ id :: v) ∧
      Fits getNominalICR NICR u v := by
  simp only [SortedTroves.reInsert, bind_ok, require_ok] at hre
  obtain ⟨-, -, -, hpresent, -, hNICR, l₁, hrem, hins⟩ := hre
  obtain ⟨u₁, v₁, rfl, h₁⟩ := h.removeInternal hrem
  obtain ⟨-, -, u, v, huv, h', hfits⟩ := h₁.insertInternal hins
  refine ⟨by simp, hNICR, u, v, ?_, h', hfits⟩
  rw [erase_middle h.notMem_of_middle, huv]

/-- One successful call, on the represented ids. -/
theorem IsList.execute {d : Deployment} {c : ListCall} (h : IsList l ids)
    (hc : c.execute d l = .ok l') : ∃ ids', IsList l' ids' ∧ c.operation.Changes ids ids' := by
  obtain ⟨caller, getNominalICR, operation⟩ := c
  cases operation with
  | insert id NICR prevId nextId =>
    simp only [ListCall.execute, SortedTroves.insert, bind_ok] at hc
    obtain ⟨-, -, hins⟩ := hc
    obtain ⟨hid, -, u, v, rfl, h', -⟩ := h.insertInternal hins
    exact ⟨_, h', hid, by simp, erase_middle hid⟩
  | remove id =>
    simp only [ListCall.execute, SortedTroves.remove, bind_ok] at hc
    obtain ⟨-, -, hrem⟩ := hc
    obtain ⟨u, v, rfl, h'⟩ := h.removeInternal hrem
    have hid := h.notMem_of_middle
    exact ⟨_, h', by simp, hid, erase_middle hid⟩
  | reInsert id newNICR prevId nextId =>
    obtain ⟨hid, -, u, v, huv, h', -⟩ := h.reInsert hc
    exact ⟨_, h', hid, by simp, by rw [erase_middle h'.notMem_of_middle, huv]⟩

theorem IsList.terminates_execute {d : Deployment} {c : ListCall} (h : IsList l ids)
    (hget : ∀ x, Terminates (c.getNominalICR x)) : Terminates (c.execute d l) := by
  obtain ⟨caller, getNominalICR, operation⟩ := c
  cases operation with
  | insert id NICR prevId nextId =>
    exact (terminates_require _ _).bind fun _ _ => h.terminates_insertInternal hget _ _ _
  | remove id => exact (terminates_require _ _).bind fun _ _ => terminates_removeInternal _ _
  | reInsert id newNICR prevId nextId =>
    refine (terminates_require _ _).bind fun _ _ => (terminates_require _ _).bind fun _ _ =>
      (terminates_require _ _).bind fun _ _ => (terminates_removeInternal _ _).bind fun l₁ hrem => ?_
    obtain ⟨u, v, -, h₁⟩ := h.removeInternal hrem
    exact h₁.terminates_insertInternal hget _ _ _

theorem ReachableList.isList {d : Deployment} (h : ReachableList d l) : ∃ ids, IsList l ids := by
  refine Lib.Reachable.invariant (fun l => ∃ ids, IsList l ids) ?_ ?_ h
  · rintro _ rfl
    exact ⟨[], isList_initial _⟩
  · rintro l c l' - ⟨ids, hids⟩ - hc
    obtain ⟨ids', hids', -⟩ := hids.execute hc
    exact ⟨ids', hids'⟩

/-- The list keeps its shape under any sequence of calls, whatever the ids, the hints and the ratios
reported during each call; every call changes membership by exactly its own id, keeps the order of
all the others, and ends. -/
theorem reachableList_wellFormed (d : Deployment) (l : SortedTroves) (h : ReachableList d l) :
    WellFormed l ∧
      ∀ c : ListCall,
        (∀ l', c.execute d l = .ok l' →
          WellFormed l' ∧ c.operation.Changes l.toList l'.toList) ∧
        ((∀ x, Terminates (c.getNominalICR x)) → Terminates (c.execute d l)) := by
  obtain ⟨ids, hids⟩ := h.isList
  refine ⟨hids.wellFormed, fun c => ⟨fun l' hc => ?_, hids.terminates_execute⟩⟩
  obtain ⟨ids', hids', hchanges⟩ := hids.execute hc
  refine ⟨hids'.wellFormed, ?_⟩
  rwa [hids.toList_eq, hids'.toList_eq]

/-- Two insertions into a fresh list. -/
theorem exists_twoInserts : ∃ l, ReachableList sampleDeployment l ∧ l.toList = [7, 5] := by
  let first : ListCall := ⟨1, fun _ => .ok 10, .insert 5 10 0 0⟩
  let second : ListCall := ⟨1, fun _ => .ok 10, .insert 7 20 5 9⟩
  obtain ⟨l, hl, hlist⟩ : ∃ l, (first.execute sampleDeployment (initial sampleDeployment.maxSize) >>=
      second.execute sampleDeployment) = .ok l ∧ l.toList = [7, 5] := exists_ok (by decide +kernel)
  obtain ⟨l₁, h₁, h₂⟩ := bind_ok.mp hl
  exact ⟨l, .step (i := second) (.step (i := first) (.init rfl) trivial h₁) trivial h₂, hlist⟩

theorem twoInserts_wellFormed :
    ∃ l, ReachableList sampleDeployment l ∧ l.toList = [7, 5] ∧ WellFormed l := by
  obtain ⟨l, h, hlist⟩ := exists_twoInserts
  exact ⟨l, h, hlist, (reachableList_wellFormed sampleDeployment l h).1⟩

end SortedTroves

end Liquity
