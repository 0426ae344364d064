import Liquity.SortedTroves
import Liquity.Lib.LinkedList

/-!
# The trove list is a doubly linked list

`IsList l ids` relates the pointer structure to the list of ids it represents.  Insertion finds a
gap of that list, whatever the hints and whatever the ratios are: the search only moves past a node
whose ratio is on the wrong side, so it stops inside the list by a discrete intermediate-value
argument, even where the list is not sorted.
-/

open Lib

namespace Liquity

open SafeMath

namespace SortedTroves

/-- The pointer structure `l` represents `ids`, head first. -/
structure IsList (l : SortedTroves) (ids : List Address) : Prop where
  nodup : ids.Nodup
  zero_notMem : 0 ∉ ids
  linked : Linked l.getNext l.getPrev 0 ids 0
  head_eq : l.head = ids.headD 0
  tail_eq : l.tail = ids.getLastD 0
  size_eq : l.size = ids.length
  present : ∀ x ∈ ids, l.contains x = true
  absent : ∀ x, x ∉ ids → l.nodes x = Node.empty
  size_le : l.size ≤ l.maxSize

variable {l l' : SortedTroves} {ids u v : List Address} {id prevId nextId : Address} {NICR : Nat}
  {getNominalICR : Address → Tx Nat}

theorem isList_initial (maxSize : Nat) : IsList (initial maxSize) [] where
  nodup := List.nodup_nil
  zero_notMem := List.not_mem_nil
  linked := trivial
  head_eq := rfl
  tail_eq := rfl
  size_eq := rfl
  present := by simp
  absent _ _ := rfl
  size_le := Nat.zero_le _

namespace IsList

theorem contains_iff (h : IsList l ids) (x : Address) : l.contains x = true ↔ x ∈ ids := by
  constructor
  · intro hx
    by_contra hmem
    simp [contains, h.absent x hmem, Node.empty] at hx
  · exact h.present x

theorem ne_zero (h : IsList l ids) {x : Address} (hx : x ∈ ids) : x ≠ 0 :=
  fun hx0 => h.zero_notMem (hx0 ▸ hx)

theorem getNext_of_notMem (h : IsList l ids) {x : Address} (hx : x ∉ ids) : l.getNext x = 0 := by
  simp [getNext, h.absent x hx, Node.empty]

theorem getPrev_of_notMem (h : IsList l ids) {x : Address} (hx : x ∉ ids) : l.getPrev x = 0 := by
  simp [getPrev, h.absent x hx, Node.empty]

theorem getNext_zero (h : IsList l ids) : l.getNext 0 = 0 := h.getNext_of_notMem h.zero_notMem

theorem getPrev_zero (h : IsList l ids) : l.getPrev 0 = 0 := h.getPrev_of_notMem h.zero_notMem

/-- Following `nextId` from the head visits the represented ids in order. -/
theorem follow_head (h : IsList l ids) : follow l.getNext 0 l.size l.head = ids := by
  rw [h.head_eq, h.size_eq]
  exact h.linked.follow_eq h.zero_notMem le_rfl

theorem isEmpty_iff (h : IsList l ids) : l.isEmpty = true ↔ ids = [] := by
  simp [isEmpty, h.size_eq]

end IsList

/-! ## Insert positions -/

/-- `prevId` and `nextId` are the nodes around a gap of `ids` (null at the ends), with ratios on the
right sides of `NICR`. -/
def Gap (getNominalICR : Address → Tx Nat) (NICR : Nat) (ids : List Address)
    (prevId nextId : Address) : Prop :=
  ∃ u v, ids = u ++ v ∧ prevId = u.getLastD 0 ∧ nextId = v.headD 0 ∧
    (prevId ≠ 0 → ∃ r, getNominalICR prevId = .ok r ∧ NICR ≤ r) ∧
    (nextId ≠ 0 → ∃ r, getNominalICR nextId = .ok r ∧ r ≤ NICR)

/-- What a valid insert position is, case by case. -/
theorem validInsertPosition_ok
    (hv : validInsertPosition getNominalICR NICR prevId nextId l = .ok true) :
    (prevId = 0 ∧ nextId = 0 ∧ l.isEmpty = true) ∨
    (prevId = 0 ∧ nextId ≠ 0 ∧ l.head = nextId ∧ ∃ r, getNominalICR nextId = .ok r ∧ r ≤ NICR) ∨
    (prevId ≠ 0 ∧ nextId = 0 ∧ l.tail = prevId ∧ ∃ r, getNominalICR prevId = .ok r ∧ NICR ≤ r) ∨
    (prevId ≠ 0 ∧ nextId ≠ 0 ∧ l.getNext prevId = nextId ∧
      (∃ r, getNominalICR prevId = .ok r ∧ NICR ≤ r) ∧
      ∃ r, getNominalICR nextId = .ok r ∧ r ≤ NICR) := by
  unfold validInsertPosition at hv
  split at hv
  next h0 => exact .inl ⟨h0.1, h0.2, by simpa using hv⟩
  next h0 =>
    split at hv
    next hp =>
      split at hv
      next hhead =>
        simp only [bind_ok, pure_ok, decide_eq_true_eq] at hv
        exact .inr (.inl ⟨hp, fun hn => h0 ⟨hp, hn⟩, hhead, hv⟩)
      next => simp at hv
    next hp =>
      split at hv
      next hn =>
        split at hv
        next htail =>
          simp only [bind_ok, pure_ok, decide_eq_true_eq] at hv
          exact .inr (.inr (.inl ⟨hp, hn, htail, hv⟩))
        next => simp at hv
      next hn =>
        split at hv
        next hadj =>
          obtain ⟨r, hr, hv⟩ := bind_ok.mp hv
          split at hv
          next hle =>
            simp only [bind_ok, pure_ok, decide_eq_true_eq] at hv
            exact .inr (.inr (.inr ⟨hp, hn, hadj, ⟨r, hr, hle⟩, hv⟩))
          next => simp [pure_ok] at hv
        next => simp at hv

/-- A position that passes `validInsertPosition` is a gap. -/
theorem IsList.gap_of_valid (h : IsList l ids)
    (hv : validInsertPosition getNominalICR NICR prevId nextId l = .ok true) :
    Gap getNominalICR NICR ids prevId nextId := by
  obtain ⟨rfl, rfl, hempty⟩ | ⟨rfl, hn, hhead, hr⟩ | ⟨hp, rfl, htail, hr⟩ |
    ⟨hp, hn, hadj, hpr, hnr⟩ := validInsertPosition_ok hv
  · exact ⟨[], [], h.isEmpty_iff.mp hempty, rfl, rfl, by simp, by simp⟩
  · exact ⟨[], ids, rfl, rfl, by rw [← hhead, h.head_eq], by simp, fun _ => hr⟩
  · exact ⟨ids, [], by simp, by rw [← htail, h.tail_eq], rfl, fun _ => hr, by simp⟩
  · have hmem : prevId ∈ ids := by
      by_contra hmem
      exact hn (by rw [← hadj, h.getNext_of_notMem hmem])
    obtain ⟨u, v, rfl⟩ := List.append_of_mem hmem
    refine ⟨u ++ [prevId], v, by simp, ?_, ?_, fun _ => hpr, fun _ => hnr⟩
    · rw [getLastD_append]; rfl
    · rw [← hadj, h.linked.middle.2]

/-! ## Searching downwards -/

/-- Past a node whose ratio is at least `NICR`, the position fails only because of the next node. -/
theorem IsList.valid_after (h : IsList l ids) {p : Address} (hids : ids = u ++ p :: v) {r : Nat}
    (hr : getNominalICR p = .ok r) (hle : NICR ≤ r) :
    validInsertPosition getNominalICR NICR p (l.getNext p) l =
      match v with
      | [] => .ok true
      | n :: _ => do
        let r' ← getNominalICR n
        return decide (r' ≤ NICR) := by
  subst hids
  have hp : p ≠ 0 := h.ne_zero (by simp)
  have hnext : l.getNext p = v.headD 0 := h.linked.middle.2
  cases v with
  | nil =>
    have htail : l.tail = p := by rw [h.tail_eq, getLastD_append]; rfl
    rw [hnext]
    simp [validInsertPosition, hp, htail, hr, hle, bind, Except.bind, pure, Except.pure]
  | cons n v =>
    have hn : n ≠ 0 := h.ne_zero (by simp)
    have hadj : (l.nodes p).nextId = n := hnext
    rw [hnext]
    simp [validInsertPosition, hp, hn, hadj, hr, hle, bind, Except.bind]

theorem IsList.gap_of_descendLoop (h : IsList l ids) {rounds : Nat} {p : Address}
    {position : Address × Address} (hids : ids = u ++ p :: v)
    (hr : ∃ r, getNominalICR p = .ok r ∧ NICR ≤ r)
    (hloop : descendLoop getNominalICR NICR l rounds p (l.getNext p) = .ok position) :
    Gap getNominalICR NICR ids position.1 position.2 := by
  induction rounds generalizing p u v with
  | zero => simp [descendLoop] at hloop
  | succ rounds ih =>
    have hp : p ≠ 0 := h.ne_zero (by simp [hids])
    obtain ⟨r, hr, hle⟩ := hr
    simp only [descendLoop, if_pos hp, ne_eq] at hloop
    obtain ⟨valid, hvalid, hloop⟩ := bind_ok.mp hloop
    cases valid with
    | true =>
      obtain rfl : (p, l.getNext p) = position := by simpa [pure_ok] using hloop
      exact h.gap_of_valid hvalid
    | false =>
      rw [h.valid_after hids hr hle] at hvalid
      cases v with
      | nil => simp at hvalid
      | cons n v =>
        -- the next node's ratio exceeds `NICR`, so the search continues from it
        simp only [bind_ok, pure_ok, decide_eq_false_iff_not, Nat.not_le] at hvalid
        obtain ⟨r', hr', hlt⟩ := hvalid
        have hnext : (l.nodes p).nextId = n := by
          subst hids
          exact h.linked.middle.2
        simp only [Bool.false_eq_true, if_false, hnext] at hloop
        exact ih (u := u ++ [p]) (v := v) (by simp [hids]) ⟨r', hr', hlt.le⟩ hloop

theorem IsList.gap_of_descendList (h : IsList l ids) {start : Address}
    {position : Address × Address}
    (hstart : start = l.head ∨ (start ∈ ids ∧ ∃ r, getNominalICR start = .ok r ∧ NICR ≤ r))
    (hd : descendList getNominalICR NICR start l = .ok position) :
    Gap getNominalICR NICR ids position.1 position.2 := by
  obtain ⟨beforeHead, hbefore, hd⟩ := bind_ok.mp hd
  have hhead := h.head_eq
  cases ids with
  | nil =>
    -- the search starts at the null head and ends there
    have hs : start = 0 := by simpa [hhead] using hstart
    subst hs
    have hnext : (l.nodes 0).nextId = 0 := h.getNext_zero
    have hpos : position = (0, 0) := by
      cases beforeHead <;> simp [pure_ok, descendLoop, hnext] at hd <;> exact hd.symm
    exact ⟨[], [], rfl, by simp [hpos], by simp [hpos], by simp [hpos], by simp [hpos]⟩
  | cons x rest =>
    have hhead : l.head = x := hhead
    cases beforeHead with
    | true =>
      obtain rfl : (0, start) = position := by simpa [pure_ok] using hd
      unfold isBeforeHead at hbefore
      split at hbefore
      next hstart =>
        simp only [bind_ok, pure_ok, decide_eq_true_eq] at hbefore
        refine ⟨[], x :: rest, rfl, rfl, ?_, by simp, fun _ => hbefore⟩
        rw [← hstart, hhead]; rfl
      next => simp at hbefore
    | false =>
      simp only [Bool.false_eq_true, if_false] at hd
      have hmem : start ∈ x :: rest := by
        rcases hstart with rfl | hstart
        · simp [hhead]
        · exact hstart.1
      have hratio : ∃ r, getNominalICR start = .ok r ∧ NICR ≤ r := by
        rcases hstart with rfl | hstart
        · simp only [isBeforeHead, if_true, bind_ok, pure_ok, decide_eq_false_iff_not,
            Nat.not_le] at hbefore
          obtain ⟨r, hr, hlt⟩ := hbefore
          exact ⟨r, hr, hlt.le⟩
        · exact hstart.2
      obtain ⟨u, v, hids⟩ := List.append_of_mem hmem
      exact h.gap_of_descendLoop hids hratio hd

/-! ## Searching upwards -/

/-- Before a node whose ratio is at most `NICR`, the position fails only because of the node
before it. -/
theorem IsList.valid_before (h : IsList l ids) {n : Address} (hids : ids = u ++ n :: v) {r : Nat}
    (hr : getNominalICR n = .ok r) (hle : r ≤ NICR) :
    validInsertPosition getNominalICR NICR (l.getPrev n) n l =
      if u = [] then .ok true
      else do
        let r' ← getNominalICR (u.getLastD 0)
        return decide (NICR ≤ r') := by
  subst hids
  have hn : n ≠ 0 := h.ne_zero (by simp)
  have hprev : l.getPrev n = u.getLastD 0 := h.linked.middle.1
  rcases u.eq_nil_or_concat' with rfl | ⟨w, p, rfl⟩
  · have hhead : l.head = n := h.head_eq
    rw [hprev]
    simp [validInsertPosition, hn, hhead, hr, hle, bind, Except.bind, pure, Except.pure]
  · have hlast : (w ++ [p]).getLastD 0 = p := by rw [getLastD_append]; rfl
    have hp : p ≠ 0 := h.ne_zero (by simp)
    have hadj : (l.nodes p).nextId = n := by
      have hlinked := h.linked
      rw [List.append_assoc] at hlinked
      exact hlinked.middle.2
    rw [hprev, hlast, if_neg (by simp)]
    simp only [validInsertPosition, hp, hn, hadj, false_and, if_false, if_true]
    cases getNominalICR p with
    | error e => simp [bind, Except.bind]
    | ok r' =>
      by_cases hpr : NICR ≤ r' <;>
        simp [bind, Except.bind, pure, Except.pure, hr, hle, hpr]

theorem IsList.gap_of_ascendLoop (h : IsList l ids) {rounds : Nat} {n : Address}
    {position : Address × Address} (hids : ids = u ++ n :: v)
    (hr : ∃ r, getNominalICR n = .ok r ∧ r ≤ NICR)
    (hloop : ascendLoop getNominalICR NICR l rounds (l.getPrev n) n = .ok position) :
    Gap getNominalICR NICR ids position.1 position.2 := by
  induction rounds generalizing n u v with
  | zero => simp [ascendLoop] at hloop
  | succ rounds ih =>
    have hn : n ≠ 0 := h.ne_zero (by simp [hids])
    obtain ⟨r, hr, hle⟩ := hr
    simp only [ascendLoop, if_pos hn, ne_eq] at hloop
    obtain ⟨valid, hvalid, hloop⟩ := bind_ok.mp hloop
    cases valid with
    | true =>
      obtain rfl : (l.getPrev n, n) = position := by simpa [pure_ok] using hloop
      exact h.gap_of_valid hvalid
    | false =>
      rw [h.valid_before hids hr hle] at hvalid
      rcases u.eq_nil_or_concat' with rfl | ⟨w, p, rfl⟩
      · simp at hvalid
      · have hlast : (w ++ [p]).getLastD 0 = p := by rw [getLastD_append]; rfl
        rw [if_neg (by simp), hlast] at hvalid
        simp only [bind_ok, pure_ok, decide_eq_false_iff_not, Nat.not_le] at hvalid
        obtain ⟨r', hr', hlt⟩ := hvalid
        have hprev : (l.nodes n).prevId = p := by
          subst hids
          rw [← hlast]
          exact h.linked.middle.1
        simp only [Bool.false_eq_true, if_false, hprev] at hloop
        exact ih (u := w) (v := n :: v) (by simp [hids]) ⟨r', hr', hlt.le⟩ hloop

theorem IsList.gap_of_ascendList (h : IsList l ids) {start : Address}
    {position : Address × Address} (hstart : start ∈ ids)
    (hr : ∃ r, getNominalICR start = .ok r ∧ r ≤ NICR)
    (ha : ascendList getNominalICR NICR start l = .ok position) :
    Gap getNominalICR NICR ids position.1 position.2 := by
  obtain ⟨afterTail, hafter, ha⟩ := bind_ok.mp ha
  cases afterTail with
  | true =>
    obtain rfl : (start, 0) = position := by simpa [pure_ok] using ha
    unfold isAfterTail at hafter
    split at hafter
    next htail =>
      simp only [bind_ok, pure_ok, decide_eq_true_eq] at hafter
      exact ⟨ids, [], by simp, by rw [← htail, h.tail_eq], rfl, fun _ => hafter, by simp⟩
    next => simp at hafter
  | false =>
    simp only [Bool.false_eq_true, if_false] at ha
    obtain ⟨u, v, hids⟩ := List.append_of_mem hstart
    exact h.gap_of_ascendLoop hids hr ha

/-! ## The search from untrusted hints -/

theorem IsList.checkPrevHint_ok (h : IsList l ids) {p : Address}
    (hc : checkPrevHint getNominalICR NICR prevId l = .ok p) :
    p = 0 ∨ (p ∈ ids ∧ ∃ r, getNominalICR p = .ok r ∧ NICR ≤ r) := by
  unfold checkPrevHint at hc
  split at hc
  next hne =>
    split at hc
    next => exact .inl (by simpa using hc.symm)
    next hcontains =>
      simp only [bind_ok, pure_ok] at hc
      obtain ⟨r, hr, hp⟩ := hc
      split at hp
      next => exact .inl hp.symm
      next hlt =>
        subst hp
        refine .inr ⟨(h.contains_iff _).mp (by simpa using hcontains), r, hr, by omega⟩
  next hz => exact .inl (by simp_all)

theorem IsList.checkNextHint_ok (h : IsList l ids) {n : Address}
    (hc : checkNextHint getNominalICR NICR nextId l = .ok n) :
    n = 0 ∨ (n ∈ ids ∧ ∃ r, getNominalICR n = .ok r ∧ r ≤ NICR) := by
  unfold checkNextHint at hc
  split at hc
  next hne =>
    split at hc
    next => exact .inl (by simpa using hc.symm)
    next hcontains =>
      simp only [bind_ok, pure_ok] at hc
      obtain ⟨r, hr, hn⟩ := hc
      split at hn
      next => exact .inl hn.symm
      next hlt =>
        subst hn
        refine .inr ⟨(h.contains_iff _).mp (by simpa using hcontains), r, hr, by omega⟩
  next hz => exact .inl (by simp_all)

theorem IsList.gap_of_findInsertPosition (h : IsList l ids) {position : Address × Address}
    (hf : findInsertPosition getNominalICR NICR prevId nextId l = .ok position) :
    Gap getNominalICR NICR ids position.1 position.2 := by
  obtain ⟨p, hp, hf⟩ := bind_ok.mp hf
  obtain ⟨n, hn, hf⟩ := bind_ok.mp hf
  have hp := h.checkPrevHint_ok hp
  have hn := h.checkNextHint_ok hn
  split at hf
  next => exact h.gap_of_descendList (.inl rfl) hf
  next h0 =>
    split at hf
    next hp0 =>
      have hn := hn.resolve_left fun hn0 => h0 ⟨hp0, hn0⟩
      exact h.gap_of_ascendList hn.1 hn.2 hf
    next hp0 =>
      have hp := hp.resolve_left hp0
      split at hf
      · exact h.gap_of_descendList (.inr hp) hf
      · exact h.gap_of_descendList (.inr hp) hf

theorem IsList.gap_of_insertPosition (h : IsList l ids) {position : Address × Address}
    (hi : insertPosition getNominalICR NICR prevId nextId l = .ok position) :
    Gap getNominalICR NICR ids position.1 position.2 := by
  obtain ⟨valid, hvalid, hi⟩ := bind_ok.mp hi
  cases valid with
  | true =>
    obtain rfl : (prevId, nextId) = position := by simpa [pure_ok] using hi
    exact h.gap_of_valid hvalid
  | false => exact h.gap_of_findInsertPosition (by simpa using hi)

/-! ## Pointer writes -/

/-- The nodes after `link`, at a gap of the list. -/
theorem IsList.link_nodes (h : IsList l (u ++ v)) (hid : id ∉ u ++ v) (x : Address) :
    (link id (u.getLastD 0) (v.headD 0) l).nodes x =
      if x = id then ⟨true, v.headD 0, u.getLastD 0⟩
      else ⟨l.contains x, if u.getLast? = some x then id else l.getNext x,
        if v.head? = some x then id else l.getPrev x⟩ := by
  have hempty := h.absent id hid
  have hhead := h.head_eq
  have htail := h.tail_eq
  have hnz : ∀ y ∈ u ++ v, y ≠ 0 ∧ y ≠ id := fun y hy =>
    ⟨h.ne_zero hy, fun hyid => hid (hyid ▸ hy)⟩
  rcases u.eq_nil_or_concat' with rfl | ⟨w, y, rfl⟩
  · cases v with
    | nil =>
      by_cases hxid : x = id <;>
        simp [link, setPresent, hxid, hempty, Node.empty, contains, getNext, getPrev]
    | cons n z =>
      have hn := hnz n (by simp)
      have hhead : l.head = n := hhead
      by_cases hxid : x = id
      · simp [link, setPresent, setNext, setPrev, hn, hn.2.symm, hxid, hempty, Node.empty, hhead]
      · by_cases hxn : x = n <;>
          simp [link, setPresent, setNext, setPrev, hn, hxid, hxn, eq_comm (a := n), hhead, contains, getNext,
            getPrev]
  · have hlast : (w ++ [y]).getLastD 0 = y := by rw [getLastD_append]; rfl
    have hy := hnz y (by simp)
    rw [hlast]
    cases v with
    | nil =>
      have htail : l.tail = y := by rw [htail, List.append_nil, hlast]
      by_cases hxid : x = id
      · simp [link, setPresent, setNext, setPrev, hy, hy.2.symm, hxid, hempty, Node.empty, htail]
      · by_cases hxy : x = y <;>
          simp [link, setPresent, setNext, setPrev, hy, hxid, hxy, eq_comm (a := y), htail, contains, getNext,
            getPrev]
    | cons n z =>
      have hn := hnz n (by simp)
      have hyn : y ≠ n := by
        have hnodup := h.nodup
        rw [List.append_assoc] at hnodup
        have hcons := (List.nodup_append.mp hnodup).2.1
        exact fun hyn => (List.nodup_cons.mp hcons).1 (by simp [hyn])
      by_cases hxid : x = id
      · simp [link, setPresent, setNext, setPrev, hy, hn, hy.2.symm, hn.2.symm, hxid]
      · by_cases hxn : x = n
        · simp [link, setPresent, setNext, setPrev, hy, hn, hxn, hyn, hyn.symm, contains, getNext]
        · by_cases hxy : x = y <;>
            simp [link, setPresent, setNext, setPrev, hy, hn, hxid, hxn, hxy, hyn, hyn.symm,
              Ne.symm hxn, eq_comm (a := y), contains, getNext, getPrev]

theorem getLast?_eq_some_iff (hu : u ≠ []) (x : Address) :
    u.getLast? = some x ↔ x = u.getLastD 0 := by
  obtain ⟨w, y, rfl⟩ := (u.eq_nil_or_concat').resolve_left hu
  rw [getLastD_append]
  simp [eq_comm]

theorem head?_eq_some_iff (hv : v ≠ []) (x : Address) : v.head? = some x ↔ x = v.headD 0 := by
  obtain ⟨y, w, rfl⟩ := List.exists_cons_of_ne_nil hv
  simp [eq_comm]

theorem IsList.link_ends (h : IsList l (u ++ v)) (id : Address) :
    (SortedTroves.link id (u.getLastD 0) (v.headD 0) l).head = (u ++ id :: v).headD 0 ∧
      (SortedTroves.link id (u.getLastD 0) (v.headD 0) l).tail = (u ++ id :: v).getLastD 0 := by
  have hhead := h.head_eq
  have htail := h.tail_eq
  rcases u.eq_nil_or_concat' with rfl | ⟨w, y, rfl⟩
  · cases v with
    | nil => simp [SortedTroves.link]
    | cons n z =>
      have hn : n ≠ 0 := h.ne_zero (by simp)
      rw [getLastD_append, List.getLastD_cons] at htail ⊢
      rw [List.getLastD_cons, ← htail]
      simp [SortedTroves.link, hn, setNext, setPrev, setPresent]
  · have hlast : (w ++ [y]).getLastD 0 = y := by rw [getLastD_append]; rfl
    have hy : y ≠ 0 := h.ne_zero (by simp)
    rw [headD_append] at hhead ⊢
    rw [getLastD_append, hlast] at htail
    rw [hlast, getLastD_append, hlast]
    have hfront : ∀ q q', (w ++ [y]).headD q = (w ++ [y]).headD q' := by cases w <;> simp
    rw [hfront _ (v.headD 0), ← hhead, List.getLastD_cons]
    cases v with
    | nil => simp [SortedTroves.link, hy, setNext, setPrev, setPresent]
    | cons n z =>
      have hn : n ≠ 0 := h.ne_zero (by simp)
      rw [List.getLastD_cons] at htail ⊢
      rw [← htail]
      simp [SortedTroves.link, hy, hn, setNext, setPrev, setPresent]

theorem link_maxSize (id prevId nextId : Address) (l : SortedTroves) :
    (SortedTroves.link id prevId nextId l).maxSize = l.maxSize := by
  unfold SortedTroves.link
  split <;> [rfl; split <;> [rfl; split <;> rfl]]

theorem link_size (id prevId nextId : Address) (l : SortedTroves) :
    (SortedTroves.link id prevId nextId l).size = l.size := by
  unfold SortedTroves.link
  split <;> [rfl; split <;> [rfl; split <;> rfl]]

/-- Linking a fresh id in at a gap. -/
theorem IsList.link (h : IsList l (u ++ v)) (hid : id ∉ u ++ v) (hid0 : id ≠ 0)
    (hfull : l.size < l.maxSize) :
    IsList { SortedTroves.link id (u.getLastD 0) (v.headD 0) l with size := l.size + 1 }
      (u ++ id :: v) := by
  have hnodes := h.link_nodes hid
  have hends := h.link_ends id
  have hmax := link_maxSize id (u.getLastD 0) (v.headD 0) l
  have hne : ∀ x ∈ u ++ v, x ≠ id := fun x hx hxid => hid (hxid ▸ hx)
  obtain ⟨hnu, hnv, hdisj⟩ := List.nodup_append.mp h.nodup
  obtain ⟨hlu, hlv⟩ := linked_append.mp h.linked
  generalize SortedTroves.link id (u.getLastD 0) (v.headD 0) l = l₁ at hnodes hends hmax ⊢
  refine ⟨?_, ?_, ?_, hends.1, hends.2, ?_, ?_, ?_, ?_⟩
  · rw [List.nodup_middle]
    exact List.nodup_cons.mpr ⟨hid, h.nodup⟩
  · have hzero := h.zero_notMem
    simp only [List.mem_append, List.mem_cons, not_or] at hzero ⊢
    exact ⟨hzero.1, hid0.symm, hzero.2⟩
  · refine linked_append.mpr ⟨hlu.relink_end hnu ?_ ?_, ?_, ?_, hlv.relink_start hnv ?_ ?_⟩
    · intro x hx
      simp only [getNext, hnodes, if_neg (hne x (by simp [hx])), List.headD_cons,
        getLast?_eq_some_iff (List.ne_nil_of_mem hx)]
    · intro x hx
      have hhead : v.head? ≠ some x := fun hv => hdisj x hx x (List.mem_of_head? hv) rfl
      simp only [getPrev, hnodes, if_neg (hne x (by simp [hx])), if_neg hhead]
    · simp only [getPrev, hnodes, if_true]
    · simp only [getNext, hnodes, if_true]
    · intro x hx
      have hlast : u.getLast? ≠ some x := fun hu => hdisj x (List.mem_of_getLast? hu) x hx rfl
      simp only [getNext, hnodes, if_neg (hne x (by simp [hx])), if_neg hlast]
    · intro x hx
      simp only [getPrev, hnodes, if_neg (hne x (by simp [hx])),
        head?_eq_some_iff (List.ne_nil_of_mem hx)]
  · simp [h.size_eq]
    omega
  · intro x hx
    by_cases hxid : x = id
    · simp [contains, hnodes, hxid]
    · have hmem : x ∈ u ++ v := by simp_all
      simpa [contains, hnodes, hxid] using h.present x hmem
  · intro x hx
    simp only [List.mem_append, List.mem_cons, not_or] at hx
    have hlast : u.getLast? ≠ some x := fun hu => hx.1 (List.mem_of_getLast? hu)
    have hhead : v.head? ≠ some x := fun hv => hx.2.2 (List.mem_of_head? hv)
    have hempty := h.absent x (by simp [hx])
    simp only [hnodes, if_neg hx.2.1, if_neg hlast, if_neg hhead]
    simp [contains, getNext, getPrev, hempty, Node.empty]
  · change l.size + 1 ≤ l₁.maxSize
    omega

/-- The nodes after `unlink` and `deleteNode`. -/
theorem IsList.unlink_nodes (h : IsList l (u ++ id :: v)) (x : Address) :
    (deleteNode id (unlink id l)).nodes x =
      if x = id then Node.empty
      else ⟨l.contains x, if u.getLast? = some x then v.headD 0 else l.getNext x,
        if v.head? = some x then u.getLastD 0 else l.getPrev x⟩ := by
  obtain ⟨hprev, hnext⟩ := h.linked.middle
  have hhead := h.head_eq
  have htail := h.tail_eq
  have hsize := h.size_eq
  have hnodup := h.nodup
  rw [List.nodup_middle, List.nodup_cons] at hnodup
  have hne : ∀ y ∈ u ++ v, y ≠ id := fun y hy hyid => hnodup.1 (hyid ▸ hy)
  by_cases hxid : x = id
  · simp [deleteNode, hxid]
  rcases u.eq_nil_or_concat' with rfl | ⟨w, y, rfl⟩
  · cases v with
    | nil =>
      have hsize : l.size = 1 := by simpa using hsize
      simp [unlink, deleteNode, hsize, hxid, contains, getNext, getPrev]
    | cons n z =>
      have hsize : 1 < l.size := by simp [hsize]
      have hhead : l.head = id := hhead
      have hnext : (l.nodes id).nextId = n := hnext
      have hnid : n ≠ id := hne n (by simp)
      by_cases hxn : x = n <;>
        simp [unlink, deleteNode, hsize, hhead, hnext, hxid, hxn, hnid, setPrev, eq_comm (a := n),
          contains, getNext, getPrev]
  · have hlast : (w ++ [y]).getLastD 0 = y := by rw [getLastD_append]; rfl
    have hyid : y ≠ id := hne y (by simp)
    have hmore : 1 < l.size := by simp [hsize]; omega
    have hnothead : id ≠ l.head := by
      rw [hhead, headD_append]
      cases w with
      | nil => exact hyid.symm
      | cons a w => exact (hne a (by simp)).symm
    have hprev : (l.nodes id).prevId = y := hprev.trans hlast
    rw [hlast]
    cases v with
    | nil =>
      have htail : l.tail = id := by rw [htail, getLastD_append]; rfl
      have hnext : (l.nodes id).nextId = 0 := hnext
      by_cases hxy : x = y <;>
        simp [unlink, deleteNode, hmore, hnothead, htail, hprev, hxid, hxy, hyid, setNext,
          eq_comm (a := y), contains, getNext, getPrev]
    | cons n z =>
      have hnid : n ≠ id := hne n (by simp)
      have hnext : (l.nodes id).nextId = n := hnext
      have hyn : y ≠ n := by
        have hnodup := hnodup.2
        rw [List.append_assoc] at hnodup
        have hcons := (List.nodup_append.mp hnodup).2.1
        exact fun hyn => (List.nodup_cons.mp hcons).1 (by simp [hyn])
      have hnottail : id ≠ l.tail := by
        rw [htail, getLastD_append, List.getLastD_cons, List.getLastD_cons]
        exact (hne _ (List.mem_append_right _ List.getLastD_mem_cons)).symm
      by_cases hxn : x = n
      · simp [unlink, deleteNode, hmore, hnothead, hnottail, hprev, hnext, hyid.symm, hnid, hxn, hyn,
          hyn.symm, setNext, setPrev, contains, getNext]
      · by_cases hxy : x = y <;>
          simp [unlink, deleteNode, hmore, hnothead, hnottail, hprev, hnext, hxid, hxn, hyid,
            hyid.symm, hxy, hyn, hyn.symm, Ne.symm hxn, eq_comm (a := y), setNext, setPrev, contains, getNext,
            getPrev]

theorem IsList.unlink_ends (h : IsList l (u ++ id :: v)) :
    (unlink id l).head = (u ++ v).headD 0 ∧ (unlink id l).tail = (u ++ v).getLastD 0 := by
  obtain ⟨hprev, hnext⟩ := h.linked.middle
  have hhead := h.head_eq
  have htail := h.tail_eq
  have hsize := h.size_eq
  have hnodup := h.nodup
  rw [List.nodup_middle, List.nodup_cons] at hnodup
  have hne : ∀ y ∈ u ++ v, y ≠ id := fun y hy hyid => hnodup.1 (hyid ▸ hy)
  rw [headD_append] at hhead ⊢
  rw [getLastD_append] at htail ⊢
  rcases u.eq_nil_or_concat' with rfl | ⟨w, y, rfl⟩
  · cases v with
    | nil =>
      have hsize : l.size = 1 := by simpa using hsize
      simp [unlink, hsize]
    | cons n z =>
      have hsize : 1 < l.size := by simp [hsize]
      have hhead : l.head = id := hhead
      have hnext : (l.nodes id).nextId = n := hnext
      rw [List.getLastD_cons, List.getLastD_cons] at htail
      rw [List.getLastD_cons, ← htail]
      simp [unlink, hsize, hhead, hnext, setPrev]
  · have hlast : (w ++ [y]).getLastD 0 = y := by rw [getLastD_append]; rfl
    have hmore : 1 < l.size := by simp [hsize]; omega
    have hfront : ∀ q q', (w ++ [y]).headD q = (w ++ [y]).headD q' := by cases w <;> simp
    have hnothead : id ≠ l.head := by
      rw [hhead]
      cases w with
      | nil => exact (hne y (by simp)).symm
      | cons a w => exact (hne a (by simp)).symm
    have hprev : (l.nodes id).prevId = y := hprev.trans hlast
    rw [hlast] at htail ⊢
    rw [hfront _ ((id :: v).headD 0), ← hhead]
    cases v with
    | nil =>
      have htail : l.tail = id := htail
      simp [unlink, hmore, hnothead, htail, hprev, setNext]
    | cons n z =>
      have hnottail : id ≠ l.tail := by
        rw [htail, List.getLastD_cons, List.getLastD_cons]
        exact (hne _ (List.mem_append_right _ List.getLastD_mem_cons)).symm
      rw [List.getLastD_cons, List.getLastD_cons] at htail
      rw [List.getLastD_cons, ← htail]
      simp [unlink, hmore, hnothead, hnottail, setNext, setPrev]

theorem unlink_maxSize (id : Address) (l : SortedTroves) : (unlink id l).maxSize = l.maxSize := by
  unfold unlink
  split <;> [split <;> [rfl; split <;> rfl]; rfl]

theorem unlink_size (id : Address) (l : SortedTroves) : (unlink id l).size = l.size := by
  unfold unlink
  split <;> [split <;> [rfl; split <;> rfl]; rfl]

/-- Unlinking an id and deleting its node. -/
theorem IsList.unlink (h : IsList l (u ++ id :: v)) :
    IsList { deleteNode id (SortedTroves.unlink id l) with size := l.size - 1 } (u ++ v) := by
  have hnodes := h.unlink_nodes
  have hends := h.unlink_ends
  have hmax := unlink_maxSize id l
  have hnodup := h.nodup
  rw [List.nodup_middle, List.nodup_cons] at hnodup
  have hne : ∀ x ∈ u ++ v, x ≠ id := fun x hx hxid => hnodup.1 (hxid ▸ hx)
  obtain ⟨hnu, hnv, hdisj⟩ := List.nodup_append.mp hnodup.2
  obtain ⟨hlu, -, -, hlv⟩ := linked_append.mp h.linked
  refine ⟨hnodup.2, ?_, ?_, hends.1, hends.2, ?_, ?_, ?_, ?_⟩
  · have hzero := h.zero_notMem
    simp only [List.mem_append, List.mem_cons, not_or] at hzero ⊢
    exact ⟨hzero.1, hzero.2.2⟩
  · refine linked_append.mpr ⟨hlu.relink_end hnu ?_ ?_, hlv.relink_start hnv ?_ ?_⟩
    · intro x hx
      simp only [getNext, hnodes, if_neg (hne x (by simp [hx])),
        getLast?_eq_some_iff (List.ne_nil_of_mem hx)]
    · intro x hx
      have hhead : v.head? ≠ some x := fun hv => hdisj x hx x (List.mem_of_head? hv) rfl
      simp only [getPrev, hnodes, if_neg (hne x (by simp [hx])), if_neg hhead]
    · intro x hx
      have hlast : u.getLast? ≠ some x := fun hu => hdisj x (List.mem_of_getLast? hu) x hx rfl
      simp only [getNext, hnodes, if_neg (hne x (by simp [hx])), if_neg hlast]
    · intro x hx
      simp only [getPrev, hnodes, if_neg (hne x (by simp [hx])),
        head?_eq_some_iff (List.ne_nil_of_mem hx)]
  · simp [h.size_eq]
  · intro x hx
    simpa [contains, hnodes, hne x hx] using h.present x (by simp at hx ⊢; tauto)
  · intro x hx
    by_cases hxid : x = id
    · simp [hnodes, hxid]
    · simp only [List.mem_append, not_or] at hx
      have hlast : u.getLast? ≠ some x := fun hu => hx.1 (List.mem_of_getLast? hu)
      have hhead : v.head? ≠ some x := fun hv => hx.2 (List.mem_of_head? hv)
      have hempty := h.absent x (by simp [hx, hxid])
      simp only [hnodes, if_neg hxid, if_neg hlast, if_neg hhead]
      simp [contains, getNext, getPrev, hempty, Node.empty]
  · have hle := h.size_le
    change l.size - 1 ≤ (SortedTroves.unlink id l).maxSize
    omega

/-! ## Insertion and removal -/

/-- `NICR` lies between the ratios of the neighbours at the cut of `u ++ v`. -/
def Fits (getNominalICR : Address → Tx Nat) (NICR : Nat) (u v : List Address) : Prop :=
  (∀ y ∈ u.getLast?, ∃ r, getNominalICR y = .ok r ∧ NICR ≤ r) ∧
    ∀ y ∈ v.head?, ∃ r, getNominalICR y = .ok r ∧ r ≤ NICR

/-- What a successful `_insert` does to the represented ids. -/
theorem IsList.insertInternal (h : IsList l ids)
    (hins : insertInternal getNominalICR id NICR prevId nextId l = .ok l') :
    id ∉ ids ∧ 0 < NICR ∧ ∃ u v, ids = u ++ v ∧ IsList l' (u ++ id :: v) ∧
      Fits getNominalICR NICR u v := by
  simp only [SortedTroves.insertInternal, bind_ok, require_ok, pure_ok, add_ok] at hins
  obtain ⟨-, hfull, -, habsent, -, hid0, -, hNICR, position, hposition, size, ⟨-, rfl⟩, rfl⟩ := hins
  have hid : id ∉ ids := fun hmem => by simp [h.present id hmem] at habsent
  obtain ⟨u, v, rfl, hp, hn, hprev, hnext⟩ := h.gap_of_insertPosition hposition
  refine ⟨hid, hNICR, u, v, rfl, ?_, fun y hy => ?_, fun y hy => ?_⟩
  rotate_left
  · have hlast : position.1 = y := by
      rw [hp, (getLast?_eq_some_iff (by rintro rfl; simp at hy) y).mp hy]
    rw [hlast] at hprev
    exact hprev (h.ne_zero (by simp [List.mem_of_getLast? hy]))
  · have hhead : position.2 = y := by
      rw [hn, (head?_eq_some_iff (by rintro rfl; simp at hy) y).mp hy]
    rw [hhead] at hnext
    exact hnext (h.ne_zero (by simp [List.mem_of_head? hy]))
  have hlt : l.size < l.maxSize := lt_of_le_of_ne h.size_le (by simpa [isFull] using hfull)
  have hsize : (SortedTroves.link id position.1 position.2 l).size = l.size := link_size _ _ _ _
  rw [hsize, hp, hn]
  exact h.link hid hid0 hlt

/-- What a successful `_remove` does to the represented ids. -/
theorem IsList.removeInternal (h : IsList l ids) (hrem : removeInternal id l = .ok l') :
    ∃ u v, ids = u ++ id :: v ∧ IsList l' (u ++ v) := by
  simp only [SortedTroves.removeInternal, bind_ok, require_ok, pure_ok, sub_ok] at hrem
  obtain ⟨-, hpresent, size, ⟨-, rfl⟩, rfl⟩ := hrem
  obtain ⟨u, v, rfl⟩ := List.append_of_mem ((h.contains_iff id).mp hpresent)
  refine ⟨u, v, rfl, ?_⟩
  have hsize : (deleteNode id (SortedTroves.unlink id l)).size = l.size := unlink_size _ _
  rw [hsize]
  exact h.unlink

end SortedTroves

end Liquity
