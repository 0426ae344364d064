import Liquity.Properties.Sorting

/-!
# Insert positions do not depend on the hints

With a ratio for every address the search for an insert position cannot fail: it ends inside the list,
at a gap that `validInsertPosition` accepts.  Several gaps may do, but only among equal ratios, so the
ratios read along the list after an insertion are the same for all hints.
-/

open Lib

namespace Liquity

open SafeMath

namespace SortedTroves

variable {l l' : SortedTroves} {ids u v : List Address} {id prevId nextId : Address}
  {nominalICR : Address → Nat} {NICR : Nat}

/-! ## The search succeeds -/

/-- The only failure left is running out of rounds. -/
theorem avoids_validInsertPosition :
    Avoids (fun e => e ≠ .outOfGas)
      (validInsertPosition (fun x => .ok (nominalICR x)) NICR prevId nextId l) := by
  unfold validInsertPosition
  simp

theorem avoids_descendLoop (rounds : Nat) :
    Avoids (fun e => e ≠ .outOfGas)
      (descendLoop (fun x => .ok (nominalICR x)) NICR l rounds prevId nextId) := by
  induction rounds generalizing prevId nextId with
  | zero => simp [descendLoop]
  | succ rounds ih =>
    unfold descendLoop
    simp [avoids_validInsertPosition, ih]

theorem avoids_ascendLoop (rounds : Nat) :
    Avoids (fun e => e ≠ .outOfGas)
      (ascendLoop (fun x => .ok (nominalICR x)) NICR l rounds prevId nextId) := by
  induction rounds generalizing prevId nextId with
  | zero => simp [ascendLoop]
  | succ rounds ih =>
    unfold ascendLoop
    simp [avoids_validInsertPosition, ih]

theorem avoids_findInsertPosition :
    Avoids (fun e => e ≠ .outOfGas)
      (findInsertPosition (fun x => .ok (nominalICR x)) NICR prevId nextId l) := by
  simp [findInsertPosition, checkPrevHint, checkNextHint, descendList, ascendList, isBeforeHead,
    isAfterTail, avoids_descendLoop, avoids_ascendLoop]

theorem avoids_insertPosition :
    Avoids (fun e => e ≠ .outOfGas)
      (insertPosition (fun x => .ok (nominalICR x)) NICR prevId nextId l) := by
  simp [insertPosition, avoids_validInsertPosition, avoids_findInsertPosition]

/-! ## The position is accepted -/

/-- Every gap passes `validInsertPosition`. -/
theorem IsList.valid_of_gap (h : IsList l ids)
    (hgap : Gap (fun x => .ok (nominalICR x)) NICR ids prevId nextId) :
    validInsertPosition (fun x => .ok (nominalICR x)) NICR prevId nextId l = .ok true := by
  obtain ⟨u, v, rfl, rfl, rfl, hprev, hnext⟩ := hgap
  rcases List.eq_nil_or_concat' u with rfl | ⟨w, p, rfl⟩
  · cases v with
    | nil => simp [validInsertPosition, isEmpty, h.size_eq]
    | cons n v =>
      -- before the head
      have hn : n ≠ 0 := h.ne_zero (by simp)
      obtain ⟨r, hr, hle⟩ := hnext hn
      have hvalid : validInsertPosition (fun x => .ok (nominalICR x)) NICR (l.getPrev n) n l = _ :=
        h.valid_before rfl hr hle
      rw [h.linked.middle.1, if_pos rfl] at hvalid
      exact hvalid
  · have hlast : (w ++ [p]).getLastD 0 = p := by
      rw [getLastD_append]
      rfl
    have hids : w ++ [p] ++ v = w ++ p :: v := by rw [List.append_assoc]; rfl
    rw [hids] at h
    rw [hlast] at hprev ⊢
    have hp : p ≠ 0 := h.ne_zero (by simp)
    obtain ⟨r, hr, hle⟩ := hprev hp
    have hvalid : validInsertPosition (fun x => .ok (nominalICR x)) NICR p (l.getNext p) l = _ :=
      h.valid_after rfl hr hle
    rw [h.linked.middle.2] at hvalid
    rw [hvalid]
    cases v with
    | nil => rfl
    | cons n v =>
      have hn : n ≠ 0 := h.ne_zero (by simp)
      obtain ⟨r', hr', hle'⟩ := hnext hn
      cases hr'
      exact congrArg Except.ok (decide_eq_true hle')

/-- The null pair is only accepted by an empty list. -/
theorem IsList.valid_zero (h : IsList l ids)
    (hvalid : validInsertPosition (fun x => .ok (nominalICR x)) NICR 0 0 l = .ok true) : ids = [] := by
  rw [validInsertPosition, if_pos ⟨rfl, rfl⟩] at hvalid
  exact h.isEmpty_iff.mp (Except.ok.inj hvalid)

/-! ## Insertion -/

/-- Whether an insertion succeeds does not depend on the hints. -/
theorem IsList.exists_insertInternal (h : IsList l ids)
    (hins : SortedTroves.insertInternal (fun x => .ok (nominalICR x)) id NICR prevId nextId l = .ok l')
    (prevId' nextId' : Address) : ∃ l'',
      SortedTroves.insertInternal (fun x => .ok (nominalICR x)) id NICR prevId' nextId' l = .ok l'' := by
  simp only [SortedTroves.insertInternal, bind_ok, require_ok, pure_ok, add_ok] at hins ⊢
  obtain ⟨-, hfull, -, habsent, -, hid, -, hNICR, position, -, _, ⟨hsize, rfl⟩, rfl⟩ := hins
  obtain ⟨position', hposition'⟩ : ∃ position', insertPosition (fun x => .ok (nominalICR x)) NICR
      prevId' nextId' l = .ok position' :=
    (h.terminates_insertPosition (fun _ => terminates_ok _) prevId' nextId').exists_ok
      avoids_insertPosition
  have hsize' : (SortedTroves.link id position'.1 position'.2 l).size =
      (SortedTroves.link id position.1 position.2 l).size := by rw [link_size, link_size]
  rw [← hsize'] at hsize
  exact ⟨_, (), hfull, (), habsent, (), hid, (), hNICR, position', hposition', _, ⟨hsize, rfl⟩, rfl⟩

/-- An insertion into a sorted list keeps it sorted, with the new ratio read for the new id. -/
theorem IsList.insertInternal_sorted (h : IsList l ids)
    (hsorted : ids.Pairwise fun a b => nominalICR b ≤ nominalICR a)
    (hins : SortedTroves.insertInternal (fun x => .ok (nominalICR x)) id NICR prevId nextId l = .ok l') :
    ∃ ids', IsList l' ids' ∧ ids'.Perm (id :: ids) ∧ ids'.Pairwise fun a b =>
      Function.update nominalICR id NICR b ≤ Function.update nominalICR id NICR a := by
  obtain ⟨hid, -, u, v, rfl, h', hlast, hhead⟩ := h.insertInternal hins
  have hother : ∀ x ∈ u ++ v, Function.update nominalICR id NICR x = nominalICR x := fun x hx =>
    Function.update_of_ne (ne_of_mem_of_not_mem hx hid) _ _
  refine ⟨u ++ id :: v, h', List.perm_middle, pairwise_insert ?_ ?_ ?_⟩
  · refine hsorted.imp_of_mem fun ha hb hle => ?_
    rw [hother _ ha, hother _ hb]
    exact hle
  · intro y hy
    obtain ⟨r, hr, hle⟩ := hlast y hy
    cases hr
    rw [Function.update_self, hother y (List.mem_append_left v (List.mem_of_getLast? hy))]
    exact hle
  · intro y hy
    obtain ⟨r, hr, hle⟩ := hhead y hy
    cases hr
    rw [Function.update_self, hother y (List.mem_append_right u (List.mem_of_head? hy))]
    exact hle

/-- Sorted arrangements of the same ids read the same ratios. -/
theorem map_eq_of_sorted {f : Address → Nat} {ids ids' : List Address} (hperm : ids.Perm ids')
    (h : ids.Pairwise fun a b => f b ≤ f a) (h' : ids'.Pairwise fun a b => f b ≤ f a) :
    ids.map f = ids'.map f := by
  have hanti : ∀ a b : Nat, a ∈ ids.map f → b ∈ ids'.map f → b ≤ a → a ≤ b → a = b :=
    fun a b _ _ hba hab => Nat.le_antisymm hab hba
  exact List.Perm.eq_of_pairwise hanti (List.pairwise_map.mpr h) (List.pairwise_map.mpr h')
    (hperm.map f)

/-- The search is correct for all hints on every list, sorted or not; an insertion into a sorted list
leaves it sorted, and for other hints it succeeds as well and reads the same ratios. -/
theorem findInsertPosition_correct (h : IsList l ids) (nominalICR : Address → Nat) (NICR : Nat)
    (prevId nextId : Address) :
    (∃ position,
      findInsertPosition (fun x => .ok (nominalICR x)) NICR prevId nextId l = .ok position ∧
      validInsertPosition (fun x => .ok (nominalICR x)) NICR position.1 position.2 l = .ok true ∧
      (position = (0, 0) ↔ l.isEmpty = true)) ∧
    ∀ id l', l.toList.Pairwise (fun a b => nominalICR b ≤ nominalICR a) →
      insertInternal (fun x => .ok (nominalICR x)) id NICR prevId nextId l = .ok l' →
      l'.toList.Pairwise (fun a b =>
        Function.update nominalICR id NICR b ≤ Function.update nominalICR id NICR a) ∧
      ∀ prevId' nextId', ∃ l'',
        insertInternal (fun x => .ok (nominalICR x)) id NICR prevId' nextId' l = .ok l'' ∧
        l''.toList.map (Function.update nominalICR id NICR) =
          l'.toList.map (Function.update nominalICR id NICR) := by
  constructor
  · obtain ⟨position, hfind⟩ : ∃ position, findInsertPosition (fun x => .ok (nominalICR x)) NICR
        prevId nextId l = .ok position :=
      (h.terminates_findInsertPosition (fun _ => terminates_ok _) prevId nextId).exists_ok
        avoids_findInsertPosition
    have hgap := h.gap_of_findInsertPosition hfind
    have hvalid := h.valid_of_gap hgap
    refine ⟨position, hfind, hvalid, ?_, ?_⟩
    · rintro rfl
      exact h.isEmpty_iff.mpr (h.valid_zero hvalid)
    · intro hempty
      obtain rfl := h.isEmpty_iff.mp hempty
      obtain ⟨u, v, huv, hprev, hnext, -⟩ := hgap
      obtain ⟨rfl, rfl⟩ := List.nil_eq_append_iff.mp huv
      exact Prod.ext hprev hnext
  · intro id l' hsorted hins
    rw [h.toList_eq] at hsorted
    obtain ⟨ids', h', hperm, hsorted'⟩ := h.insertInternal_sorted hsorted hins
    rw [h'.toList_eq]
    refine ⟨hsorted', fun prevId' nextId' => ?_⟩
    obtain ⟨l'', hins'⟩ := h.exists_insertInternal hins prevId' nextId'
    obtain ⟨ids'', h'', hperm'', hsorted''⟩ := h.insertInternal_sorted hsorted hins'
    refine ⟨l'', hins', ?_⟩
    rw [h''.toList_eq]
    exact map_eq_of_sorted (hperm''.trans hperm.symm) hsorted'' hsorted'

/-- Between 20 and 10, found from two hints that are both wrong. -/
theorem sampleList_position : ∃ l, ReachableList sampleDeployment l ∧ l.toList = [7, 5] ∧
    ∃ position, findInsertPosition (fun x => .ok (if x = 7 then 20 else 10)) 15 5 9 l = .ok position ∧
      validInsertPosition (fun x => .ok (if x = 7 then 20 else 10)) 15 position.1 position.2 l =
        .ok true := by
  obtain ⟨l, h, hlist⟩ := exists_twoInserts
  obtain ⟨ids, hids⟩ := h.isList
  obtain ⟨⟨position, hfind, hvalid, -⟩, -⟩ :=
    findInsertPosition_correct hids (fun x => if x = 7 then 20 else 10) 15 5 9
  exact ⟨l, h, hlist, position, hfind, hvalid⟩

end SortedTroves

end Liquity
