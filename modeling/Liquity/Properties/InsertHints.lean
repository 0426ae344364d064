import Liquity.LibEthers.InsertHints
import Liquity.Properties.InsertPositions

/-!
# The SDK's hints after the reinsertion has removed the trove

The hints that are found around an own trove are the ends of a gap of the list without it.  A gap at an
end of that list is handed out as one trove twice, from which the search of the contract gets there
without a step.
-/

open Lib

namespace Liquity

namespace SortedTroves

variable {l l' : SortedTroves} {ids u v : List Address} {own id prevId nextId x : Address}
  {nominalICR : Address → Nat} {NICR : Nat}

/-! ## Searches of a few rounds -/

section Within

variable (getNominalICR : Address → Tx Nat) (rounds NICR : Nat)

/-- `_descendList`, if it ends within some number of rounds. -/
def descendListWithin (startId : Address) (l : SortedTroves) : Tx (Address × Address) := do
  let beforeHead ← isBeforeHead getNominalICR NICR startId l
  if beforeHead then return (0, startId)
  else descendLoop getNominalICR NICR l rounds startId (l.nodes startId).nextId

def ascendListWithin (startId : Address) (l : SortedTroves) : Tx (Address × Address) := do
  let afterTail ← isAfterTail getNominalICR NICR startId l
  if afterTail then return (startId, 0)
  else ascendLoop getNominalICR NICR l rounds (l.nodes startId).prevId startId

def findInsertPositionWithin (prevId nextId : Address) (l : SortedTroves) :
    Tx (Address × Address) := do
  let prevId ← checkPrevHint getNominalICR NICR prevId l
  let nextId ← checkNextHint getNominalICR NICR nextId l
  if prevId = 0 ∧ nextId = 0 then descendListWithin getNominalICR rounds NICR l.head l
  else if prevId = 0 then ascendListWithin getNominalICR rounds NICR nextId l
  else descendListWithin getNominalICR rounds NICR prevId l

def insertPositionWithin (prevId nextId : Address) (l : SortedTroves) : Tx (Address × Address) := do
  let valid ← validInsertPosition getNominalICR NICR prevId nextId l
  if valid then return (prevId, nextId)
  else findInsertPositionWithin getNominalICR rounds NICR prevId nextId l

end Within

/-- The search of the contract is one that may go through the whole list. -/
theorem findInsertPosition_eq_within (getNominalICR : Address → Tx Nat) (NICR : Nat)
    (prevId nextId : Address) (l : SortedTroves) :
    findInsertPosition getNominalICR NICR prevId nextId l =
      findInsertPositionWithin getNominalICR (l.size + 1) NICR prevId nextId l := by
  unfold findInsertPosition findInsertPositionWithin
  congr 1
  funext p
  congr 1
  funext n
  by_cases hboth : p = 0 ∧ n = 0
  · rw [if_pos hboth, if_pos hboth]
    rfl
  · rw [if_neg hboth, if_neg hboth]
    by_cases hp : p = 0
    · rw [if_pos hp, if_pos hp]
      rfl
    · rw [if_neg hp, if_neg hp, ite_self]
      rfl

theorem descendLoop_mono {getNominalICR : Address → Tx Nat} {rounds rounds' : Nat}
    {position : Address × Address} (hle : rounds ≤ rounds')
    (h : descendLoop getNominalICR NICR l rounds prevId nextId = .ok position) :
    descendLoop getNominalICR NICR l rounds' prevId nextId = .ok position := by
  induction rounds generalizing rounds' prevId nextId with
  | zero => cases h
  | succ rounds ih =>
    obtain ⟨more, rfl⟩ := Nat.exists_eq_add_of_le' (Nat.le_trans (Nat.succ_pos rounds) hle)
    unfold descendLoop at h ⊢
    split at h
    next hprev =>
      rw [if_pos hprev]
      obtain ⟨valid, hvalid, h⟩ := bind_ok.mp h
      refine bind_ok.mpr ⟨valid, hvalid, ?_⟩
      cases valid with
      | true => exact h
      | false => exact ih (Nat.le_of_succ_le_succ hle) h
    next hprev =>
      rw [if_neg hprev]
      exact h

theorem ascendLoop_mono {getNominalICR : Address → Tx Nat} {rounds rounds' : Nat}
    {position : Address × Address} (hle : rounds ≤ rounds')
    (h : ascendLoop getNominalICR NICR l rounds prevId nextId = .ok position) :
    ascendLoop getNominalICR NICR l rounds' prevId nextId = .ok position := by
  induction rounds generalizing rounds' prevId nextId with
  | zero => cases h
  | succ rounds ih =>
    obtain ⟨more, rfl⟩ := Nat.exists_eq_add_of_le' (Nat.le_trans (Nat.succ_pos rounds) hle)
    unfold ascendLoop at h ⊢
    split at h
    next hnext =>
      rw [if_pos hnext]
      obtain ⟨valid, hvalid, h⟩ := bind_ok.mp h
      refine bind_ok.mpr ⟨valid, hvalid, ?_⟩
      cases valid with
      | true => exact h
      | false => exact ih (Nat.le_of_succ_le_succ hle) h
    next hnext =>
      rw [if_neg hnext]
      exact h

/-- More rounds find what fewer rounds have found. -/
theorem insertPosition_of_within {getNominalICR : Address → Tx Nat} {rounds : Nat}
    {position : Address × Address} (hle : rounds ≤ l.size + 1)
    (h : insertPositionWithin getNominalICR rounds NICR prevId nextId l = .ok position) :
    insertPosition getNominalICR NICR prevId nextId l = .ok position := by
  have hdescend : ∀ start, descendListWithin getNominalICR rounds NICR start l = .ok position →
      descendListWithin getNominalICR (l.size + 1) NICR start l = .ok position := by
    intro start h
    obtain ⟨before, hbefore, h⟩ := bind_ok.mp h
    refine bind_ok.mpr ⟨before, hbefore, ?_⟩
    cases before with
    | true => exact h
    | false => exact descendLoop_mono hle h
  have hascend : ∀ start, ascendListWithin getNominalICR rounds NICR start l = .ok position →
      ascendListWithin getNominalICR (l.size + 1) NICR start l = .ok position := by
    intro start h
    obtain ⟨after, hafter, h⟩ := bind_ok.mp h
    refine bind_ok.mpr ⟨after, hafter, ?_⟩
    cases after with
    | true => exact h
    | false => exact ascendLoop_mono hle h
  obtain ⟨valid, hvalid, h⟩ := bind_ok.mp h
  refine bind_ok.mpr ⟨valid, hvalid, ?_⟩
  cases valid with
  | true => exact h
  | false =>
    show findInsertPosition getNominalICR NICR prevId nextId l = .ok position
    rw [findInsertPosition_eq_within]
    obtain ⟨p, hp, h⟩ := bind_ok.mp h
    obtain ⟨n, hn, h⟩ := bind_ok.mp h
    refine bind_ok.mpr ⟨p, hp, bind_ok.mpr ⟨n, hn, ?_⟩⟩
    split at h
    next hboth =>
      rw [if_pos hboth]
      exact hdescend _ h
    next hboth =>
      rw [if_neg hboth]
      split at h
      next hp =>
        rw [if_pos hp]
        exact hascend _ h
      next hp =>
        rw [if_neg hp]
        exact hdescend _ h

/-! ## One trove as both hints -/

/-- From the head of the list the position before it is the first one that is looked at. -/
theorem IsList.find_before_head (h : IsList l (x :: v)) (hle : nominalICR x ≤ NICR) :
    findInsertPositionWithin (fun y => .ok (nominalICR y)) 1 NICR x x l = .ok (0, x) := by
  have hx : x ≠ 0 := h.ne_zero (by simp)
  have hcontains : l.contains x = true := h.present x (by simp)
  have hhead : l.head = x := h.head_eq
  have hnextHint : checkNextHint (fun y => .ok (nominalICR y)) NICR x l = .ok x := by
    simp [checkNextHint, hx, hcontains, Nat.not_lt.mpr hle, ok_bind, pure, Except.pure]
  have hprevHint : checkPrevHint (fun y => .ok (nominalICR y)) NICR x l =
      .ok (if nominalICR x < NICR then 0 else x) := by
    simp [checkPrevHint, hx, hcontains, ok_bind, pure, Except.pure]
  rw [findInsertPositionWithin, hprevHint, ok_bind, hnextHint, ok_bind]
  by_cases hlt : nominalICR x < NICR
  · -- only the hint below survives, and the search goes up
    rw [if_pos hlt, if_neg fun h => hx h.2, if_pos rfl, ascendListWithin]
    have hafter : isAfterTail (fun y => .ok (nominalICR y)) NICR x l = .ok false := by
      unfold isAfterTail
      split
      · simp [ok_bind, pure, Except.pure, hlt]
      · rfl
    have hvalid : validInsertPosition (fun y => .ok (nominalICR y)) NICR (l.nodes x).prevId x l =
        .ok true := h.valid_before (u := []) rfl rfl hle
    have hprev : (l.nodes x).prevId = 0 := h.linked.1
    rw [hafter, ok_bind, if_neg (by decide), ascendLoop, if_pos hx, hvalid, hprev]
    rfl
  · rw [if_neg hlt, if_neg fun h => hx h.1, if_neg hx, descendListWithin]
    have hbefore : isBeforeHead (fun y => .ok (nominalICR y)) NICR x l = .ok true := by
      simp [isBeforeHead, hhead, ok_bind, pure, Except.pure, hle]
    rw [hbefore]
    rfl

/-- From the tail the position after it is the first one, unless the tail is the head as well. -/
theorem IsList.find_after_tail (h : IsList l (u ++ [x])) (hle : NICR ≤ nominalICR x) :
    findInsertPositionWithin (fun y => .ok (nominalICR y)) 1 NICR x x l = .ok (x, 0) ∨
      (l.head = x ∧
        findInsertPositionWithin (fun y => .ok (nominalICR y)) 1 NICR x x l = .ok (0, x)) := by
  have hx : x ≠ 0 := h.ne_zero (by simp)
  have hcontains : l.contains x = true := h.present x (by simp)
  have hprevHint : checkPrevHint (fun y => .ok (nominalICR y)) NICR x l = .ok x := by
    simp [checkPrevHint, hx, hcontains, Nat.not_lt.mpr hle, ok_bind, pure, Except.pure]
  have hnextHint : checkNextHint (fun y => .ok (nominalICR y)) NICR x l =
      .ok (if NICR < nominalICR x then 0 else x) := by
    simp [checkNextHint, hx, hcontains, ok_bind, pure, Except.pure]
  rw [findInsertPositionWithin, hprevHint, ok_bind, hnextHint, ok_bind, if_neg fun h => hx h.1,
    if_neg hx, descendListWithin]
  obtain ⟨before, hbefore, hhead⟩ : ∃ before,
      isBeforeHead (fun y => .ok (nominalICR y)) NICR x l = .ok before ∧
        (before = true → l.head = x) := by
    unfold isBeforeHead
    split
    next hhead => exact ⟨_, rfl, fun _ => hhead⟩
    next => exact ⟨false, rfl, fun h => by cases h⟩
  rw [hbefore, ok_bind]
  cases before with
  | true => exact .inr ⟨hhead rfl, rfl⟩
  | false =>
    left
    have hvalid : validInsertPosition (fun y => .ok (nominalICR y)) NICR x (l.nodes x).nextId l =
        .ok true := h.valid_after (v := []) rfl rfl hle
    have hnext : (l.nodes x).nextId = 0 := h.linked.middle.2
    rw [if_neg (by decide), descendLoop, if_pos hx, hvalid, hnext]
    rfl

theorem exists_validInsertPosition (nominalICR : Address → Nat) (NICR : Nat)
    (prevId nextId : Address) (l : SortedTroves) : ∃ valid,
    validInsertPosition (fun y => .ok (nominalICR y)) NICR prevId nextId l = .ok valid := by
  unfold validInsertPosition
  repeat' split
  all_goals first | exact ⟨_, rfl⟩ | skip
  simp only [ok_bind]
  split
  · exact ⟨_, rfl⟩
  · exact ⟨_, rfl⟩

theorem insertPositionWithin_of_find {rounds : Nat} {position : Address × Address}
    (h : findInsertPositionWithin (fun y => .ok (nominalICR y)) rounds NICR prevId nextId l =
      .ok position) :
    ∃ position', insertPositionWithin (fun y => .ok (nominalICR y)) rounds NICR prevId nextId l =
      .ok position' := by
  obtain ⟨valid, hvalid⟩ := exists_validInsertPosition nominalICR NICR prevId nextId l
  rw [insertPositionWithin, hvalid, ok_bind]
  cases valid with
  | true => exact ⟨_, rfl⟩
  | false => exact ⟨position, h⟩

/-! ## The gap without the trove -/

/-- A cut of a list is on one side of each of its elements. -/
theorem append_eq_middle {a b : List Address} (h : u ++ own :: v = a ++ b) :
    (∃ w, a = u ++ own :: w ∧ v = w ++ b) ∨ ∃ w, b = w ++ own :: v ∧ u = a ++ w := by
  rcases List.append_eq_append_iff.mp h with ⟨c, hc, hrest⟩ | ⟨c, hc, hrest⟩
  · cases c with
    | nil => exact .inr ⟨[], hrest.symm, by rw [hc, List.append_nil, List.append_nil]⟩
    | cons y c =>
      obtain ⟨rfl, rfl⟩ := List.cons.inj hrest
      exact .inl ⟨c, hc, rfl⟩
  · exact .inr ⟨c, hrest, hc⟩

theorem IsList.getLastD_ne (h : IsList l ids) (hown : own ∈ ids) {w : List Address} (hw : own ∉ w) :
    w.getLastD 0 ≠ own := by
  intro heq
  rcases w.eq_nil_or_concat' with rfl | ⟨w, y, rfl⟩
  · exact h.ne_zero hown heq.symm
  · rw [getLastD_append] at heq
    exact hw (heq ▸ by simp)

theorem IsList.headD_ne (h : IsList l ids) (hown : own ∈ ids) {w : List Address} (hw : own ∉ w) :
    w.headD 0 ≠ own := by
  intro heq
  cases w with
  | nil => exact h.ne_zero hown heq.symm
  | cons y w => exact hw (heq ▸ by simp)

/-- Next to the trove that goes, the gap grows over it; elsewhere it stays. -/
theorem IsList.gap_jumpOver (h : IsList l (u ++ own :: v))
    (hsorted : (u ++ own :: v).Pairwise fun a b => nominalICR b ≤ nominalICR a)
    {ends : Address × Address}
    (hgap : Gap (fun y => .ok (nominalICR y)) NICR (u ++ own :: v) ends.1 ends.2) :
    Gap (fun y => .ok (nominalICR y)) NICR (u ++ v)
      (LibEthers.jumpOver (some own) ends l).1 (LibEthers.jumpOver (some own) ends l).2 := by
  obtain ⟨a, b, hsplit, hp, hn, hprev, hnext⟩ := hgap
  have hmem : own ∈ u ++ own :: v := by simp
  have hown := h.ne_zero hmem
  have hnodup := h.nodup
  rw [List.nodup_append, List.nodup_cons] at hnodup
  obtain ⟨-, ⟨hownv, -⟩, hdisjoint⟩ := hnodup
  have hownu : own ∉ u := fun hmem => hdisjoint own hmem own (by simp) rfl
  obtain ⟨hgetPrev, hgetNext⟩ := h.linked.middle
  have hsortedv := (List.pairwise_cons.mp (List.pairwise_append.mp hsorted).2.1).1
  have hsortedu := (List.pairwise_append.mp hsorted).2.2
  unfold LibEthers.jumpOver
  dsimp only
  rcases append_eq_middle hsplit with ⟨w, rfl, rfl⟩ | ⟨w, rfl, rfl⟩
  · rcases w.eq_nil_or_concat' with rfl | ⟨w, z, rfl⟩
    · -- the trove is the upper end
      have hpown : ends.1 = own := by rw [hp, getLastD_append]; rfl
      rw [if_pos hpown, hpown]
      refine ⟨u, b, rfl, hgetPrev, hn, ?_, hnext⟩
      show l.getPrev own ≠ 0 → ∃ r, Except.ok (nominalICR (l.getPrev own)) = .ok r ∧ NICR ≤ r
      rw [show l.getPrev own = u.getLastD 0 from hgetPrev]
      intro hne
      rcases u.eq_nil_or_concat' with rfl | ⟨w, z, rfl⟩
      · exact absurd rfl hne
      · rw [hpown] at hprev
        obtain ⟨r, hr, hle⟩ := hprev hown
        cases hr
        have hz : (w ++ [z]).getLastD 0 = z := by rw [getLastD_append]; rfl
        rw [hz]
        exact ⟨_, rfl, Nat.le_trans hle (hsortedu z (by simp) own (by simp))⟩
    · have hz : ∀ w' : List Address, (w' ++ (w ++ [z])).getLastD 0 = z := by
        intro w'
        rw [← List.append_assoc, getLastD_append]
        rfl
      have hpz : ends.1 = z := by
        rw [hp, ← List.singleton_append, ← List.append_assoc]
        exact hz (u ++ [own])
      have hprevne : ends.1 ≠ own := by
        rw [hpz]
        rintro rfl
        exact hownv (by simp)
      have hnextne : ends.2 ≠ own := hn ▸ h.headD_ne hmem fun hmem => hownv (by simp [hmem])
      rw [if_neg hprevne, if_neg hnextne]
      refine ⟨u ++ (w ++ [z]), b, by simp, ?_, hn, hprev, hnext⟩
      rw [hpz, hz]
  · have hprevne : ends.1 ≠ own := hp ▸ h.getLastD_ne hmem fun hmem => hownu (by simp [hmem])
    rw [if_neg hprevne]
    cases w with
    | nil =>
      -- the trove is the lower end
      have hnown : ends.2 = own := hn
      rw [if_pos hnown, hnown]
      refine ⟨a, v, by simp, hp, hgetNext, hprev, ?_⟩
      show l.getNext own ≠ 0 → ∃ r, Except.ok (nominalICR (l.getNext own)) = .ok r ∧ r ≤ NICR
      rw [show l.getNext own = v.headD 0 from hgetNext]
      intro hne
      cases v with
      | nil => exact absurd rfl hne
      | cons y v =>
        rw [hnown] at hnext
        obtain ⟨r, hr, hle⟩ := hnext hown
        cases hr
        exact ⟨_, rfl, Nat.le_trans (hsortedv y (by simp)) hle⟩
    | cons y w =>
      have hnextne : ends.2 ≠ own := by
        rw [hn]
        intro heq
        have heq : y = own := heq
        exact hownu (by simp [heq])
      rw [if_neg hnextne]
      exact ⟨a, y :: w ++ v, by simp, hp, hn, hprev, hnext⟩

/-! ## The hints -/

/-- Where the reinsertion starts from, whichever end of the gap is missing. -/
structure Usable (nominalICR : Address → Nat) (NICR : Nat) (ends : Address × Address)
    (l : SortedTroves) : Prop where
  inside : ends.1 ≠ 0 → ends.2 ≠ 0 →
    LibEthers.replaceZero ends = ends ∧
      validInsertPosition (fun y => .ok (nominalICR y)) NICR ends.1 ends.2 l = .ok true
  beforeHead : ends.1 = 0 → ends.2 ≠ 0 →
    LibEthers.replaceZero ends = (ends.2, ends.2) ∧ ends.2 = l.head ∧
      findInsertPositionWithin (fun y => .ok (nominalICR y)) 1 NICR ends.2 ends.2 l = .ok (0, l.head)
  afterTail : ends.1 ≠ 0 → ends.2 = 0 →
    LibEthers.replaceZero ends = (ends.1, ends.1) ∧ ends.1 = l.tail ∧
      (findInsertPositionWithin (fun y => .ok (nominalICR y)) 1 NICR ends.1 ends.1 l =
          .ok (l.tail, 0) ∨
        findInsertPositionWithin (fun y => .ok (nominalICR y)) 1 NICR ends.1 ends.1 l =
          .ok (0, l.head))
  empty : ends.1 = 0 → ends.2 = 0 → LibEthers.replaceZero ends = (0, 0) ∧ l.isEmpty = true

theorem IsList.usable_of_gap (h : IsList l ids) {ends : Address × Address}
    (hgap : Gap (fun y => .ok (nominalICR y)) NICR ids ends.1 ends.2) :
    Usable nominalICR NICR ends l := by
  have hvalid := h.valid_of_gap hgap
  obtain ⟨a, b, rfl, hp, hn, hprev, hnext⟩ := hgap
  have ha : ends.1 = 0 → a = [] := by
    intro hzero
    rcases a.eq_nil_or_concat' with rfl | ⟨w, z, rfl⟩
    · rfl
    · rw [hp, getLastD_append] at hzero
      exact absurd hzero (h.ne_zero (by simp))
  have hb : ends.2 = 0 → b = [] := by
    intro hzero
    cases b with
    | nil => rfl
    | cons y b => exact absurd (hn.symm.trans hzero) (h.ne_zero (by simp))
  refine ⟨fun h1 h2 => ⟨?_, hvalid⟩, fun h1 h2 => ?_, fun h1 h2 => ?_, fun h1 h2 => ?_⟩
  · rw [LibEthers.replaceZero, if_neg h1, if_neg h2]
  · obtain rfl := ha h1
    obtain ⟨r, hr, hle⟩ := hnext h2
    cases hr
    have hhead : l.head = ends.2 := h.head_eq.trans hn.symm
    refine ⟨by rw [LibEthers.replaceZero, if_pos h1], hhead.symm, ?_⟩
    cases b with
    | nil => exact absurd hn h2
    | cons y b =>
      have hy : ends.2 = y := hn
      rw [hhead, hy]
      rw [hy] at hle
      exact h.find_before_head hle
  · obtain rfl := hb h2
    rw [List.append_nil] at h
    obtain ⟨r, hr, hle⟩ := hprev h1
    cases hr
    have htail : l.tail = ends.1 := h.tail_eq.trans hp.symm
    refine ⟨by rw [LibEthers.replaceZero, if_neg h1, if_pos h2], htail.symm, ?_⟩
    rcases a.eq_nil_or_concat' with rfl | ⟨w, z, rfl⟩
    · exact absurd hp h1
    · have hz : ends.1 = z := by rw [hp, getLastD_append]; rfl
      rw [htail, hz]
      rw [hz] at hle
      rcases h.find_after_tail hle with hfind | ⟨hhead, hfind⟩
      · exact .inl hfind
      · rw [hhead]
        exact .inr hfind
  · obtain rfl := ha h1
    obtain rfl := hb h2
    exact ⟨by rw [LibEthers.replaceZero, if_pos h1, h2], h.isEmpty_iff.mpr rfl⟩

/-- From usable hints no step along the list is made. -/
theorem Usable.insertPosition_within {ends : Address × Address}
    (h : Usable nominalICR NICR ends l) :
    ∃ position, insertPositionWithin (fun y => .ok (nominalICR y)) 1 NICR
      (LibEthers.replaceZero ends).1 (LibEthers.replaceZero ends).2 l = .ok position := by
  by_cases h1 : ends.1 = 0
  · by_cases h2 : ends.2 = 0
    · obtain ⟨hreplace, hempty⟩ := h.empty h1 h2
      have hvalid : validInsertPosition (fun y => .ok (nominalICR y)) NICR 0 0 l = .ok true := by
        rw [validInsertPosition, if_pos ⟨rfl, rfl⟩, hempty]
      rw [hreplace, insertPositionWithin, hvalid]
      exact ⟨_, rfl⟩
    · obtain ⟨hreplace, -, hfind⟩ := h.beforeHead h1 h2
      rw [hreplace]
      exact insertPositionWithin_of_find hfind
  · by_cases h2 : ends.2 = 0
    · obtain ⟨hreplace, -, hfind | hfind⟩ := h.afterTail h1 h2
      · rw [hreplace]
        exact insertPositionWithin_of_find hfind
      · rw [hreplace]
        exact insertPositionWithin_of_find hfind
    · obtain ⟨hreplace, hvalid⟩ := h.inside h1 h2
      rw [hreplace, insertPositionWithin, hvalid]
      exact ⟨_, rfl⟩

end SortedTroves

/-! ## The hints are found -/

namespace LibEthers

open LibBase HintHelpers SafeMath

variable {keccak : Nat → Nat} {nominalICR : Address → Nat} {troveOwners : List Address}

theorem exists_getAbsoluteDifference (a b : Nat) : ∃ diff, getAbsoluteDifference a b = .ok diff := by
  unfold getAbsoluteDifference
  split
  next hle => exact ⟨_, sub_ok.mpr ⟨hle, rfl⟩⟩
  next hlt => exact ⟨_, sub_ok.mpr ⟨by omega, rfl⟩⟩

theorem exists_approxHintLoop (hne : troveOwners ≠ []) (CR rounds : Nat) (hint : ApproxHint) :
    ∃ hint', approxHintLoop keccak (fun x => .ok (nominalICR x)) troveOwners CR rounds hint =
      .ok hint' := by
  induction rounds generalizing hint with
  | zero => exact ⟨hint, rfl⟩
  | succ rounds ih =>
    have hlt := Nat.mod_lt (keccak hint.latestRandomSeed) (List.length_pos_iff.mpr hne)
    obtain ⟨owner, howner⟩ : ∃ owner, getTroveFromTroveOwnersArray troveOwners
        (keccak hint.latestRandomSeed % troveOwners.length) = .ok owner := by
      rw [getTroveFromTroveOwnersArray, List.getElem?_eq_getElem hlt]
      exact ⟨_, rfl⟩
    obtain ⟨diff, hdiff⟩ := exists_getAbsoluteDifference (nominalICR owner) CR
    unfold approxHintLoop
    dsimp only
    rw [howner, ok_bind, ok_bind, hdiff, ok_bind]
    exact ih _

theorem exists_getApproxHint (CR numTrials seed : Nat) (l : SortedTroves) :
    ∃ hint, getApproxHint keccak (fun x => .ok (nominalICR x)) troveOwners CR numTrials seed l =
      .ok hint := by
  unfold getApproxHint
  dsimp only
  split
  next => exact ⟨_, rfl⟩
  next hlength =>
    obtain ⟨diff, hdiff⟩ := exists_getAbsoluteDifference CR (nominalICR l.getLast)
    rw [ok_bind, hdiff, ok_bind]
    exact exists_approxHintLoop (fun hnil => hlength (by rw [hnil]; rfl)) _ _ _

/-- Every trial adds a result. -/
theorem exists_collectApproxHint (NICR : Decimal) (l : SortedTroves) (trials : List Nat)
    (collected : CollectedHints) : ∃ collected',
    trials.foldlM (collectApproxHint keccak (fun x => .ok (nominalICR x)) troveOwners NICR l) collected =
        .ok collected' ∧
      collected'.results.length = collected.results.length + trials.length := by
  induction trials generalizing collected with
  | nil => exact ⟨collected, rfl, rfl⟩
  | cons numberOfTrials trials ih =>
    obtain ⟨hint, hhint⟩ := @exists_getApproxHint keccak nominalICR troveOwners NICR.bigNumber
      numberOfTrials collected.latestRandomSeed l
    obtain ⟨collected', hfold, hlength⟩ :=
      ih ⟨hint.latestRandomSeed, collected.results ++ [hint]⟩
    refine ⟨collected', ?_, ?_⟩
    · rw [List.foldlM_cons, collectApproxHint, hhint, ok_bind]
      exact hfold
    · rw [hlength, List.length_append, List.length_cons, List.length_cons, List.length_nil]
      omega

theorem exists_closest (results : List ApproxHint) (h : 0 < results.length) :
    ∃ hint, closest results = .ok hint := by
  cases results with
  | nil => cases h
  | cons result results => exact ⟨_, rfl⟩

theorem trialsFor_pos {numberOfTroves : Nat} (h : 0 < numberOfTroves) : 0 < trialsFor numberOfTroves := by
  unfold trialsFor
  dsimp only
  split
  next hroot =>
    apply Nat.pos_of_ne_zero
    intro hzero
    rw [hzero] at hroot
    omega
  next => exact Nat.succ_pos _

/-- Some approximate hint is found, and the list is searched from it. -/
theorem findHintEnds_ok (hne : troveOwners ≠ []) (randomInteger : Nat) (NICR : Decimal)
    (own : Option Address) (l : SortedTroves) : ∃ hintAddress,
    findHintEnds keccak (fun x => .ok (nominalICR x)) troveOwners randomInteger NICR own l = do
      let ends ← SortedTroves.findInsertPosition (fun x => .ok (nominalICR x)) NICR.bigNumber
        hintAddress hintAddress l
      return jumpOver own ends l := by
  have htotal := trialsFor_pos (List.length_pos_iff.mpr hne)
  obtain ⟨collected, hcollected, hlength⟩ := @exists_collectApproxHint keccak nominalICR
    troveOwners NICR l
    (generateTrialsLoop (trialsFor troveOwners.length) (trialsFor troveOwners.length))
    ⟨randomInteger, []⟩
  have hpos : 0 < collected.results.length := by
    obtain ⟨more, hmore⟩ := Nat.exists_eq_add_of_le' htotal
    rw [hlength, hmore, generateTrialsLoop, if_neg (Nat.succ_ne_zero more), List.length_cons]
    omega
  obtain ⟨hint, hhint⟩ := exists_closest collected.results hpos
  refine ⟨hint.hintAddress, ?_⟩
  have htrials : generateTrials (trialsFor troveOwners.length) =
      .ok (generateTrialsLoop (trialsFor troveOwners.length) (trialsFor troveOwners.length)) := by
    rw [generateTrials, assertThat, if_pos htotal]
    rfl
  rw [findHintEnds, htrials, ok_bind, hcollected, ok_bind, hhint, ok_bind]

/-- The hints for the reinsertion of a trove need no walk along the list that it has left. -/
theorem findHints_usable {l : SortedTroves} {ids : List Address} (h : SortedTroves.IsList l ids)
    (hsorted : ids.Pairwise fun a b => nominalICR b ≤ nominalICR a)
    (howners : troveOwners.length = l.getSize) {own : Address} (hown : own ∈ ids) {NICR : Decimal}
    (hfinite : ¬ NICR.infinite) (keccak : Nat → Nat) (randomInteger : Nat) :
    ∃ ends l',
      findHintEnds keccak (fun x => .ok (nominalICR x)) troveOwners randomInteger NICR (some own) l =
        .ok ends ∧
      findHintsForNominalCollateralRatio keccak (fun x => .ok (nominalICR x)) troveOwners randomInteger
        NICR (some own) l = .ok (replaceZero ends) ∧
      SortedTroves.removeInternal own l = .ok l' ∧
      SortedTroves.Usable nominalICR NICR.bigNumber ends l' ∧
      ∃ position, SortedTroves.insertPositionWithin (fun x => .ok (nominalICR x)) 1 NICR.bigNumber
        (replaceZero ends).1 (replaceZero ends).2 l' = .ok position := by
  have hsize : l.getSize ≠ 0 := by
    rw [SortedTroves.getSize, h.size_eq]
    exact Nat.pos_iff_ne_zero.mp (List.length_pos_of_mem hown)
  have hne : troveOwners ≠ [] := by
    rintro rfl
    exact hsize howners.symm
  obtain ⟨hintAddress, hends⟩ := @findHintEnds_ok keccak nominalICR _ hne randomInteger NICR
    (some own) l
  obtain ⟨found, hfound⟩ : ∃ found, SortedTroves.findInsertPosition (fun x => .ok (nominalICR x))
      NICR.bigNumber hintAddress hintAddress l = .ok found :=
    (h.terminates_findInsertPosition (fun _ => terminates_ok _) hintAddress
      hintAddress).exists_ok SortedTroves.avoids_findInsertPosition
  rw [hfound, ok_bind] at hends
  obtain ⟨l', hremoved⟩ : ∃ l', SortedTroves.removeInternal own l = .ok l' := by
    have hpos : 1 ≤ (SortedTroves.unlink own l).size := by
      rw [SortedTroves.unlink_size]
      exact Nat.pos_of_ne_zero hsize
    simp only [SortedTroves.removeInternal, bind_ok, require_ok, pure_ok, sub_ok]
    exact ⟨_, (), h.present own hown, _, ⟨hpos, rfl⟩, rfl⟩
  obtain ⟨u, v, rfl, h'⟩ := h.removeInternal hremoved
  have husable := h'.usable_of_gap (h.gap_jumpOver hsorted (h.gap_of_findInsertPosition hfound))
  refine ⟨_, l', hends, ?_, hremoved, husable, husable.insertPosition_within⟩
  have hcount : troveOwners.length ≠ 0 := howners ▸ hsize
  rw [findHintsForNominalCollateralRatio, if_neg hcount, if_neg hfinite, hends]
  rfl

/-- A trove that moves up past the only other one. -/
theorem sampleHints_usable : ∃ l, SortedTroves.ReachableList sampleDeployment l ∧ l.toList = [7, 5] ∧
    ∃ ends l',
      findHintsForNominalCollateralRatio id (fun x => .ok (if x = 7 then 20 else 10)) [5, 7] 0 ⟨30⟩
        (some 5) l = .ok (replaceZero ends) ∧
      SortedTroves.removeInternal 5 l = .ok l' ∧
      SortedTroves.Usable (fun x => if x = 7 then 20 else 10) 30 ends l' := by
  obtain ⟨l, h, hlist⟩ := SortedTroves.exists_twoInserts
  obtain ⟨ids, hids⟩ := h.isList
  have hids' : ids = [7, 5] := hids.toList_eq.symm.trans hlist
  subst hids'
  obtain ⟨ends, l', -, hfind, hremoved, husable, -⟩ :=
    @findHints_usable (fun x => if x = 7 then 20 else 10) [5, 7] _ _ hids (by decide)
      hids.size_eq.symm 5 (by decide) ⟨30⟩ (by decide) id 0
  exact ⟨l, h, hlist, ends, l', hfind, hremoved, husable⟩

end LibEthers

end Liquity
