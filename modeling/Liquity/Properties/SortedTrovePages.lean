import Liquity.Execution
import Liquity.MultiTroveGetter
import Liquity.SortedTroves.Calls
import Mathlib.Data.Fintype.Card

/-!
# Paging through the sorted troves

A page of `MultiTroveGetter` is a slice of the list, read from its head or from its tail, and consecutive
pages add up to the whole list.
-/

open Lib

namespace Liquity

namespace MultiTroveGetter

variable {t : TroveManager} {l : SortedTroves} {ids : List Address}
  {step back : Address → Address} {p : Address}

/-! ## Words -/

theorem toInt_cases (w : BitVec 256) :
    (2 * w.toNat < 2 ^ 256 ∧ w.toInt = w.toNat) ∨
      (2 ^ 256 ≤ 2 * w.toNat ∧ w.toInt = (w.toNat : ℤ) - 2 ^ 256) := by
  rw [BitVec.toInt_eq_toNat_cond]
  split
  next hlow => exact .inl ⟨hlow, rfl⟩
  next hhigh => exact .inr ⟨Nat.le_of_not_lt hhigh, rfl⟩

/-- Neither the increment nor the negation of a negative index wraps, not even for the smallest one. -/
theorem neg_add_one {startIdx : BitVec 256} (hneg : startIdx.toInt < 0) :
    (startIdx + 1).toInt = startIdx.toInt + 1 ∧ (-(startIdx + 1)).toInt = -(startIdx.toInt + 1) ∧
      ((-(startIdx + 1)).toNat : ℤ) = -(startIdx.toInt + 1) := by
  have hlt := startIdx.isLt
  have hincrement : (startIdx + 1).toNat = (startIdx.toNat + 1) % 2 ^ 256 := BitVec.toNat_add ..
  have hnegation : (-(startIdx + 1)).toNat = (2 ^ 256 - (startIdx + 1).toNat) % 2 ^ 256 :=
    BitVec.toNat_neg ..
  have h := toInt_cases startIdx
  have h' := toInt_cases (startIdx + 1)
  have h'' := toInt_cases (-(startIdx + 1))
  omega

theorem length_lt (h : SortedTroves.IsList l ids) : ids.length < 2 ^ 256 := by
  have hcard : Fintype.card Address = 2 ^ 160 := Fintype.card_fin _
  have hle := h.nodup.length_le_card
  omega

theorem size_toNat (h : SortedTroves.IsList l ids) :
    (BitVec.ofNat 256 l.getSize).toNat = ids.length := by
  rw [BitVec.toNat_ofNat, SortedTroves.getSize, h.size_eq]
  exact Nat.mod_eq_of_lt (length_lt h)

/-- Inside the list, the largest count does not wrap either. -/
theorem maxCount_toNat (h : SortedTroves.IsList l ids) {idx : BitVec 256} (hidx : idx.toNat ≤ ids.length) :
    (BitVec.ofNat 256 l.getSize - idx).toNat = ids.length - idx.toNat := by
  have hle : idx ≤ BitVec.ofNat 256 l.getSize := by
    rw [BitVec.le_def, size_toNat h]
    exact hidx
  rw [BitVec.toNat_sub_of_le hle, size_toNat h]

/-! ## Walking the list -/

theorem skip_eq (step : Address → Address) (n : Nat) (x : Address) : skip step n x = step^[n] x := by
  induction n generalizing x with
  | zero => rfl
  | succ n ih => exact ih (step x)

/-- A page that ends before the list does holds the troves in the order of the list. -/
theorem fill_eq (h : Linked step back p ids 0) {n : Nat} (hn : n ≤ ids.length) :
    fill t step n (ids.headD 0) = (ids.take n).map (combinedTroveData t) := by
  induction n generalizing p ids with
  | zero => rfl
  | succ n ih =>
    cases ids with
    | nil => simp at hn
    | cons x ids =>
      obtain ⟨-, hnext, hrest⟩ := h
      rw [List.headD_cons, fill, hnext, List.take_succ_cons, List.map_cons]
      rw [ih hrest (by simpa using hn)]

theorem getMultipleSortedTrovesFrom_eq (h : Linked step back 0 ids 0) {startIdx count : BitVec 256}
    (hfits : startIdx.toNat + count.toNat ≤ ids.length) :
    getMultipleSortedTrovesFrom t (ids.headD 0) step startIdx count =
      ((ids.drop startIdx.toNat).take count.toNat).map (combinedTroveData t) := by
  rw [getMultipleSortedTrovesFrom, skip_eq, h.iterate_next (by omega)]
  exact fill_eq (h.drop _) (by rw [List.length_drop]; omega)

/-- The list in the direction in which a page is read. -/
def inDirection (descend : Bool) (ids : List Address) : List Address :=
  if descend then ids else ids.reverse

theorem getMultipleSortedTroves_eq (h : SortedTroves.IsList l ids) (t : TroveManager)
    (startIdx count : BitVec 256) :
    getMultipleSortedTroves t l startIdx count =
      (((inDirection (decide (0 ≤ startIdx.toInt)) ids).drop (unsignedStartIdx startIdx).toNat).take
        count.toNat).map (combinedTroveData t) := by
  unfold getMultipleSortedTroves
  generalize decide (0 ≤ startIdx.toInt) = descend
  generalize unsignedStartIdx startIdx = idx
  have hlength : (inDirection descend ids).length = ids.length := by
    unfold inDirection
    split <;> simp
  dsimp only
  split
  next hpast =>
    rw [BitVec.le_def, size_toNat h] at hpast
    rw [List.drop_eq_nil_of_le (by omega), List.take_nil, List.map_nil]
  next hinside =>
    rw [BitVec.le_def, size_toNat h] at hinside
    have hmax := maxCount_toNat h (show idx.toNat ≤ ids.length by omega)
    generalize BitVec.ofNat 256 l.getSize - idx = maxCount at hmax
    have hclamped : (if maxCount < count then maxCount else count).toNat =
        min count.toNat ((inDirection descend ids).drop idx.toNat).length := by
      rw [List.length_drop, hlength, ← hmax]
      split
      next hlt => rw [BitVec.lt_def] at hlt; omega
      next hge => rw [BitVec.lt_def] at hge; omega
    rw [List.take_eq_take_min, ← hclamped]
    have hfits : idx.toNat + (if maxCount < count then maxCount else count).toNat ≤ ids.length := by
      rw [List.length_drop] at hclamped
      omega
    cases descend with
    | true =>
      rw [if_pos rfl, getMultipleSortedTrovesFromHead, SortedTroves.getFirst, h.head_eq]
      exact getMultipleSortedTrovesFrom_eq h.linked hfits
    | false =>
      have hlast : ids.getLastD 0 = ids.reverse.headD 0 := by simp
      rw [if_neg Bool.false_ne_true, getMultipleSortedTrovesFromTail, SortedTroves.getLast, h.tail_eq,
        hlast]
      exact getMultipleSortedTrovesFrom_eq h.linked.reverse (by rwa [List.length_reverse])

/-- The slice that a page holds. -/
theorem page_eq (h : SortedTroves.IsList l ids) (t : TroveManager) (startIdx count : BitVec 256) :
    getMultipleSortedTroves t l startIdx count =
      if 0 ≤ startIdx.toInt then
        ((ids.drop startIdx.toInt.toNat).take count.toNat).map (combinedTroveData t)
      else ((ids.reverse.drop (-startIdx.toInt - 1).toNat).take count.toNat).map
        (combinedTroveData t) := by
  rw [getMultipleSortedTroves_eq h]
  unfold unsignedStartIdx
  by_cases hnonneg : 0 ≤ startIdx.toInt
  · have hidx : startIdx.toNat = startIdx.toInt.toNat := by
      have := toInt_cases startIdx
      omega
    rw [decide_eq_true hnonneg, if_pos hnonneg, if_pos hnonneg, hidx]
    rfl
  · have hidx : (-(startIdx + 1)).toNat = (-startIdx.toInt - 1).toNat := by
      have := neg_add_one (Int.lt_of_not_ge hnonneg)
      omega
    rw [decide_eq_false hnonneg, if_neg hnonneg, if_neg hnonneg, hidx]
    rfl

/-! ## Consecutive pages -/

/-- Pages of the given sizes, one after another; `start k` is the start index after `k` troves. -/
def pages (t : TroveManager) (l : SortedTroves) (start : Nat → BitVec 256) :
    (offset : Nat) → (counts : List (BitVec 256)) → List CombinedTroveData
  | _, [] => []
  | offset, count :: counts =>
    getMultipleSortedTroves t l (start offset) count ++ pages t l start (offset + count.toNat) counts

def fromHead (offset : Nat) : BitVec 256 := BitVec.ofNat 256 offset

def fromTail (offset : Nat) : BitVec 256 := BitVec.ofInt 256 (-1 - offset)

theorem fromHead_toInt {offset : Nat} (h : offset < 2 ^ 255) : (fromHead offset).toInt = offset := by
  have hcases := toInt_cases (fromHead offset)
  have hnat : (fromHead offset).toNat = offset % 2 ^ 256 := BitVec.toNat_ofNat ..
  omega

theorem fromTail_toInt {offset : Nat} (h : offset < 2 ^ 255) :
    (fromTail offset).toInt = -1 - offset := by
  rw [fromTail, BitVec.toInt_ofInt]
  exact Int.bmod_eq_of_le (by omega) (by omega)

/-- Slices of a list that are taken one after another. -/
theorem pages_eq {start : Nat → BitVec 256} {offset : Nat} {counts : List (BitVec 256)}
    (hpage : ∀ k count, k < 2 ^ 255 → getMultipleSortedTroves t l (start k) count =
      ((ids.drop k).take count.toNat).map (combinedTroveData t))
    (hstarts : offset + (counts.dropLast.map BitVec.toNat).sum < 2 ^ 255) :
    pages t l start offset counts =
      ((ids.drop offset).take (counts.map BitVec.toNat).sum).map (combinedTroveData t) := by
  induction counts generalizing offset with
  | nil => rfl
  | cons count counts ih =>
    rw [pages, hpage offset count (by omega), List.map_cons, List.sum_cons, List.take_add,
      List.map_append, List.drop_drop]
    congr 1
    cases counts with
    | nil => rfl
    | cons next counts =>
      refine ih ?_
      rw [List.dropLast_cons_cons, List.map_cons, List.sum_cons] at hstarts
      omega

/-- Every page is a slice of the list, from its head or from its tail, the words that it is computed
with do not wrap, and consecutive pages add up to the whole list. -/
theorem getMultipleSortedTroves_pages (h : SortedTroves.IsList l ids) (t : TroveManager) :
    (∀ startIdx count, getMultipleSortedTroves t l startIdx count =
      if 0 ≤ startIdx.toInt then
        ((ids.drop startIdx.toInt.toNat).take count.toNat).map (combinedTroveData t)
      else ((ids.reverse.drop (-startIdx.toInt - 1).toNat).take count.toNat).map
        (combinedTroveData t)) ∧
    (∀ startIdx : BitVec 256, startIdx.toInt < 0 →
      (startIdx + 1).toInt = startIdx.toInt + 1 ∧ (-(startIdx + 1)).toInt = -(startIdx.toInt + 1) ∧
        ((-(startIdx + 1)).toNat : ℤ) = -(startIdx.toInt + 1)) ∧
    (∀ idx : BitVec 256, idx.toNat ≤ ids.length →
      (BitVec.ofNat 256 l.getSize - idx).toNat = ids.length - idx.toNat) ∧
    ∀ counts : List (BitVec 256), (counts.dropLast.map BitVec.toNat).sum < 2 ^ 255 →
      ids.length ≤ (counts.map BitVec.toNat).sum →
        pages t l fromHead 0 counts = ids.map (combinedTroveData t) ∧
        pages t l fromTail 0 counts = ids.reverse.map (combinedTroveData t) := by
  refine ⟨page_eq h t, fun _ => neg_add_one, fun _ => maxCount_toNat h, fun counts hstarts hall => ?_⟩
  have hhead : ∀ k count, k < 2 ^ 255 → getMultipleSortedTroves t l (fromHead k) count =
      ((ids.drop k).take count.toNat).map (combinedTroveData t) := by
    intro k count hk
    rw [page_eq h, fromHead_toInt hk, if_pos (by omega), Int.toNat_natCast]
  have htail : ∀ k count, k < 2 ^ 255 → getMultipleSortedTroves t l (fromTail k) count =
      ((ids.reverse.drop k).take count.toNat).map (combinedTroveData t) := by
    intro k count hk
    have hidx : (-(-1 - (k : ℤ)) - 1).toNat = k := by omega
    rw [page_eq h, fromTail_toInt hk, if_neg (by omega), hidx]
  rw [← Nat.zero_add (counts.dropLast.map BitVec.toNat).sum] at hstarts
  constructor
  · rw [pages_eq hhead hstarts, List.drop_zero, List.take_of_length_le hall]
  · rw [pages_eq htail hstarts, List.drop_zero, List.take_of_length_le (by rwa [List.length_reverse])]

/-- The last of two troves, asked for with the start index `-1`. -/
theorem twoInserts_pages : ∃ l, SortedTroves.ReachableList sampleDeployment l ∧ l.toList = [7, 5] ∧
    (getMultipleSortedTroves sampleInitial.troveManager l (-1) 3).map CombinedTroveData.owner = [5, 7] := by
  obtain ⟨l, hl, hlist⟩ := SortedTroves.exists_twoInserts
  obtain ⟨ids, h⟩ := hl.isList
  obtain rfl : ids = [7, 5] := h.toList_eq.symm.trans hlist
  refine ⟨l, hl, hlist, ?_⟩
  rw [(getMultipleSortedTroves_pages h sampleInitial.troveManager).1]
  rfl

end MultiTroveGetter

end Liquity
