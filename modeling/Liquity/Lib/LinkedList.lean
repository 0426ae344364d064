import Mathlib.Algebra.Order.Ring.Nat
import Mathlib.Data.List.Basic
import Mathlib.Data.List.Nodup
import Mathlib.Tactic.Common

/-!
# Doubly linked segments

`Linked next prev p l q` says that the nodes of `l` are chained by the pointer functions `next` and
`prev`, entered from `p` and left towards `q`.  A whole list is a segment between two null pointers.
Splicing a node in or out is splitting a segment at an append, rewriting the two pointers at the
cut, and framing the rest.
-/

namespace Lib

variable {α : Type} {next prev next' prev' : α → α} {p q x y : α} {l u v : List α}

def Linked (next prev : α → α) : α → List α → α → Prop
  | _, [], _ => True
  | p, x :: xs, q => prev x = p ∧ next x = xs.headD q ∧ Linked next prev x xs q

@[simp] theorem linked_nil : Linked next prev p [] q := trivial

@[simp] theorem linked_cons :
    Linked next prev p (x :: l) q ↔ prev x = p ∧ next x = l.headD q ∧ Linked next prev x l q :=
  Iff.rfl

theorem headD_append (u v : List α) (q : α) : (u ++ v).headD q = u.headD (v.headD q) := by
  cases u <;> rfl

theorem getLastD_append (u v : List α) (p : α) : (u ++ v).getLastD p = v.getLastD (u.getLastD p) := by
  induction u generalizing p with
  | nil => rfl
  | cons x u ih => rw [List.cons_append, List.getLastD_cons, List.getLastD_cons, ih x]

/-- Segments compose at an append. -/
theorem linked_append :
    Linked next prev p (u ++ v) q ↔
      Linked next prev p u (v.headD q) ∧ Linked next prev (u.getLastD p) v q := by
  induction u generalizing p with
  | nil => simp
  | cons x u ih =>
    simp only [List.cons_append, linked_cons, headD_append, ih, List.getLastD_cons, and_assoc]

/-- The last node of a segment points to where the segment is left. -/
theorem linked_concat :
    Linked next prev p (u ++ [y]) q ↔
      Linked next prev p u y ∧ prev y = u.getLastD p ∧ next y = q := by
  simp [linked_append]

/-- Only the pointers of the segment's own nodes matter. -/
theorem Linked.congr (h : Linked next prev p l q)
    (hl : ∀ x ∈ l, next' x = next x ∧ prev' x = prev x) : Linked next' prev' p l q := by
  induction l generalizing p with
  | nil => trivial
  | cons x l ih =>
    obtain ⟨hprev, hnext, hrest⟩ := h
    have hx := hl x (by simp)
    exact ⟨hx.2.trans hprev, hx.1.trans hnext, ih hrest fun y hy => hl y (by simp [hy])⟩

/-- The pointers of the node in the middle of a segment. -/
theorem Linked.middle (h : Linked next prev p (u ++ x :: v) q) :
    prev x = u.getLastD p ∧ next x = v.headD q := by
  obtain ⟨-, hx⟩ := linked_append.mp h
  exact ⟨hx.1, hx.2.1⟩

/-- Between two null pointers, `prev` is the inverse of `next`. -/
theorem Linked.next_eq_iff {null : α} (h : Linked next prev null l null) (hnull : null ∉ l)
    (hx : x ∈ l) (hy : y ∈ l) : next x = y ↔ prev y = x := by
  have hx0 : x ≠ null := fun hx' => hnull (hx' ▸ hx)
  have hy0 : y ≠ null := fun hy' => hnull (hy' ▸ hy)
  constructor
  · intro hnext
    obtain ⟨u, v, rfl⟩ := List.append_of_mem hx
    rw [h.middle.2] at hnext
    cases v with
    | nil => exact absurd hnext.symm hy0
    | cons z v =>
      obtain rfl : z = y := hnext
      obtain ⟨-, -, -, hprev, -⟩ := linked_append.mp h
      exact hprev
  · intro hprev
    obtain ⟨u, v, rfl⟩ := List.append_of_mem hy
    rw [h.middle.1] at hprev
    rcases u.eq_nil_or_concat' with rfl | ⟨w, z, rfl⟩
    · exact absurd hprev.symm hx0
    · have hlast : (w ++ [z]).getLastD null = z := by rw [getLastD_append]; rfl
      obtain rfl : z = x := hlast.symm.trans hprev
      rw [List.append_assoc] at h
      exact h.middle.2

/-! ## Cutting and splicing -/

/-- Redirecting the last node of a segment. -/
theorem Linked.relink_end [DecidableEq α] {q' : α} (h : Linked next prev p u q) (hu : u.Nodup)
    (hnext : ∀ x ∈ u, next' x = if x = u.getLastD p then q' else next x)
    (hprev : ∀ x ∈ u, prev' x = prev x) : Linked next' prev' p u q' := by
  rcases u.eq_nil_or_concat' with rfl | ⟨w, y, rfl⟩
  · trivial
  · have hlast : (w ++ [y]).getLastD p = y := by rw [getLastD_append]; rfl
    rw [hlast] at hnext
    obtain ⟨hw, hprevy, -⟩ := linked_concat.mp h
    have hy : y ∉ w := fun hmem => (List.nodup_append.mp hu).2.2 y hmem y (by simp) rfl
    refine linked_concat.mpr ⟨hw.congr fun x hx => ⟨?_, hprev x (by simp [hx])⟩, ?_, ?_⟩
    · rw [hnext x (by simp [hx]), if_neg (fun hxy : x = y => hy (hxy ▸ hx))]
    · rw [hprev y (by simp), hprevy]
    · rw [hnext y (by simp), if_pos rfl]

/-- Redirecting the first node of a segment. -/
theorem Linked.relink_start [DecidableEq α] {p' : α} (h : Linked next prev p v q) (hv : v.Nodup)
    (hnext : ∀ x ∈ v, next' x = next x)
    (hprev : ∀ x ∈ v, prev' x = if x = v.headD q then p' else prev x) :
    Linked next' prev' p' v q := by
  cases v with
  | nil => trivial
  | cons y w =>
    obtain ⟨-, hnexty, hw⟩ := h
    have hy : y ∉ w := (List.nodup_cons.mp hv).1
    rw [List.headD_cons] at hprev
    refine ⟨?_, ?_, hw.congr fun x hx => ⟨hnext x (by simp [hx]), ?_⟩⟩
    · rw [hprev y (by simp), if_pos rfl]
    · rw [hnext y (by simp), hnexty]
    · rw [hprev x (by simp [hx]), if_neg (fun hxy : x = y => hy (hxy ▸ hx))]

/-! ## Following the `next` pointers -/

/-- A segment read backwards. -/
theorem Linked.reverse (h : Linked next prev p l q) : Linked prev next q l.reverse p := by
  induction l generalizing p with
  | nil => trivial
  | cons x l ih =>
    obtain ⟨hprev, hnext, hrest⟩ := h
    rw [List.reverse_cons]
    refine linked_concat.mpr ⟨ih hrest, ?_, hprev⟩
    rw [hnext]
    cases l with
    | nil => rfl
    | cons y l => rw [List.reverse_cons, getLastD_append, List.headD_cons, List.getLastD_cons,
        List.getLastD_nil]

/-- `n` steps from the entry of a segment. -/
theorem Linked.iterate_next (h : Linked next prev p l q) {n : Nat} (hn : n ≤ l.length) :
    next^[n] (l.headD q) = (l.drop n).headD q := by
  induction n generalizing p l with
  | zero => rfl
  | succ n ih =>
    cases l with
    | nil => simp at hn
    | cons x l =>
      obtain ⟨-, hnext, hrest⟩ := h
      rw [List.headD_cons, Function.iterate_succ_apply, hnext, List.drop_succ_cons]
      exact ih hrest (by simpa using hn)

/-- A segment without its first `n` nodes. -/
theorem Linked.drop (h : Linked next prev p l q) (n : Nat) :
    Linked next prev ((l.take n).getLastD p) (l.drop n) q := by
  rw [← List.take_append_drop n l] at h
  exact (linked_append.mp h).2

/-- The nodes visited by following `next` for at most `n` steps, stopping at `null`. -/
def follow [DecidableEq α] (next : α → α) (null : α) : (n : Nat) → (x : α) → List α
  | 0, _ => []
  | n + 1, x => if x = null then [] else x :: follow next null n (next x)

/-- Following a segment that ends in `null` visits exactly its nodes, in order. -/
theorem Linked.follow_eq [DecidableEq α] {null : α} (h : Linked next prev p l null)
    (hnull : null ∉ l) {n : Nat} (hn : l.length ≤ n) : follow next null n (l.headD null) = l := by
  induction l generalizing p n with
  | nil => cases n <;> simp [follow]
  | cons x l ih =>
    obtain ⟨n, rfl⟩ : ∃ m, n = m + 1 := ⟨n - 1, by simp at hn; omega⟩
    have hx : x ≠ null := fun hx => hnull (by simp [hx])
    obtain ⟨-, hnext, hrest⟩ := h
    simp only [List.headD_cons, follow, if_neg hx, hnext]
    rw [ih hrest (fun hm => hnull (by simp [hm])) (by simpa using hn)]

end Lib
