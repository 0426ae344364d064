import Mathlib.Algebra.Order.Ring.Nat
import Mathlib.Data.List.DropRight
import Mathlib.Tactic.Common
import Mathlib.Tactic.Ring

/-!
# Strings of decimal digits

The number that a list of digits denotes, the first digits of a fraction, and division by powers of
ten as the removal of digits.
-/

namespace Lib

/-- The number that a list of decimal digits denotes. -/
def digitsValue (cs : List Char) : Nat := Nat.ofDigitChars 10 cs 0

def AllDigits (cs : List Char) : Prop := ∀ c ∈ cs, c.isDigit = true

instance (cs : List Char) : Decidable (AllDigits cs) :=
  List.decidableBAll (fun c : Char => c.isDigit = true) cs

@[simp]
theorem digitsValue_nil : digitsValue [] = 0 := rfl

theorem digitsValue_append (xs ys : List Char) :
    digitsValue (xs ++ ys) = digitsValue xs * 10 ^ ys.length + digitsValue ys := by
  rw [digitsValue, Nat.ofDigitChars_append, Nat.ofDigitChars_eq_ofDigitChars_zero, Nat.mul_comm]
  rfl

theorem digitsValue_singleton (c : Char) : digitsValue [c] = c.toNat - '0'.toNat := by
  rw [digitsValue, Nat.ofDigitChars_cons, Nat.ofDigitChars_nil]
  omega

theorem digitsValue_cons (c : Char) (cs : List Char) :
    digitsValue (c :: cs) = (c.toNat - '0'.toNat) * 10 ^ cs.length + digitsValue cs := by
  rw [← List.singleton_append, digitsValue_append, digitsValue_singleton]

theorem digitsValue_replicate (n : Nat) : digitsValue (List.replicate n '0') = 0 := by
  rw [digitsValue, Nat.ofDigitChars_replicate_zero, Nat.mul_zero]

theorem digitsValue_toDigits (n : Nat) : digitsValue (Nat.toDigits 10 n) = n :=
  Nat.ofDigitChars_ten_toDigits

theorem toNat_of_isDigit {c : Char} (h : c.isDigit = true) : 48 ≤ c.toNat ∧ c.toNat ≤ 57 := by
  simp only [Char.isDigit, Bool.and_eq_true, decide_eq_true_eq] at h
  exact ⟨h.1, h.2⟩

theorem AllDigits.append {xs ys : List Char} (hxs : AllDigits xs) (hys : AllDigits ys) :
    AllDigits (xs ++ ys) := by
  intro c hc
  rcases List.mem_append.mp hc with hc | hc
  · exact hxs c hc
  · exact hys c hc

theorem AllDigits.of_subset {xs ys : List Char} (h : AllDigits ys) (hsub : xs ⊆ ys) : AllDigits xs :=
  fun c hc => h c (hsub hc)

theorem AllDigits.not_mem {cs : List Char} (h : AllDigits cs) {c : Char} (hc : c.isDigit = false) :
    c ∉ cs := by
  intro hmem
  rw [h c hmem] at hc
  cases hc

theorem allDigits_replicate (n : Nat) : AllDigits (List.replicate n '0') := by
  intro c hc
  rw [List.eq_of_mem_replicate hc]
  rfl

theorem allDigits_toDigits (n : Nat) : AllDigits (Nat.toDigits 10 n) :=
  fun _ hc => Nat.isDigit_of_mem_toDigits (by decide) (by decide) hc

theorem digitsValue_lt {cs : List Char} (h : AllDigits cs) : digitsValue cs < 10 ^ cs.length := by
  induction cs with
  | nil => exact Nat.one_pos
  | cons c cs ih =>
    have htail := ih (h.of_subset (List.subset_cons_self c cs))
    have hc := (toNat_of_isDigit (h c List.mem_cons_self)).2
    have hc : c.toNat - '0'.toNat ≤ 9 := by
      show c.toNat - 48 ≤ 9
      omega
    have hhead := Nat.mul_le_mul_right (10 ^ cs.length) hc
    rw [digitsValue_cons, List.length_cons, Nat.pow_succ]
    omega

theorem digitsValue_eq_zero_iff {cs : List Char} (h : AllDigits cs) :
    digitsValue cs = 0 ↔ ∀ c ∈ cs, c = '0' := by
  constructor
  · intro hzero
    induction cs with
    | nil =>
      intro c hc
      cases hc
    | cons c cs ih =>
      rw [digitsValue_cons, Nat.add_eq_zero_iff, Nat.mul_eq_zero] at hzero
      have hpos : 10 ^ cs.length ≠ 0 := (Nat.pow_pos (by decide)).ne'
      have hc := (toNat_of_isDigit (h c List.mem_cons_self)).1
      have hsub : c.toNat - 48 = 0 := hzero.1.resolve_right hpos
      have hhead : c = '0' := by
        apply Char.toNat_inj.mp
        show c.toNat = 48
        omega
      intro d hd
      rcases List.mem_cons.mp hd with rfl | hd
      · exact hhead
      · exact ih (h.of_subset (List.subset_cons_self c cs)) hzero.2 d hd
  · intro hall
    rw [List.eq_replicate_of_mem hall]
    exact digitsValue_replicate _

/-- The first `n` digits of a fraction, which goes on with zeros. -/
def firstDigits (n : Nat) (fraction : List Char) : List Char :=
  fraction.take n ++ List.replicate (n - fraction.length) '0'

theorem length_firstDigits (n : Nat) (fraction : List Char) : (firstDigits n fraction).length = n := by
  rw [firstDigits, List.length_append, List.length_take, List.length_replicate]
  omega

theorem AllDigits.firstDigits {fraction : List Char} (h : AllDigits fraction) (n : Nat) :
    AllDigits (firstDigits n fraction) :=
  (h.of_subset (List.take_subset n fraction)).append (allDigits_replicate _)

theorem firstDigits_add (n k : Nat) (fraction : List Char) :
    firstDigits (n + k) fraction = firstDigits n fraction ++ firstDigits k (fraction.drop n) := by
  simp only [Lib.firstDigits, List.length_drop]
  rcases Nat.le_total fraction.length n with h | h
  · rw [List.take_of_length_le (by omega), List.take_of_length_le h, List.drop_of_length_le h,
      List.take_nil, List.nil_append, List.append_assoc, List.replicate_append_replicate]
    congr 2
    omega
  · rw [show n - fraction.length = 0 by omega, List.replicate_zero, List.append_nil,
      ← List.append_assoc, List.take_add]
    congr 2
    omega

/-- Scaling by a power of ten and dropping what stays behind the point keeps the first digits. -/
theorem digitsValue_scaled (integer : List Char) {fraction : List Char} (h : AllDigits fraction)
    (n : Nat) :
    digitsValue (integer ++ fraction) * 10 ^ n / 10 ^ fraction.length =
      digitsValue integer * 10 ^ n + digitsValue (firstDigits n fraction) := by
  have hpos : ∀ k : Nat, 0 < 10 ^ k := fun k => Nat.pow_pos (by decide)
  rw [firstDigits, digitsValue_append integer]
  rcases Nat.le_total fraction.length n with hlen | hlen
  · -- nothing stays behind the point
    obtain ⟨k, rfl⟩ := Nat.exists_eq_add_of_le hlen
    rw [List.take_of_length_le hlen, digitsValue_append, digitsValue_replicate,
      List.length_replicate, Nat.add_sub_cancel_left, Nat.add_zero]
    apply Nat.div_eq_of_eq_mul_left (hpos _)
    rw [Nat.pow_add]
    ring
  · obtain ⟨k, hk⟩ := Nat.exists_eq_add_of_le hlen
    have hsplit : digitsValue fraction =
        digitsValue (fraction.take n) * 10 ^ k + digitsValue (fraction.drop n) := by
      conv_lhs => rw [← List.take_append_drop n fraction]
      rw [digitsValue_append, List.length_drop, hk, Nat.add_sub_cancel_left]
    have hrest : digitsValue (fraction.drop n) < 10 ^ k := by
      have hlt := digitsValue_lt (h.of_subset (List.drop_subset n fraction))
      rwa [List.length_drop, hk, Nat.add_sub_cancel_left] at hlt
    rw [show n - fraction.length = 0 by omega, List.replicate_zero, List.append_nil, hsplit, hk,
      Nat.pow_add, Nat.mul_comm (10 ^ n) (10 ^ k), Nat.mul_div_mul_right _ _ (hpos n)]
    rw [show digitsValue integer * (10 ^ k * 10 ^ n) +
        (digitsValue (fraction.take n) * 10 ^ k + digitsValue (fraction.drop n)) =
      digitsValue (fraction.drop n) +
        (digitsValue integer * 10 ^ n + digitsValue (fraction.take n)) * 10 ^ k by ring,
      Nat.add_mul_div_right _ _ (hpos k), Nat.div_eq_of_lt hrest, Nat.zero_add]

/-- Trimming zeros from the end of a fraction and padding it again gives the fraction back. -/
theorem firstDigits_rdropWhile (fraction : List Char) :
    firstDigits fraction.length (fraction.rdropWhile (· = '0')) = fraction := by
  induction fraction using List.reverseRecOn with
  | nil => rfl
  | append_singleton xs c ih =>
    by_cases hc : c = '0'
    · subst hc
      rw [List.rdropWhile_concat_pos _ _ _ (by decide), List.length_append]
      show firstDigits (xs.length + 1) _ = _
      have hle : (xs.rdropWhile (· = '0')).length ≤ xs.length :=
        (List.rdropWhile_prefix _ _).length_le
      rw [firstDigits_add, ih, List.drop_of_length_le hle]
      rfl
    · rw [List.rdropWhile_concat_neg _ _ _ (by simpa using hc), firstDigits, Nat.sub_self,
        List.replicate_zero, List.append_nil, List.take_length]

end Lib
