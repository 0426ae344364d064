import Liquity.Lib.DecimalDigits
import Liquity.LibBase.DecimalStrings
import Mathlib.Algebra.Order.Floor.Semifield
import Mathlib.Data.Rat.Floor
import Mathlib.Tactic.FieldSimp

/-!
# Decimals and the strings that denote them

The strings that the parser accepts are the numerals of the format with a coefficient that is not
empty.  Digits are lost exactly when a positive exponent would move some of them before the 18th
place.
-/

open Lib

namespace Liquity.LibBase

inductive ExponentSign where
  | unsigned
  | plus
  | minus
  deriving DecidableEq

def ExponentSign.text : ExponentSign → List Char
  | .unsigned => []
  | .plus => ['+']
  | .minus => ['-']

def fractionText : Option (List Char) → List Char
  | none => []
  | some digits => '.' :: digits

def exponentText : Option (ExponentSign × List Char) → List Char
  | none => []
  | some (sign, digits) => 'e' :: (sign.text ++ digits)

/-- A number in positional notation: an integer part, a fraction and an exponent, of which the first
two are not both missing. -/
structure Numeral where
  integer : List Char
  fraction : Option (List Char)
  exponent : Option (ExponentSign × List Char)
  integer_digits : AllDigits integer
  fraction_digits : AllDigits (fraction.getD [])
  exponent_digits : ∀ e ∈ exponent, e.2 ≠ [] ∧ AllDigits e.2
  nonempty : integer ++ fractionText fraction ≠ []

namespace Numeral

def toString (n : Numeral) : String :=
  String.ofList (n.integer ++ fractionText n.fraction ++ exponentText n.exponent)

def fractionDigits (n : Numeral) : List Char := n.fraction.getD []

def exponentValue (n : Numeral) : Int :=
  match n.exponent with
  | none => 0
  | some (.minus, digits) => -(digitsValue digits : Int)
  | some (_, digits) => digitsValue digits

/-- The number that a numeral denotes. -/
def value (n : Numeral) : ℚ :=
  (digitsValue n.integer + digitsValue n.fractionDigits / 10 ^ n.fractionDigits.length) *
    10 ^ n.exponentValue

/-- Behind the 18th digit of the fraction the exponent finds nothing but zeros to move. -/
def NoDigitLost (n : Numeral) : Prop :=
  ∀ c ∈ (n.fractionDigits.drop Decimal.PRECISION).take n.exponentValue.toNat, c = '0'

end Numeral

/-! ## The format -/

theorem isDigit_iff (c : Char) :
    c.isDigit = true ↔ c = '0' ∨ c = '1' ∨ c = '2' ∨ c = '3' ∨ c = '4' ∨ c = '5' ∨ c = '6' ∨ c = '7' ∨
      c = '8' ∨ c = '9' := by
  constructor
  · intro h
    have hrange := toNat_of_isDigit h
    simp only [← Char.toNat_inj]
    show c.toNat = 48 ∨ c.toNat = 49 ∨ c.toNat = 50 ∨ c.toNat = 51 ∨ c.toNat = 52 ∨ c.toNat = 53 ∨
      c.toNat = 54 ∨ c.toNat = 55 ∨ c.toNat = 56 ∨ c.toNat = 57
    omega
  · rintro (rfl | rfl | rfl | rfl | rfl | rfl | rfl | rfl | rfl | rfl) <;> rfl

theorem digitFormat_rmatch (x : List Char) :
    digitFormat.rmatch x ↔ ∃ c : Char, c.isDigit = true ∧ x = [c] := by
  simp only [digitFormat, RegularExpression.add_rmatch_iff, RegularExpression.char_rmatch_iff,
    isDigit_iff, or_assoc]
  constructor
  · rintro (rfl | rfl | rfl | rfl | rfl | rfl | rfl | rfl | rfl | rfl) <;> simp
  · rintro ⟨c, rfl | rfl | rfl | rfl | rfl | rfl | rfl | rfl | rfl | rfl, rfl⟩ <;> simp

theorem star_digitFormat_rmatch (x : List Char) :
    (RegularExpression.star digitFormat).rmatch x ↔ AllDigits x := by
  rw [RegularExpression.star_rmatch_iff]
  constructor
  · rintro ⟨parts, rfl, hparts⟩ c hc
    obtain ⟨part, hpart, hc⟩ := List.mem_flatten.mp hc
    obtain ⟨d, hd, rfl⟩ := (digitFormat_rmatch part).mp (hparts part hpart).2
    rw [List.mem_singleton.mp hc]
    exact hd
  · intro hx
    refine ⟨x.map fun c => [c], ?_, ?_⟩
    · rw [← List.flatMap_def]
      exact (List.flatMap_singleton' x).symm
    intro part hpart
    obtain ⟨c, hc, rfl⟩ := List.mem_map.mp hpart
    exact ⟨by simp, (digitFormat_rmatch [c]).mpr ⟨c, hx c hc, rfl⟩⟩

theorem digits_rmatch (x : List Char) :
    (digitFormat * RegularExpression.star digitFormat).rmatch x ↔ x ≠ [] ∧ AllDigits x := by
  rw [RegularExpression.mul_rmatch_iff]
  constructor
  · rintro ⟨t, u, rfl, ht, hu⟩
    obtain ⟨c, hc, rfl⟩ := (digitFormat_rmatch t).mp ht
    refine ⟨by simp, ?_⟩
    intro d hd
    rcases List.mem_cons.mp hd with rfl | hd
    · exact hc
    · exact (star_digitFormat_rmatch u).mp hu d hd
  · rintro ⟨hne, hx⟩
    cases x with
    | nil => exact absurd rfl hne
    | cons c cs =>
      refine ⟨[c], cs, rfl, (digitFormat_rmatch _).mpr ⟨c, hx c List.mem_cons_self, rfl⟩, ?_⟩
      exact (star_digitFormat_rmatch cs).mpr (hx.of_subset (List.subset_cons_self c cs))

theorem fraction_rmatch (x : List Char) :
    (1 + RegularExpression.char '.' * RegularExpression.star digitFormat).rmatch x ↔
      ∃ fraction : Option (List Char), AllDigits (fraction.getD []) ∧ x = fractionText fraction := by
  rw [RegularExpression.add_rmatch_iff, RegularExpression.one_rmatch_iff,
    RegularExpression.mul_rmatch_iff]
  constructor
  · rintro (rfl | ⟨t, u, rfl, ht, hu⟩)
    · exact ⟨none, fun _ hc => absurd hc List.not_mem_nil, rfl⟩
    · rw [(RegularExpression.char_rmatch_iff _ _).mp ht]
      exact ⟨some u, (star_digitFormat_rmatch u).mp hu, rfl⟩
  · rintro ⟨fraction, hdigits, rfl⟩
    cases fraction with
    | none => exact .inl rfl
    | some u =>
      exact .inr ⟨['.'], u, rfl, (RegularExpression.char_rmatch_iff _ _).mpr rfl,
        (star_digitFormat_rmatch u).mpr hdigits⟩

theorem sign_rmatch (x : List Char) :
    (1 + (RegularExpression.char '-' + RegularExpression.char '+')).rmatch x ↔
      ∃ sign : ExponentSign, x = sign.text := by
  rw [RegularExpression.add_rmatch_iff, RegularExpression.add_rmatch_iff,
    RegularExpression.one_rmatch_iff, RegularExpression.char_rmatch_iff,
    RegularExpression.char_rmatch_iff]
  constructor
  · rintro (rfl | rfl | rfl)
    · exact ⟨.unsigned, rfl⟩
    · exact ⟨.minus, rfl⟩
    · exact ⟨.plus, rfl⟩
  · rintro ⟨sign, rfl⟩
    cases sign with
    | unsigned => exact .inl rfl
    | plus => exact .inr (.inr rfl)
    | minus => exact .inr (.inl rfl)

theorem exponent_rmatch (x : List Char) :
    (1 + RegularExpression.char 'e' * ((1 + (RegularExpression.char '-' + RegularExpression.char '+')) *
      (digitFormat * RegularExpression.star digitFormat))).rmatch x ↔
      ∃ exponent : Option (ExponentSign × List Char),
        (∀ e ∈ exponent, e.2 ≠ [] ∧ AllDigits e.2) ∧ x = exponentText exponent := by
  rw [RegularExpression.add_rmatch_iff, RegularExpression.one_rmatch_iff,
    RegularExpression.mul_rmatch_iff]
  simp only [RegularExpression.mul_rmatch_iff _ (digitFormat * _), sign_rmatch, digits_rmatch,
    RegularExpression.char_rmatch_iff]
  constructor
  · rintro (rfl | ⟨t, u, rfl, rfl, v, digits, rfl, ⟨sign, rfl⟩, hdigits⟩)
    · exact ⟨none, by simp, rfl⟩
    · refine ⟨some (sign, digits), ?_, rfl⟩
      intro e he
      cases Option.mem_some.mp he
      exact hdigits
  · rintro ⟨exponent, hdigits, rfl⟩
    cases exponent with
    | none => exact .inl rfl
    | some e => exact .inr ⟨['e'], _, rfl, rfl, _, _, rfl, ⟨e.1, rfl⟩, hdigits e rfl⟩

/-- What the format matches, with an empty coefficient too. -/
theorem format_rmatch (x : List Char) :
    stringRepresentationFormat.rmatch x ↔ ∃ integer fraction exponent,
      AllDigits integer ∧ AllDigits (Option.getD fraction []) ∧
      (∀ e ∈ exponent, e.2 ≠ [] ∧ AllDigits e.2) ∧
      x = integer ++ fractionText fraction ++ exponentText exponent := by
  rw [stringRepresentationFormat, RegularExpression.mul_rmatch_iff]
  simp only [RegularExpression.mul_rmatch_iff
      (1 + RegularExpression.char '.' * RegularExpression.star digitFormat), star_digitFormat_rmatch,
    fraction_rmatch, exponent_rmatch]
  constructor
  · rintro ⟨integer, _, rfl, hinteger, _, _, rfl, ⟨fraction, hfraction, rfl⟩, exponent, hexponent, rfl⟩
    exact ⟨integer, fraction, exponent, hinteger, hfraction, hexponent, by rw [List.append_assoc]⟩
  · rintro ⟨integer, fraction, exponent, hinteger, hfraction, hexponent, rfl⟩
    exact ⟨integer, _, by rw [List.append_assoc], hinteger, _, _, rfl, ⟨fraction, hfraction, rfl⟩,
      exponent, hexponent, rfl⟩

/-! ## The parser -/

theorem split_append_cons {separator : Char} {xs ys : List Char} (hxs : separator ∉ xs)
    (hys : separator ∉ ys) : split separator (xs ++ separator :: ys) = (xs, ys) := by
  have hxs' : ∀ c ∈ xs, decide (c ≠ separator) = true := by
    intro c hc
    exact decide_eq_true fun h => hxs (h ▸ hc)
  have hys' : ys.takeWhile (· ≠ separator) = ys := by
    apply List.takeWhile_eq_self_iff.mpr
    intro c hc
    exact decide_eq_true fun h => hys (h ▸ hc)
  rw [split, List.takeWhile_append_of_pos hxs', List.dropWhile_append_of_pos hxs',
    List.takeWhile_cons_of_neg (by simp), List.dropWhile_cons_of_neg (by simp), List.append_nil,
    List.tail_cons, hys']

theorem bigNumberFrom_digits {cs : List Char} (hne : cs ≠ []) (h : AllDigits cs) :
    bigNumberFrom cs = .ok (digitsValue cs) := by
  rw [bigNumberFrom, require, if_pos ⟨hne, h⟩, ok_bind]
  rfl

namespace Decimal

/-- The number of units that the parser reads off a coefficient. -/
def coefficientUnits (integer : List Char) (fraction : List Char) : Nat :=
  digitsValue integer * DIGITS + digitsValue (firstDigits PRECISION fraction)

theorem not_e_mem_coefficient {integer : List Char} {fraction : Option (List Char)}
    (hinteger : AllDigits integer) (hfraction : AllDigits (fraction.getD [])) :
    'e' ∉ integer ++ fractionText fraction := by
  rw [List.mem_append, not_or]
  refine ⟨hinteger.not_mem rfl, ?_⟩
  cases fraction with
  | none => exact List.not_mem_nil
  | some digits =>
    rw [fractionText, List.mem_cons, not_or]
    exact ⟨by decide, hfraction.not_mem rfl⟩

theorem fromString_empty : fromString [] = .error (.reason (badFormat [])) := by
  rw [fromString]
  rfl

/-- Padding and truncation keep the first 18 digits. -/
theorem normalize_mantissa (mantissa : List Char) :
    (if mantissa.length < PRECISION then
        mantissa ++ List.replicate (PRECISION - mantissa.length) '0'
      else mantissa.take PRECISION) = firstDigits PRECISION mantissa := by
  unfold firstDigits
  split
  next h => rw [List.take_of_length_le (by omega)]
  next h => rw [show PRECISION - mantissa.length = 0 by omega, List.replicate_zero, List.append_nil]

theorem fromString_coefficient {integer : List Char} {fraction : Option (List Char)}
    (hinteger : AllDigits integer) (hfraction : AllDigits (fraction.getD []))
    (hne : integer ++ fractionText fraction ≠ []) :
    fromString (integer ++ fractionText fraction) =
      .ok ⟨coefficientUnits integer (fraction.getD [])⟩ := by
  have hformat : stringRepresentationFormat.rmatch (integer ++ fractionText fraction) := by
    refine (format_rmatch _).mpr ⟨integer, fraction, none, hinteger, hfraction, by simp, ?_⟩
    rw [exponentText, List.append_nil]
  rw [fromString, require, if_pos ⟨hne, hformat⟩, ok_bind,
    dif_neg (not_e_mem_coefficient hinteger hfraction)]
  cases fraction with
  | none =>
    have hinteger' : integer ≠ [] := by simpa [fractionText] using hne
    rw [fractionText, List.append_nil, if_pos (hinteger.not_mem rfl),
      bigNumberFrom_digits hinteger' hinteger, ok_bind]
    show (.ok _ : Js Decimal) = .ok _
    rw [coefficientUnits, Option.getD_none, firstDigits, List.take_nil, List.nil_append,
      digitsValue_replicate, Nat.add_zero]
  | some digits =>
    have hdigits : AllDigits digits := hfraction
    have hfirst : firstDigits PRECISION digits ≠ [] := by
      apply List.ne_nil_of_length_pos
      rw [length_firstDigits]
      decide
    rw [fractionText, if_neg (by simp), split_append_cons (hinteger.not_mem rfl) (hdigits.not_mem rfl)]
    simp only [normalize_mantissa]
    rw [bigNumberFrom_digits hfirst (hdigits.firstDigits PRECISION)]
    cases integer with
    | nil => rfl
    | cons c cs =>
      rw [if_neg (by simp), bigNumberFrom_digits (by simp) hinteger]
      rfl

theorem sign_text_head (sign : ExponentSign) {digits : List Char} (hne : digits ≠ [])
    (h : AllDigits digits) :
    ((sign.text ++ digits).head? = some '-' ↔ sign = .minus) ∧
      ((sign.text ++ digits).head? = some '+' ↔ sign = .plus) := by
  cases sign with
  | plus => simp [ExponentSign.text]
  | minus => simp [ExponentSign.text]
  | unsigned =>
    cases digits with
    | nil => exact absurd rfl hne
    | cons c cs =>
      have hc := h c List.mem_cons_self
      constructor
      · refine ⟨fun heq => ?_, fun heq => by cases heq⟩
        rw [Option.some.inj heq] at hc
        cases hc
      · refine ⟨fun heq => ?_, fun heq => by cases heq⟩
        rw [Option.some.inj heq] at hc
        cases hc

/-- What the exponent does with the coefficient. -/
def shift (units : Nat) : ExponentSign → Nat → Nat
  | .minus, k => units / 10 ^ k
  | _, k => units * 10 ^ k

theorem fromString_exponent {coefficient digits : List Char} {sign : ExponentSign}
    (he : 'e' ∉ coefficient) (hne : digits ≠ []) (hdigits : AllDigits digits)
    (hformat : stringRepresentationFormat.rmatch
      (coefficient ++ exponentText (some (sign, digits)))) :
    fromString (coefficient ++ exponentText (some (sign, digits))) =
      (fromString coefficient).map fun d => ⟨shift d.bigNumber sign (digitsValue digits)⟩ := by
  have hmem : 'e' ∈ coefficient ++ exponentText (some (sign, digits)) := by simp [exponentText]
  have hsign : 'e' ∉ sign.text ++ digits := by
    rw [List.mem_append, not_or]
    refine ⟨?_, hdigits.not_mem rfl⟩
    cases sign <;> decide
  have hhead := sign_text_head sign hne hdigits
  rw [fromString, require, if_pos ⟨List.ne_nil_of_mem hmem, hformat⟩, ok_bind, dif_pos hmem,
    exponentText, split_append_cons he hsign]
  simp only [hhead.1, hhead.2]
  cases hcoefficient : fromString coefficient with
  | error e => cases sign <;> rfl
  | ok d =>
    cases sign <;>
      simp [ExponentSign.text, bigNumberFrom_digits hne hdigits, ok_bind, shift, Except.map, pure, Except.pure]

end Decimal

/-! ## Numerals -/

namespace Numeral

open Decimal

/-- The number of units that the parser reads off a numeral. -/
def units (n : Numeral) : Nat :=
  match n.exponent with
  | none => coefficientUnits n.integer n.fractionDigits
  | some (sign, digits) =>
    shift (coefficientUnits n.integer n.fractionDigits) sign (digitsValue digits)

theorem from_toString (n : Numeral) : Decimal.from n.toString = .ok ⟨n.units⟩ := by
  have hformat : stringRepresentationFormat.rmatch
      (n.integer ++ fractionText n.fraction ++ exponentText n.exponent) :=
    (format_rmatch _).mpr ⟨_, _, _, n.integer_digits, n.fraction_digits, n.exponent_digits, rfl⟩
  have hcoefficient := fromString_coefficient n.integer_digits n.fraction_digits n.nonempty
  rw [Decimal.from, toString, String.toList_ofList, units]
  cases hexponent : n.exponent with
  | none =>
    rw [exponentText, List.append_nil]
    exact hcoefficient
  | some e =>
    obtain ⟨hne, hdigits⟩ := n.exponent_digits e hexponent
    rw [hexponent] at hformat
    rw [fromString_exponent (not_e_mem_coefficient n.integer_digits n.fraction_digits) hne hdigits
      hformat, hcoefficient]
    rfl

/-- A string without a coefficient is rejected, so what is accepted is a numeral. -/
theorem exists_of_accepted {s : String} {d : Decimal} (h : Decimal.from s = .ok d) :
    ∃ n : Numeral, n.toString = s := by
  have hguard : s.toList ≠ [] ∧ stringRepresentationFormat.rmatch s.toList := by
    rw [Decimal.from, fromString, bind_ok] at h
    obtain ⟨_, hrequire, -⟩ := h
    exact require_ok.mp hrequire
  obtain ⟨integer, fraction, exponent, hinteger, hfraction, hexponent, hs⟩ :=
    (format_rmatch _).mp hguard.2
  have hne : integer ++ fractionText fraction ≠ [] := by
    intro hnil
    rw [hnil, List.nil_append] at hs
    cases exponent with
    | none => exact hguard.1 hs
    | some e =>
      have hformat := hguard.2
      rw [hs, ← List.nil_append (exponentText _)] at hformat
      rw [Decimal.from, hs, ← List.nil_append (exponentText _),
        fromString_exponent List.not_mem_nil (hexponent e rfl).1 (hexponent e rfl).2 hformat,
        fromString_empty] at h
      cases h
  refine ⟨⟨integer, fraction, exponent, hinteger, hfraction, hexponent, hne⟩, ?_⟩
  rw [toString, ← hs, String.ofList_toList]

/-! ## The value -/

/-- The coefficient as a fraction of integers. -/
theorem value_eq (n : Numeral) :
    n.value = (digitsValue (n.integer ++ n.fractionDigits) : ℚ) / 10 ^ n.fractionDigits.length *
      10 ^ n.exponentValue := by
  rw [value, digitsValue_append]
  push_cast
  rw [add_div, mul_div_assoc, div_self (by positivity), mul_one]

theorem coefficientUnits_eq (n : Numeral) :
    coefficientUnits n.integer n.fractionDigits =
      digitsValue (n.integer ++ n.fractionDigits) * 10 ^ PRECISION / 10 ^ n.fractionDigits.length :=
  (digitsValue_scaled n.integer n.fraction_digits PRECISION).symm

theorem floor_of_nonneg {n : Numeral} {k : Nat} (h : n.exponentValue = k) :
    ⌊n.value * 10 ^ PRECISION⌋₊ =
      digitsValue (n.integer ++ n.fractionDigits) * 10 ^ (PRECISION + k) /
        10 ^ n.fractionDigits.length := by
  rw [← Nat.floor_div_eq_div (K := ℚ), value_eq, h]
  congr 1
  push_cast
  rw [zpow_natCast, pow_add]
  ring

theorem floor_of_neg {n : Numeral} {k : Nat} (h : n.exponentValue = -k) :
    ⌊n.value * 10 ^ PRECISION⌋₊ = coefficientUnits n.integer n.fractionDigits / 10 ^ k := by
  rw [coefficientUnits_eq, Nat.div_div_eq_div_mul, ← Nat.floor_div_eq_div (K := ℚ), value_eq, h]
  congr 1
  push_cast
  rw [zpow_neg, zpow_natCast]
  field_simp

/-- A negative exponent only drops more digits; a positive one moves zeros in where the coefficient
lost its digits. -/
theorem units_eq_floor_iff (n : Numeral) : n.units = ⌊n.value * 10 ^ PRECISION⌋₊ ↔ n.NoDigitLost := by
  have hpositive : ∀ k : Nat, n.exponentValue = k →
      (coefficientUnits n.integer n.fractionDigits * 10 ^ k = ⌊n.value * 10 ^ PRECISION⌋₊ ↔
        n.NoDigitLost) := by
    intro k hk
    have hfraction : AllDigits n.fractionDigits := n.fraction_digits
    have hdrop : AllDigits (n.fractionDigits.drop PRECISION) :=
      hfraction.of_subset (List.drop_subset _ _)
    have hlost : digitsValue (firstDigits k (n.fractionDigits.drop PRECISION)) = 0 ↔ n.NoDigitLost := by
      rw [digitsValue_eq_zero_iff (hdrop.firstDigits k), NoDigitLost, hk, Int.toNat_natCast, firstDigits]
      constructor
      · intro hall c hc
        exact hall c (List.mem_append_left _ hc)
      · intro hall c hc
        rcases List.mem_append.mp hc with hc | hc
        · exact hall c hc
        · exact List.eq_of_mem_replicate hc
    rw [floor_of_nonneg hk, digitsValue_scaled n.integer hfraction, firstDigits_add,
      digitsValue_append, length_firstDigits, Nat.pow_add, ← hlost, coefficientUnits, DIGITS]
    constructor
    · intro heq
      have hsum := heq
      rw [Nat.add_mul, Nat.mul_assoc, ← Nat.add_assoc] at hsum
      omega
    · intro hzero
      rw [hzero]
      ring
  rw [units]
  cases hexponent : n.exponent with
  | none =>
    have hk : n.exponentValue = (0 : Nat) := by rw [exponentValue, hexponent]; rfl
    have hzero := hpositive 0 hk
    rwa [Nat.pow_zero, Nat.mul_one] at hzero
  | some e =>
    obtain ⟨sign, digits⟩ := e
    cases sign with
    | unsigned => exact hpositive _ (by rw [exponentValue, hexponent])
    | plus => exact hpositive _ (by rw [exponentValue, hexponent])
    | minus =>
      have hk : n.exponentValue = -(digitsValue digits : Int) := by rw [exponentValue, hexponent]
      have hlost : n.NoDigitLost := by
        intro c hc
        rw [hk, Int.toNat_neg_natCast, List.take_zero] at hc
        cases hc
      rw [floor_of_neg hk]
      exact iff_of_true rfl hlost

end Numeral

namespace Decimal

/-- The parser accepts the numerals and no other string, and it is exact for those whose exponent
moves no digit that the coefficient has lost. -/
theorem from_exact_iff (s : String) :
    ((∃ d, Decimal.from s = .ok d) ↔ ∃ n : Numeral, n.toString = s) ∧
      ∀ n : Numeral, n.toString = s → ∃ d, Decimal.from s = .ok d ∧
        (d.bigNumber = ⌊n.value * 10 ^ PRECISION⌋₊ ↔ n.NoDigitLost) := by
  constructor
  · constructor
    · rintro ⟨d, h⟩
      exact Numeral.exists_of_accepted h
    · rintro ⟨n, rfl⟩
      exact ⟨_, n.from_toString⟩
  · rintro n rfl
    exact ⟨_, n.from_toString, n.units_eq_floor_iff⟩

/-- `12345.67890123456789` in scientific notation. -/
def sampleNumeral : Numeral where
  integer := ['0']
  fraction := some "1234567890123456789".toList
  exponent := some (.unsigned, ['5'])
  integer_digits := by decide
  fraction_digits := by decide
  exponent_digits := by
    intro e he
    cases Option.mem_some.mp he
    decide
  nonempty := by decide

/-- The 19th digit is gone before the exponent moves it to the 14th place. -/
theorem from_loses_digit :
    sampleNumeral.toString = "0.1234567890123456789e5" ∧
      Decimal.from "0.1234567890123456789e5" = .ok ⟨12345678901234567800000⟩ ∧
      ⌊sampleNumeral.value * 10 ^ PRECISION⌋₊ = 12345678901234567890000 ∧
      ¬ ∀ (n : Numeral) d, Decimal.from n.toString = .ok d →
        d.bigNumber = ⌊n.value * 10 ^ PRECISION⌋₊ := by
  have htext : sampleNumeral.toString = "0.1234567890123456789e5" := by decide
  have hparsed : Decimal.from sampleNumeral.toString = .ok ⟨12345678901234567800000⟩ :=
    sampleNumeral.from_toString
  have hvalue : ⌊sampleNumeral.value * 10 ^ PRECISION⌋₊ = 12345678901234567890000 := by
    rw [Numeral.floor_of_nonneg (k := 5) rfl]
    decide
  refine ⟨htext, htext ▸ hparsed, hvalue, fun hexact => ?_⟩
  have hequal := hexact sampleNumeral _ hparsed
  rw [hvalue] at hequal
  exact absurd hequal (by decide)

/-! ## Printing -/

theorem digitsValue_padStart (length m : Nat) :
    digitsValue (padStart length (Nat.toDigits 10 m)) = m := by
  rw [padStart, digitsValue_append, digitsValue_replicate, digitsValue_toDigits, Nat.zero_mul,
    Nat.zero_add]

theorem length_padStart {m : Nat} (h : m < DIGITS) :
    (padStart PRECISION (Nat.toDigits 10 m)).length = PRECISION := by
  have hlength := (Nat.length_toDigits_le_iff (b := 10) (k := PRECISION) (by decide) (by decide)).mpr h
  rw [padStart, List.length_append, List.length_replicate]
  omega

/-- What automatic precision prints behind the point. -/
def printedMantissa (m : Nat) : List Char :=
  (padStart PRECISION (Nat.toDigits 10 m)).rdropWhile (· = '0')

/-- Parsing pads with the zeros that printing trimmed. -/
theorem digitsValue_printedMantissa {m : Nat} (h : m < DIGITS) :
    digitsValue (firstDigits PRECISION (printedMantissa m)) = m := by
  have hpadded := firstDigits_rdropWhile (padStart PRECISION (Nat.toDigits 10 m))
  rw [length_padStart h] at hpadded
  rw [printedMantissa, hpadded, digitsValue_padStart]

theorem allDigits_printedMantissa (m : Nat) : AllDigits (printedMantissa m) := by
  have hpadded : AllDigits (padStart PRECISION (Nat.toDigits 10 m)) :=
    (allDigits_replicate _).append (allDigits_toDigits m)
  exact hpadded.of_subset (List.rdropWhile_prefix _ _).subset

/-- The numeral that is printed. -/
def printed (d : Decimal) : Numeral where
  integer := Nat.toDigits 10 (d.bigNumber / DIGITS)
  fraction := if d.bigNumber % DIGITS = 0 then none else some (printedMantissa (d.bigNumber % DIGITS))
  exponent := none
  integer_digits := allDigits_toDigits _
  fraction_digits := by
    split
    · exact fun c hc => absurd hc List.not_mem_nil
    · exact allDigits_printedMantissa _
  exponent_digits := by simp
  nonempty := by simp [Nat.toDigits_ne_nil]

theorem toString_eq {d : Decimal} (h : ¬ d.infinite) :
    d.toString none = .ok d.printed.toString := by
  have htext : d.toStringWithAutomaticPrecision =
      d.printed.integer ++ fractionText d.printed.fraction ++ exponentText d.printed.exponent := by
    show (if d.bigNumber % DIGITS = 0 then Nat.toDigits 10 (d.bigNumber / DIGITS)
        else Nat.toDigits 10 (d.bigNumber / DIGITS) ++ '.' :: printedMantissa (d.bigNumber % DIGITS)) =
      Nat.toDigits 10 (d.bigNumber / DIGITS) ++
        fractionText (if d.bigNumber % DIGITS = 0 then none
          else some (printedMantissa (d.bigNumber % DIGITS))) ++ []
    rw [List.append_nil]
    by_cases hzero : d.bigNumber % DIGITS = 0
    · rw [if_pos hzero, if_pos hzero, fractionText, List.append_nil]
    · rw [if_neg hzero, if_neg hzero, fractionText]
  rw [toString, if_neg h, htext]
  rfl

theorem printed_units (d : Decimal) : d.printed.units = d.bigNumber := by
  show coefficientUnits (Nat.toDigits 10 (d.bigNumber / DIGITS))
    (Option.getD (if d.bigNumber % DIGITS = 0 then none
      else some (printedMantissa (d.bigNumber % DIGITS))) []) = d.bigNumber
  have hsplit := Nat.div_add_mod' d.bigNumber DIGITS
  rw [coefficientUnits, digitsValue_toDigits]
  split
  next hzero =>
    rw [Option.getD_none, firstDigits, List.take_nil, List.nil_append, digitsValue_replicate]
    omega
  next =>
    rw [Option.getD_some, digitsValue_printedMantissa (Nat.mod_lt _ DIGITS_pos)]
    exact hsplit

/-- A finite decimal is read back from what it prints, which no other finite decimal prints. -/
theorem toString_read_back {d : Decimal} (h : ¬ d.infinite) :
    ∃ s, d.toString none = .ok s ∧ Decimal.from s = .ok d ∧
      ∀ e : Decimal, ¬ e.infinite → e.toString none = .ok s → e = d := by
  have hread : ∀ e : Decimal, Decimal.from e.printed.toString = .ok e := by
    intro e
    rw [Numeral.from_toString, printed_units]
  refine ⟨d.printed.toString, toString_eq h, hread d, ?_⟩
  intro e he hprint
  rw [toString_eq he, Except.ok.injEq] at hprint
  have hsame := hread e
  rw [hprint, hread d, Except.ok.injEq] at hsame
  exact hsame.symm

theorem toString_read_back_half :
    ¬ HALF.infinite ∧ ∃ s, HALF.toString none = .ok s ∧ Decimal.from s = .ok HALF ∧
      ∀ e : Decimal, ¬ e.infinite → e.toString none = .ok s → e = HALF :=
  ⟨by decide, toString_read_back (by decide)⟩

end Decimal

end Liquity.LibBase
