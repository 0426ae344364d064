import Liquity.Lib.DecimalDigits
import Liquity.LibBase.Decimal
import Mathlib.Computability.RegularExpressions
import Mathlib.Data.List.DropRight

/-!
# Decimals from and to strings

Strings are taken as lists of characters inside; `BigNumber` prints and parses integers of any size.
-/

open Lib

namespace Liquity.LibBase

open RegularExpression in
/-- `[0-9]` -/
def digitFormat : RegularExpression Char :=
  char '0' + char '1' + char '2' + char '3' + char '4' + char '5' + char '6' + char '7' + char '8' +
    char '9'

open RegularExpression in
/-- `/^[0-9]*(\.[0-9]*)?(e[-+]?[0-9]+)?$/` -/
def stringRepresentationFormat : RegularExpression Char :=
  star digitFormat * ((1 + char '.' * star digitFormat) *
    (1 + char 'e' * ((1 + (char '-' + char '+')) * (digitFormat * star digitFormat))))

/-- The first two parts of `s.split(separator)`. -/
def split (separator : Char) (s : List Char) : List Char × List Char :=
  (s.takeWhile (· ≠ separator), (s.dropWhile (· ≠ separator)).tail.takeWhile (· ≠ separator))

/-- `BigNumber.from` on a string of decimal digits. -/
def bigNumberFrom (s : List Char) : Js Nat := do
  require (s ≠ [] ∧ AllDigits s) "invalid BigNumber string"
  return Nat.ofDigitChars 10 s 0

namespace Decimal

def badFormat (representation : List Char) : String :=
  "bad decimal format: \"" ++ String.ofList representation ++ "\""

theorem length_split_fst_lt {separator : Char} {s : List Char} (h : separator ∈ s) :
    (split separator s).1.length < s.length := by
  have hsplit := List.takeWhile_append_dropWhile (p := (· ≠ separator)) (l := s)
  have hdrop : s.dropWhile (· ≠ separator) ≠ [] := by
    intro hnil
    simpa using List.dropWhile_eq_nil_iff.mp hnil separator h
  have hpos := List.length_pos_iff.mpr hdrop
  have hlength := congrArg List.length hsplit
  rw [List.length_append] at hlength
  show (s.takeWhile (· ≠ separator)).length < s.length
  omega

def fromString (representation : List Char) : Js Decimal := do
  require (representation ≠ [] ∧ stringRepresentationFormat.rmatch representation)
    (badFormat representation)
  if h : 'e' ∈ representation then
    let coefficient := (split 'e' representation).1
    let exponent := (split 'e' representation).2
    if exponent.head? = some '-' then
      let bigNumber := (← fromString coefficient).bigNumber
      let power := 10 ^ (← bigNumberFrom exponent.tail)
      return ⟨bigNumber / power⟩
    else
      let exponent := if exponent.head? = some '+' then exponent.tail else exponent
      let bigNumber := (← fromString coefficient).bigNumber
      let power := 10 ^ (← bigNumberFrom exponent)
      return ⟨bigNumber * power⟩
  else if '.' ∉ representation then
    return ⟨(← bigNumberFrom representation) * DIGITS⟩
  else
    let (characteristic, mantissa) := split '.' representation
    let mantissa :=
      if mantissa.length < PRECISION then
        mantissa ++ List.replicate (PRECISION - mantissa.length) '0'
      else mantissa.take PRECISION
    let bigNumber ← if characteristic = [] then pure 0 else bigNumberFrom characteristic
    return ⟨bigNumber * DIGITS + (← bigNumberFrom mantissa)⟩
termination_by representation.length
decreasing_by all_goals exact length_split_fst_lt h

/-- `Decimal.from` on a string. -/
def «from» (decimalish : String) : Js Decimal := fromString decimalish.toList

def padStart (length : Nat) (s : List Char) : List Char :=
  List.replicate (length - s.length) '0' ++ s

def toStringWithAutomaticPrecision (d : Decimal) : List Char :=
  let characteristic := d.bigNumber / DIGITS
  let mantissa := d.bigNumber % DIGITS
  if mantissa = 0 then Nat.toDigits 10 characteristic
  else
    let paddedMantissa := padStart PRECISION (Nat.toDigits 10 mantissa)
    let trimmedMantissa := paddedMantissa.rdropWhile (· = '0')
    Nat.toDigits 10 characteristic ++ '.' :: trimmedMantissa

def roundUp (d : Decimal) (precision : Nat) : Nat :=
  let halfDigit := 10 ^ (PRECISION - 1 - precision) * 5
  d.bigNumber + halfDigit

def toStringWithPrecision (d : Decimal) (precision : Int) : Js (List Char) := do
  require (0 ≤ precision) "precision must not be negative"
  let precision := precision.toNat
  let value := if precision < PRECISION then d.roundUp precision else d.bigNumber
  let characteristic := value / DIGITS
  let mantissa := value % DIGITS
  if precision = 0 then return Nat.toDigits 10 characteristic
  else
    let paddedMantissa := padStart PRECISION (Nat.toDigits 10 mantissa)
    let trimmedMantissa := paddedMantissa.take precision
    return Nat.toDigits 10 characteristic ++ '.' :: trimmedMantissa

def infinite (d : Decimal) : Prop := d = INFINITY

instance (d : Decimal) : Decidable d.infinite := inferInstanceAs (Decidable (_ = _))

def toString (d : Decimal) (precision : Option Int) : Js String :=
  if d.infinite then return "∞"
  else
    match precision with
    | some precision => return String.ofList (← d.toStringWithPrecision precision)
    | none => return String.ofList d.toStringWithAutomaticPrecision

end Decimal

end Liquity.LibBase
