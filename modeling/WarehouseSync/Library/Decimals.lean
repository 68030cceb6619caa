import Mathlib.Algebra.Order.Field.Power
import Mathlib.Data.Nat.Log
import Mathlib.Data.Rat.Floor
import Mathlib.Tactic.FieldSimp
import Mathlib.Tactic.Linarith
import Mathlib.Tactic.NormNum
import Mathlib.Tactic.Positivity
import Mathlib.Tactic.Ring

namespace WarehouseSync
namespace Decimals

/-!
# Decimal numbers and rounding to a scale

A finite decimal is a sign, a coefficient and a power of ten.  Rounding to a
scale first multiplies or cuts the coefficient and then looks at the number of
its digits: a context allows only so many, and an operation whose result needs
more is invalid.  The general fact about it is that the coefficient of the
result is the magnitude counted in units of the scale and rounded half up, so
the operation fails by the size of that number alone.
-/

/-- A sign, a coefficient and an exponent.  One number has several representations,
and rounding keeps track of which one it is. -/
structure Decimal where
  negative : Bool
  coefficient : Nat
  exponent : Int
deriving DecidableEq, Repr

/-- A decimal may also be one of the special values. -/
inductive Number where
  | finite (value : Decimal)
  | infinity (negative : Bool)
  | nan
deriving DecidableEq, Repr

/-- The precision and the exponents that results may have.  An operation whose
result does not fit has none. -/
structure Context where
  precision : Nat
  minExponent : Int
  maxExponent : Int

/-- The least exponent of a subnormal result. -/
def Context.tinyExponent (context : Context) : Int :=
  context.minExponent - context.precision + 1

namespace Decimal

def magnitude (value : Decimal) : ℚ :=
  value.coefficient * 10 ^ value.exponent

def toRat (value : Decimal) : ℚ :=
  if value.negative = true then -value.magnitude else value.magnitude

/-- The number of digits of the coefficient, one for zero. -/
def digits (value : Decimal) : Nat :=
  Nat.log 10 value.coefficient + 1

/-- The exponent of the leading digit. -/
def adjusted (value : Decimal) : Int :=
  value.exponent + value.digits - 1

/-- Move the decimal point. -/
def scaleb (value : Decimal) (places : Int) : Decimal :=
  { value with exponent := value.exponent + places }

end Decimal

/-- Cut the last digits of a coefficient.  A first dropped digit of five or more
rounds up, whatever the sign, so ties go away from zero. -/
def dropDigits (coefficient : Nat) : Nat -> Nat
  | 0 => coefficient
  | count + 1 =>
      coefficient / 10 ^ (count + 1) + if 5 ≤ coefficient / 10 ^ count % 10 then 1 else 0

/-- The same number with another exponent, rounded half up.  Zeros are added when
the exponent gets smaller, so then nothing is lost. -/
def rescale (value : Decimal) (exponent : Int) : Decimal :=
  { value with
    coefficient :=
      if exponent ≤ value.exponent then value.coefficient * 10 ^ (value.exponent - exponent).toNat
      else dropDigits value.coefficient (exponent - value.exponent).toNat
    exponent := exponent }

/-- Round a finite value to the exponent of another; an invalid operation has no
result.  The checks come in the order in which Python's own implementation makes
them. -/
def quantizeFinite (context : Context) (value : Decimal) (exponent : Int) : Option Decimal :=
  if exponent < context.tinyExponent ∨ context.maxExponent < exponent then none
  else if value.coefficient = 0 then some { value with exponent := exponent }
  else if context.maxExponent < value.adjusted then none
  else if (context.precision : Int) < value.adjusted - exponent + 1 then none
  else if context.maxExponent < (rescale value exponent).adjusted then none
  else if context.precision < (rescale value exponent).digits then none
  else some (rescale value exponent)

/-- An infinity has no finite exponent; a NaN stays a NaN. -/
def quantize (context : Context) (value : Number) (exponent : Int) : Option Number :=
  match value with
  | .finite decimal => (quantizeFinite context decimal exponent).map Number.finite
  | .infinity _ => none
  | .nan => some .nan

/-- The context a thread starts with. -/
def defaultContext : Context :=
  { precision := 28, minExponent := -999999, maxExponent := 999999 }

/-- The digits with the decimal point after so many of them, and the exponent
that is left. -/
def pointed (digits : List Char) (place : Int) : List Char :=
  if place ≤ 0 then '0' :: '.' :: (List.replicate (-place).toNat '0' ++ digits)
  else if digits.length ≤ place.toNat then digits ++ List.replicate (place.toNat - digits.length) '0'
  else digits.take place.toNat ++ '.' :: digits.drop place.toNat

/-- `str(value)`: a plain number when it is neither large nor very small. -/
def Decimal.text (value : Decimal) : List Char :=
  let digits := Nat.toDigits 10 value.coefficient
  let leading : Int := value.exponent + digits.length
  let place : Int := if value.exponent ≤ 0 ∧ -6 < leading then leading else 1
  let sign := if value.negative = true then ['-'] else []
  let power := leading - place
  let exponent :=
    if power = 0 then []
    else 'E' :: (if power < 0 then '-' else '+') :: Nat.toDigits 10 power.natAbs
  sign ++ pointed digits place ++ exponent

def Number.text : Number -> List Char
  | .finite value => value.text
  | .infinity negative => if negative = true then "-Infinity".toList else "Infinity".toList
  | .nan => "NaN".toList

/-! ## Rounding rationals -/

/-- The magnitude of a number in units of `10 ^ (-scale)`, rounded half up.  It is
the description on rationals that the operation on digits is compared with. -/
def unitsHalfUp (scale : Int) (number : ℚ) : Nat :=
  ⌊|number| * 10 ^ scale + 1 / 2⌋₊

/-- A number rounded half up, ties away from zero, to a number of fractional digits.
It does not depend on how the number is represented. -/
def roundHalfUp (scale : Int) (number : ℚ) : ℚ :=
  (if number < 0 then -1 else 1) * (unitsHalfUp scale number / 10 ^ scale)

theorem abs_roundHalfUp (scale : Int) (number : ℚ) :
    |roundHalfUp scale number| * 10 ^ scale = unitsHalfUp scale number := by
  have positive : (0 : ℚ) < 10 ^ scale := by positivity
  have magnitude : |(unitsHalfUp scale number : ℚ) / 10 ^ scale| = unitsHalfUp scale number / 10 ^ scale :=
    abs_of_nonneg (by positivity)
  have size : |roundHalfUp scale number| = unitsHalfUp scale number / 10 ^ scale := by
    unfold roundHalfUp
    by_cases negative : number < 0
    · rw [if_pos negative, neg_one_mul, abs_neg, magnitude]
    · rw [if_neg negative, one_mul, magnitude]
  rw [size]
  exact div_mul_cancel₀ _ positive.ne'

namespace Decimal

theorem magnitude_nonneg (value : Decimal) : 0 ≤ value.magnitude := by
  unfold magnitude
  positivity

theorem abs_toRat (value : Decimal) : |value.toRat| = value.magnitude := by
  unfold toRat
  cases value.negative with
  | true => rw [if_pos rfl, abs_neg, abs_of_nonneg value.magnitude_nonneg]
  | false => rw [if_neg Bool.false_ne_true, abs_of_nonneg value.magnitude_nonneg]

end Decimal

/-- What is below the last digit kept, as a part of its unit. -/
theorem remainder_bounds (coefficient count : Nat) :
    (0 : ℚ) ≤ ((coefficient % 10 ^ count : Nat) : ℚ) / 10 ^ count ∧
      ((coefficient % 10 ^ count : Nat) : ℚ) / 10 ^ count < 1 := by
  have unit : (0 : ℚ) < 10 ^ count := by positivity
  have small : coefficient % 10 ^ count < 10 ^ count := Nat.mod_lt _ (by positivity)
  have smallRat : ((coefficient % 10 ^ count : Nat) : ℚ) < 10 ^ count := by exact_mod_cast small
  constructor
  · positivity
  · exact (div_lt_one unit).mpr smallRat

/-- A number in units of a larger power: the quotient, the first dropped digit
and the rest. -/
theorem div_pow_succ_eq (coefficient count : Nat) :
    (coefficient : ℚ) / 10 ^ (count + 1) = ((coefficient / 10 ^ (count + 1) : Nat) : ℚ) +
      (((coefficient / 10 ^ count % 10 : Nat) : ℚ) +
        ((coefficient % 10 ^ count : Nat) : ℚ) / 10 ^ count) / 10 := by
  have quotient : coefficient / 10 ^ (count + 1) = coefficient / 10 ^ count / 10 := by
    rw [pow_succ, Nat.div_div_eq_div_mul]
  have digit : 10 * (coefficient / 10 ^ count / 10) + coefficient / 10 ^ count % 10 =
      coefficient / 10 ^ count := Nat.div_add_mod _ 10
  have rest : 10 ^ count * (coefficient / 10 ^ count) + coefficient % 10 ^ count = coefficient :=
    Nat.div_add_mod _ _
  have whole : coefficient = 10 ^ count * (10 * (coefficient / 10 ^ count / 10) +
      coefficient / 10 ^ count % 10) + coefficient % 10 ^ count := by rw [digit, rest]
  have wholeRat : (coefficient : ℚ) = 10 ^ count * (10 * ((coefficient / 10 ^ count / 10 : Nat) : ℚ) +
      ((coefficient / 10 ^ count % 10 : Nat) : ℚ)) + ((coefficient % 10 ^ count : Nat) : ℚ) := by
    exact_mod_cast whole
  rw [quotient]
  conv_lhs => rw [wholeRat]
  rw [pow_succ]
  field_simp
  ring

/-- The first dropped digit decides which way a number is rounded. -/
theorem floor_add_half {quotient digit : Nat} {rest : ℚ} (oneDigit : digit < 10) (least : 0 ≤ rest)
    (part : rest < 1) :
    ⌊(quotient : ℚ) + ((digit : ℚ) + rest) / 10 + 1 / 2⌋₊ = quotient + if 5 ≤ digit then 1 else 0 := by
  rw [Nat.floor_eq_iff (by positivity)]
  by_cases up : 5 ≤ digit
  · have upRat : (5 : ℚ) ≤ (digit : ℚ) := by exact_mod_cast up
    have oneDigitRat : (digit : ℚ) ≤ 9 := by exact_mod_cast Nat.le_of_lt_succ oneDigit
    rw [if_pos up]
    push_cast
    constructor
    · linarith
    · linarith
  · have downRat : (digit : ℚ) ≤ 4 := by exact_mod_cast Nat.le_of_lt_succ (Nat.lt_of_not_le up)
    have digitNonneg : (0 : ℚ) ≤ (digit : ℚ) := by positivity
    rw [if_neg up, Nat.add_zero]
    constructor
    · linarith
    · linarith

/-- Dropping digits is rounding half up. -/
theorem dropDigits_eq (coefficient count : Nat) :
    dropDigits coefficient count = ⌊(coefficient : ℚ) / 10 ^ count + 1 / 2⌋₊ := by
  cases count with
  | zero =>
      symm
      rw [dropDigits, pow_zero, div_one, Nat.floor_eq_iff (by positivity)]
      constructor
      · linarith
      · linarith
  | succ count =>
      have oneDigit : coefficient / 10 ^ count % 10 < 10 := Nat.mod_lt _ (by decide)
      have bounds := remainder_bounds coefficient count
      rw [div_pow_succ_eq, floor_add_half oneDigit bounds.1 bounds.2, dropDigits]

/-- The coefficient of a rescaled number is its magnitude in units, rounded half
up. -/
theorem coefficient_rescale (value : Decimal) (scale : Int) :
    (rescale value (-scale)).coefficient = unitsHalfUp scale value.toRat := by
  rw [unitsHalfUp, value.abs_toRat, Decimal.magnitude, rescale]
  have ten : (10 : ℚ) ≠ 0 := by norm_num
  by_cases finer : -scale ≤ value.exponent
  · have shift : (((value.exponent - -scale).toNat : Nat) : Int) = value.exponent + scale := by omega
    have exact : (value.coefficient : ℚ) * 10 ^ value.exponent * 10 ^ scale =
        ((value.coefficient * 10 ^ (value.exponent - -scale).toNat : Nat) : ℚ) := by
      rw [mul_assoc, ← zpow_add₀ ten, ← shift, zpow_natCast]
      push_cast
      rfl
    have below : ⌊(1 / 2 : ℚ)⌋₊ = 0 := Nat.floor_eq_zero.mpr (by norm_num)
    simp only [if_pos finer]
    rw [exact, add_comm, Nat.floor_add_natCast (by norm_num), below, Nat.zero_add]
  · have shift : (((-scale - value.exponent).toNat : Nat) : Int) = -(value.exponent + scale) := by omega
    have cut : (value.coefficient : ℚ) * 10 ^ value.exponent * 10 ^ scale =
        (value.coefficient : ℚ) / 10 ^ (-scale - value.exponent).toNat := by
      rw [mul_assoc, ← zpow_add₀ ten, ← zpow_natCast (10 : ℚ), shift, zpow_neg, div_inv_eq_mul]
    simp only [if_neg finer]
    rw [cut, dropDigits_eq]

/-- A rescaled number is the rounded one. -/
theorem toRat_rescale (value : Decimal) (scale : Int) :
    (rescale value (-scale)).toRat = roundHalfUp scale value.toRat := by
  have magnitude : (rescale value (-scale)).magnitude = unitsHalfUp scale value.toRat / 10 ^ scale := by
    rw [Decimal.magnitude, coefficient_rescale]
    show (unitsHalfUp scale value.toRat : ℚ) * 10 ^ (-scale) = _
    rw [zpow_neg, div_eq_mul_inv]
  have sameSign : (rescale value (-scale)).negative = value.negative := rfl
  rw [roundHalfUp, Decimal.toRat, magnitude, sameSign]
  cases sign : value.negative with
  | false =>
      have nonneg : ¬ value.toRat < 0 := by
        rw [Decimal.toRat, sign, if_neg Bool.false_ne_true, not_lt]
        exact value.magnitude_nonneg
      rw [if_neg Bool.false_ne_true, if_neg nonneg, one_mul]
  | true =>
      have signed : value.toRat = -value.magnitude := by rw [Decimal.toRat, sign, if_pos rfl]
      rw [if_pos rfl]
      by_cases zero : value.magnitude = 0
      · have nothing : unitsHalfUp scale value.toRat = 0 := by
          rw [unitsHalfUp, signed, zero, neg_zero, abs_zero, zero_mul, zero_add]
          exact Nat.floor_eq_zero.mpr (by norm_num)
        rw [nothing, Nat.cast_zero, zero_div, neg_zero, mul_zero]
      · have below : value.toRat < 0 := by
          rw [signed, neg_lt_zero]
          exact lt_of_le_of_ne value.magnitude_nonneg (Ne.symm zero)
        rw [if_pos below, neg_one_mul]

theorem lt_digits_iff (value : Decimal) (precision : Nat) (positive : 0 < precision) :
    precision < value.digits ↔ 10 ^ precision ≤ value.coefficient := by
  rw [Decimal.digits, Nat.lt_succ_iff]
  by_cases zero : value.coefficient = 0
  · rw [zero, Nat.log_zero_right]
    have power : 0 < 10 ^ precision := by positivity
    constructor
    · intro short
      omega
    · intro impossible
      omega
  · exact Nat.le_log_iff_pow_le (by decide) zero

/-- The number of digits can be told before rounding when it is too large. -/
theorem pow_le_coefficient_rescale {value : Decimal} {exponent : Int} {precision : Nat}
    (nonzero : value.coefficient ≠ 0) (long : (precision : Int) < value.adjusted - exponent + 1) :
    10 ^ precision ≤ (rescale value exponent).coefficient := by
  have leading : 10 ^ Nat.log 10 value.coefficient ≤ value.coefficient := Nat.pow_log_le_self 10 nonzero
  rw [Decimal.adjusted, Decimal.digits] at long
  simp only [rescale]
  by_cases finer : exponent ≤ value.exponent
  · rw [if_pos finer]
    calc 10 ^ precision
        ≤ 10 ^ (Nat.log 10 value.coefficient + (value.exponent - exponent).toNat) :=
          Nat.pow_le_pow_right (by decide) (by omega)
      _ = 10 ^ Nat.log 10 value.coefficient * 10 ^ (value.exponent - exponent).toNat := pow_add _ _ _
      _ ≤ value.coefficient * 10 ^ (value.exponent - exponent).toNat := Nat.mul_le_mul_right _ leading
  · rw [if_neg finer]
    have quotient : 10 ^ precision ≤ value.coefficient / 10 ^ (exponent - value.exponent).toNat := by
      rw [Nat.le_div_iff_mul_le (by positivity), ← pow_add]
      exact le_trans (Nat.pow_le_pow_right (by decide) (by omega)) leading
    cases count : (exponent - value.exponent).toNat with
    | zero => omega
    | succ count =>
        rw [count] at quotient
        exact le_trans quotient (Nat.le_add_right _ _)

/-- Rounding to an exponent in the range of the context fails exactly when the
rounded coefficient has too many digits. -/
theorem quantizeFinite_eq {context : Context} {value : Decimal} {exponent : Int}
    (positive : 0 < context.precision) (tiny : context.tinyExponent ≤ exponent)
    (small : exponent + context.precision ≤ context.maxExponent + 1) :
    quantizeFinite context value exponent =
      if (rescale value exponent).coefficient < 10 ^ context.precision then
        some (rescale value exponent)
      else none := by
  unfold quantizeFinite
  rw [if_neg (by omega)]
  by_cases zero : value.coefficient = 0
  · have nothing : (rescale value exponent).coefficient = 0 := by
      have dropped (count : Nat) : dropDigits 0 count = 0 := by
        cases count with
        | zero => rfl
        | succ count => simp [dropDigits]
      simp only [rescale, zero, Nat.zero_mul, dropped, ite_self]
    have same : rescale value exponent = { value with exponent := exponent } := by
      have coefficients : (rescale value exponent).coefficient = value.coefficient := nothing.trans zero.symm
      calc rescale value exponent
          = { value with
              coefficient := (rescale value exponent).coefficient
              exponent := exponent } := rfl
        _ = { value with exponent := exponent } := by rw [coefficients]
    rw [if_pos zero, nothing, if_pos (by positivity), same]
  · rw [if_neg zero]
    by_cases long : (context.precision : Int) < value.adjusted - exponent + 1
    · have large := pow_le_coefficient_rescale zero long
      rw [if_neg (Nat.not_lt.mpr large), if_pos long, ite_self]
    · rw [if_neg (by omega), if_neg long]
      have adjusted : (rescale value exponent).adjusted =
          exponent + (rescale value exponent).digits - 1 := rfl
      by_cases many : context.precision < (rescale value exponent).digits
      · have large := (lt_digits_iff _ _ positive).mp many
        rw [if_pos many, if_neg (Nat.not_lt.mpr large), ite_self]
      · have fits := Nat.lt_of_not_le (fun large => many ((lt_digits_iff _ _ positive).mpr large))
        rw [if_neg (by omega), if_neg many, if_pos fits]

end Decimals
end WarehouseSync
