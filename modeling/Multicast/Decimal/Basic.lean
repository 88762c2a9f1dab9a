/-!
Decimal fractions and binary floating-point numbers. A decimal is a natural number of digits times a
power of ten; a finite float is a natural mantissa times a power of two. Both are exact, so reading
and writing compare and round in whole numbers.
-/

namespace Multicast

def powTen (exponent : Nat) : Nat := Nat.pow 10 exponent

/-- The number `digits * 10 ^ exponent`. -/
structure Decimal where
  digits : Nat
  exponent : Int
deriving DecidableEq, Repr

namespace Decimal

/-- The nearest float, a tie going to the even mantissa. -/
def toFloat (decimal : Decimal) : Float :=
  Float.ofScientific decimal.digits (decimal.exponent < 0) decimal.exponent.natAbs

def positional (decimal : Decimal) : List Char :=
  let digits := Nat.toDigits 10 decimal.digits
  if 0 ≤ decimal.exponent then
    if decimal.digits = 0 then ['0'] else digits ++ List.replicate decimal.exponent.toNat '0'
  else
    let places := decimal.exponent.natAbs
    let padded := List.replicate (places + 1 - digits.length) '0' ++ digits
    padded.take (padded.length - places) ++ '.' :: padded.drop (padded.length - places)

end Decimal

structure Fraction where
  numerator : Nat
  denominator : Nat
deriving DecidableEq, Repr

namespace Fraction

def ofBinary (mantissa : Nat) (exponent : Int) : Fraction :=
  if 0 ≤ exponent then ⟨mantissa <<< exponent.toNat, 1⟩
  else ⟨mantissa, 1 <<< exponent.natAbs⟩

def divPowTen (fraction : Fraction) (exponent : Int) : Fraction :=
  if 0 ≤ exponent then
    ⟨fraction.numerator, fraction.denominator * powTen exponent.toNat⟩
  else
    ⟨fraction.numerator * powTen exponent.natAbs, fraction.denominator⟩

def roundHalfEven (fraction : Fraction) : Nat :=
  let quotient := fraction.numerator / fraction.denominator
  let twice := 2 * (fraction.numerator % fraction.denominator)
  if twice < fraction.denominator then quotient
  else if fraction.denominator < twice then quotient + 1
  else quotient + quotient % 2

end Fraction

namespace Decimal

/-- A float as the text writers see it. -/
inductive Magnitude where
  | notANumber
  | infinity (negative : Bool)
  | zero (negative : Bool)
  | finite (negative : Bool) (value : Fraction)

def Magnitude.ofFloat (value : Float) : Magnitude :=
  match value.toModel.unpack with
  | .notANumber => .notANumber
  | .infinity sign => .infinity (sign == .negative)
  | .zero sign => .zero (sign == .negative)
  | .finite sign mantissa exponent _ =>
    .finite (sign == .negative) (Fraction.ofBinary mantissa exponent)

def signed (negative : Bool) (text : List Char) : List Char :=
  if negative then '-' :: text else text

end Decimal
end Multicast
