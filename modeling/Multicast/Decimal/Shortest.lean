import Multicast.Decimal.Basic

/-!
The shortest decimal text of a float. Among the decimals that read back as the float, the ones with
the fewest digits are taken, and of those the one nearest to the float, a tie going up. A decimal of
a given number of digits reads back only if one of the two neighbours of the float on that grid
does, so only these two are tried.
-/

namespace Multicast.Decimal

/-- The number of digits before the decimal point; zero or less for a value below one. Every
positive float is far above `10 ^ (-400)`, so scaling by that power shows its first digit. -/
def leadingPlace (value : Fraction) : Int :=
  let scaled := value.numerator * powTen 400 / value.denominator
  (Nat.toDigits 10 scaled).length - 400

def neighbours (value : Fraction) (exponent : Int) : List Decimal :=
  let scaled := value.divPowTen exponent
  let below := scaled.numerator / scaled.denominator
  let rest := scaled.numerator % scaled.denominator
  if 2 * rest < scaled.denominator then [⟨below, exponent⟩, ⟨below + 1, exponent⟩]
  else [⟨below + 1, exponent⟩, ⟨below, exponent⟩]

/-- A neighbour above a row of nines is a power of ten, which needs one digit only. -/
def dropCarry (count : Nat) (decimal : Decimal) : Decimal :=
  if decimal.digits = powTen count then ⟨1, decimal.exponent + count⟩ else decimal

def withDigits? (target : Float) (value : Fraction) (count : Nat) : Option Decimal :=
  ((neighbours value (leadingPlace value - count)).find? fun decimal => decimal.toFloat = target).map
    (dropCarry count)

def exactly (value : Fraction) : Decimal :=
  let places := value.denominator.log2
  ⟨value.numerator * Nat.pow 5 places, -places⟩

/-- The shortest decimal that reads back as the float. Seventeen digits always suffice. -/
def shortest (target : Float) (value : Fraction) : Decimal :=
  ((List.range 17).findSome? fun count => withDigits? target value (count + 1)).getD (exactly value)

def writeFloat (value : Float) : List Char :=
  match Magnitude.ofFloat value with
  | .notANumber => "NaN".toList
  | .infinity negative => signed negative "inf".toList
  | .zero negative => signed negative ['0']
  | .finite negative fraction =>
    signed negative (shortest (if negative then -value else value) fraction).positional

end Multicast.Decimal
