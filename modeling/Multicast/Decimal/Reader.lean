import Multicast.Decimal.Basic
import Multicast.Text.Numeral

/-!
Reading floats. The text is a sign that may be missing, then `inf`, `infinity` or `nan` in any case
of letters, or digits with at most one point among them and an exponent that may be missing. At
least one digit stands before or after the point. The value is the nearest float.
-/

namespace Multicast.Decimal
open Text

def leadingDigits (text : List Char) : List Char × List Char :=
  (text.takeWhile isDigit, text.dropWhile isDigit)

def readExponent? (text : List Char) : Option Int :=
  match text with
  | [] => some 0
  | mark :: rest =>
    if mark ≠ 'e' ∧ mark ≠ 'E' then none
    else match rest with
      | '-' :: digits => (readDigits? digits).map fun value => -(value : Int)
      | '+' :: digits => (readDigits? digits).map fun value => (value : Int)
      | digits => (readDigits? digits).map fun value => (value : Int)

def readFraction (text : List Char) : List Char × List Char :=
  match text with
  | '.' :: rest => leadingDigits rest
  | _ => ([], text)

def read? (text : List Char) : Option Decimal :=
  let (whole, afterWhole) := leadingDigits text
  let (fraction, afterFraction) := readFraction afterWhole
  if whole.isEmpty && fraction.isEmpty then none
  else (readExponent? afterFraction).map fun exponent =>
    ⟨natOfDigits (whole ++ fraction), exponent - fraction.length⟩

def readMagnitude? (text : List Char) : Option Float :=
  let lowered := text.map Char.toLower
  if lowered = "inf".toList ∨ lowered = "infinity".toList then some (1.0 / 0.0)
  else if lowered = "nan".toList then some (0.0 / 0.0)
  else (read? text).map toFloat

def readFloat? (text : List Char) : Option Float :=
  match text with
  | '-' :: rest => (readMagnitude? rest).map Float.neg
  | '+' :: rest => readMagnitude? rest
  | _ => readMagnitude? text

end Multicast.Decimal
