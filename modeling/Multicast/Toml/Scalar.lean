import Multicast.Decimal.Reader
import Multicast.Toml.Instant
import Multicast.Toml.Value

/-!
Numbers, truth values and instants. Digits may have single underscores between them. Whole numbers
have 64 bits and may be written to another base; a float has a fraction or an exponent, and is
refused if it is too great.
-/

namespace Multicast.Toml
open Multicast.Text

def digitRun? (accept : Char → Bool) (text : List Char) : Option (List Char) :=
  let groups := text.splitOn '_'
  if groups.all fun group => !group.isEmpty && group.all accept then some groups.flatten else none

def wholeDigits? (text : List Char) : Option (List Char) :=
  (digitRun? isDigit text).filter fun digits => digits.length = 1 || digits.head? ≠ some '0'

def splitSign (text : List Char) : List Char × List Char :=
  match text with
  | '+' :: rest => (['+'], rest)
  | '-' :: rest => (['-'], rest)
  | _ => ([], text)

def readBase? (base : Nat) (text : List Char) : Option Int :=
  match digitRun? (fun digit => (hexDigit? digit).any (· < base)) text with
  | none => none
  | some digits =>
    let value := digits.foldl (fun value digit => base * value + (hexDigit? digit).getD 0) 0
    if value < signedLimit then some value else none

def readInteger? (text : List Char) : Option Int :=
  match text with
  | '0' :: 'x' :: digits => readBase? 16 digits
  | '0' :: 'o' :: digits => readBase? 8 digits
  | '0' :: 'b' :: digits => readBase? 2 digits
  | _ =>
    let (sign, body) := splitSign text
    (wholeDigits? body).bind fun digits => readInt? (sign ++ digits)

/-- Whether the text before an exponent is a number; one without a fraction needs an exponent. -/
def isMantissa (hasExponent : Bool) (text : List Char) : Bool :=
  match splitFirst? '.' text with
  | none => hasExponent && (wholeDigits? text).isSome
  | some (whole, fraction) => (wholeDigits? whole).isSome && (digitRun? isDigit fraction).isSome

def isFloat (text : List Char) : Bool :=
  let isMark := fun character => character = 'e' || character = 'E'
  match text.dropWhile (!isMark ·) with
  | [] => isMantissa false text
  | _ :: exponent =>
    isMantissa true (text.takeWhile (!isMark ·)) &&
      (digitRun? isDigit (splitSign exponent).2).isSome

def readFloat? (text : List Char) : Option Float :=
  let body := (splitSign text).2
  if body = "inf".toList ∨ body = "nan".toList then Decimal.readFloat? text
  else if isFloat body then
    (Decimal.readFloat? (text.filter (· ≠ '_'))).filter fun value => value < 1.0 / 0.0
  else none

def readScalar? (text : List Char) : Option Value :=
  if text = "true".toList then some (.boolean true)
  else if text = "false".toList then some (.boolean false)
  else if isInstant text then some .instant
  else match readFloat? text, readInteger? text with
    | some value, _ => some (.float value)
    | none, some value => some (.integer value)
    | none, none => none

end Multicast.Toml
