/-!
Integers in decimal notation. A reader takes the whole text: a sign where one is allowed, then
digits and nothing else, and refuses values outside its range.
-/

namespace Multicast.Text

def isDigit (character : Char) : Bool := '0' ≤ character && character ≤ '9'

def digitValue (character : Char) : Nat := character.toNat - '0'.toNat

def natOfDigits (digits : List Char) : Nat :=
  digits.foldl (fun value digit => 10 * value + digitValue digit) 0

def readDigits? (text : List Char) : Option Nat :=
  if text.isEmpty || !text.all isDigit then none else some (natOfDigits text)

def hexDigit? (character : Char) : Option Nat :=
  if isDigit character then some (digitValue character)
  else if 'a' ≤ character && character ≤ 'f' then some (character.toNat - 'a'.toNat + 10)
  else if 'A' ≤ character && character ≤ 'F' then some (character.toNat - 'A'.toNat + 10)
  else none

def writeHex (width value : Nat) : String :=
  let digits := Nat.toDigits 16 value
  String.ofList (List.replicate (width - digits.length) '0' ++ digits)

/-- A natural number not above the limit. A plus sign may stand in front, a minus sign may not. -/
def readNat? (limit : Nat) (text : List Char) : Option Nat :=
  let digits := match text with
    | '+' :: rest => rest
    | _ => text
  (readDigits? digits).filter (· ≤ limit)

/-- Signed numbers of 64 bits are below this limit, and not below its negative. -/
def signedLimit : Nat := 9223372036854775808

def readInt? (text : List Char) : Option Int :=
  match text with
  | '-' :: digits => ((readDigits? digits).filter (· ≤ signedLimit)).map fun (value : Nat) => -value
  | '+' :: digits => ((readDigits? digits).filter (· < signedLimit)).map fun (value : Nat) => value
  | digits => ((readDigits? digits).filter (· < signedLimit)).map fun (value : Nat) => value

def readUInt32? (text : List Char) : Option Nat := readNat? (UInt32.size - 1) text

def readUInt64? (text : List Char) : Option Nat := readNat? (UInt64.size - 1) text

end Multicast.Text
