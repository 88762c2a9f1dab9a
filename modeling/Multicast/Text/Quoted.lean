import Multicast.Text.Printable

/-!
Quoted texts for messages. Quotes, backslashes and the usual control characters get a backslash in
front; other characters without a printed form are given by their code in braces.
-/

namespace Multicast.Text

def hexCode (character : Char) : List Char := Nat.toDigits 16 character.toNat

def escape (character : Char) : List Char :=
  match character with
  | '\t' => ['\\', 't']
  | '\r' => ['\\', 'r']
  | '\n' => ['\\', 'n']
  | '"' => ['\\', '"']
  | '\\' => ['\\', '\\']
  | '\x00' => ['\\', '0']
  | _ =>
    if isPrintable character then [character]
    else ['\\', 'u', '\x7b'] ++ hexCode character ++ ['\x7d']

def quote (text : List Char) : String := String.ofList ('"' :: text.flatMap escape ++ ['"'])

end Multicast.Text
