/-!
White space, as the Unicode property of that name lists it. Field readers cut it off both ends of a
text, and lists of words are separated by it.
-/

namespace Multicast.Text

/-- The 25 white-space characters of Unicode. -/
def isBlank (character : Char) : Bool :=
  let code := character.toNat
  (0x09 ≤ code && code ≤ 0x0D) || code == 0x20 || code == 0x85 || code == 0xA0 || code == 0x1680 ||
    (0x2000 ≤ code && code ≤ 0x200A) || code == 0x2028 || code == 0x2029 || code == 0x202F ||
    code == 0x205F || code == 0x3000

def trimStart (text : List Char) : List Char := text.dropWhile isBlank

def trimEnd (text : List Char) : List Char := (text.reverse.dropWhile isBlank).reverse

def trim (text : List Char) : List Char := trimEnd (trimStart text)

def isAllBlank (text : List Char) : Bool := text.all isBlank

/-- One character in front of the words of the rest: the character joins the first word if no
white space stands between them. -/
def prependToWords (character : Char) (rest : List Char) (words : List (List Char)) :
    List (List Char) :=
  if isBlank character then words
  else match rest, words with
    | next :: _, word :: others =>
      if isBlank next then [character] :: words else (character :: word) :: others
    | _, _ => [character] :: words

def words : List Char → List (List Char)
  | [] => []
  | character :: rest => prependToWords character rest (words rest)

end Multicast.Text
